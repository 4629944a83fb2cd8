import TieredUdf.Proofs.Engine.Registry

/-! # What an engine tells of its registry

An engine answers as a table of descriptors would: registrations, removals, calls and reports find
a key exactly when it is in the table, and a query gives what the table has for it in the order of
the keys.  After any run the table is the one that the history tells.
-/

namespace TieredUdf.Engine

variable {β ι : Type} {F : Factory (World β) ι → Prop} {config : Config} {changes : List Change}
  {e : Engine β ι}

/-! ## Looking up -/

/-- A key has no module, or the module that was registered last under it. -/
theorem Agrees.lookup (h : e.Agrees F config changes) (key : ModuleKey) :
    (Change.current? changes key = none ∧ e.number? key = none) ∨
      ∃ d n m, Change.current? changes key = some d ∧ e.number? key = some n ∧
        e.modules[n]? = some m ∧ m.Ready F d := by
  cases found : e.number? key with
  | none => exact Or.inl ⟨h.number?_eq_none_iff.mp found, rfl⟩
  | some n =>
      obtain ⟨d, m, current, at_n, ready⟩ := h.listed key n (mem_registered found)
      exact Or.inr ⟨d, n, m, current, rfl, at_n, ready⟩

theorem Agrees.descriptor? (h : e.Agrees F config changes) (key : ModuleKey) :
    e.descriptor? key = Change.current? changes key := by
  unfold Engine.descriptor? module?
  rcases h.lookup key with ⟨current, missing⟩ | ⟨d, n, m, current, found, at_n, ready⟩
  · simp [current, missing]
  · simp [current, found, at_n, ready.descriptor]

theorem Agrees.report?_eq_none_iff (h : e.Agrees F config changes) (key : ModuleKey) :
    e.report? key = none ↔ Change.current? changes key = none := by
  rw [← h.descriptor?, report?, Engine.descriptor?, Option.map_eq_none_iff, Option.map_eq_none_iff]

theorem Agrees.mem_keys_iff (h : e.Agrees F config changes) (key : ModuleKey) :
    key ∈ e.registered.map Prod.fst ↔ ∃ d, Change.current? changes key = some d := by
  constructor
  · intro listed
    obtain ⟨⟨k, n⟩, mem, rfl⟩ := List.mem_map.mp listed
    obtain ⟨d, _, current, _⟩ := h.listed k n mem
    exact ⟨d, current⟩
  · rintro ⟨d, current⟩
    exact h.complete key d current

/-! ## Answers -/

theorem load_error {d : Descriptor} {now : Nat} {error : ValidationError}
    (failed : (e.load d now).1 = .error error) : ∃ detail, error = .interpreter detail := by
  unfold load at failed
  split at failed
  · cases failed
  · rename_i f _
    unfold loadInterpreted at failed
    split at failed
    · cases failed
      exact ⟨_, rfl⟩
    · split at failed <;> cases failed
      exact ⟨_, rfl⟩

theorem register_duplicate_iff {d : Descriptor} {shape : ModuleShape}
    (valid : d.validate e.config.maxMemoryPages = .ok shape)
    (limits : d.validateLimits e.isMetering = .ok ()) (now : Nat) (key : ModuleKey) :
    (e.register d now).1 = .error (.duplicate key) ↔ key = d.key ∧ e.isRegistered d.key := by
  have checked : e.check d = if e.isRegistered d.key then .error (.duplicate d.key) else .ok () := by
    unfold check
    rw [valid, limits]
    rfl
  unfold register
  rw [checked]
  cases registered : e.isRegistered d.key with
  | true => simp [eq_comm]
  | false =>
      have fails : ∀ error, (e.load d now).1 = .error error →
          ∃ detail, error = .interpreter detail := fun error => load_error
      revert fails
      rcases e.load d now with ⟨error | m, f⟩ <;> intro fails
      · obtain ⟨detail, rfl⟩ := fails error rfl
        simp
      · simp

theorem unregister_notFound_iff (key other : ModuleKey) :
    (e.unregister key).1 = .error (.notFound other) ↔ other = key ∧ e.number? key = none := by
  unfold unregister
  cases e.number? key with
  | none => simp [eq_comm]
  | some n => simp

theorem Agrees.unregister_ok (h : e.Agrees F config changes) {key : ModuleKey} {d : Descriptor}
    (current : Change.current? changes key = some d) :
    (e.unregister key).1 = .ok () ∧ (e.tryUnregister key).1 = .ok () := by
  rw [h.tryUnregister_eq, and_self]
  rcases h.lookup key with ⟨missing, _⟩ | ⟨_, n, _, _, found, _⟩
  · rw [missing] at current
    cases current
  · unfold Engine.unregister
    rw [found]

theorem invoke_of_missing {key : ModuleKey} (missing : e.number? key = none) (caller : Caller ι)
    (document : Document) (args : Arguments) (elapsed : Text.Duration) (now : Nat) :
    e.invoke caller key document args elapsed now = (.error (.notFound key), e) := by
  unfold invoke
  rw [missing]

/-- A call of a registered module never learns that the module is not there. -/
theorem Agrees.invoke_notFound_iff (h : e.Agrees Factory.Silent config changes) {caller : Caller ι}
    (silent : caller.Silent) (key other : ModuleKey) (document : Document) (args : Arguments)
    (elapsed : Text.Duration) (now : Nat) :
    (e.invoke caller key document args elapsed now).1 = .error (.notFound other) ↔
      other = key ∧ Change.current? changes key = none := by
  rcases h.lookup key with ⟨current, missing⟩ | ⟨d, n, m, current, found, at_n, ready⟩
  · rw [invoke_of_missing missing, current]
    simp [eq_comm]
  · rw [current]
    have site : e.site? n = some ⟨m, e.cache, e.world⟩ := by simp [site?, at_n]
    have served : (e.invoke caller key document args elapsed now).1 =
        (Site.invoke caller ⟨m, e.cache, e.world⟩ document args elapsed now).1 := by
      unfold invoke
      rw [found]
      dsimp only
      rw [site]
    rw [served]
    constructor
    · intro failed
      have told := Site.invoke_ne_notFound silent ready.factories failed
      exact absurd trivial told
    · rintro ⟨_, missing⟩
      cases missing

/-! ## Queries -/

theorem Agrees.number?_of_mem (h : e.Agrees F config changes) {key : ModuleKey} {n : Nat}
    (listed : (key, n) ∈ e.registered) : e.number? key = some n := by
  have registered : e.isRegistered key := (isRegistered_iff e key).mpr (List.mem_map_of_mem listed)
  obtain ⟨l, found⟩ := Option.isSome_iff_exists.mp registered
  have same := List.inj_on_of_nodup_map h.keys (mem_registered found) listed rfl
  exact found.trans (congrArg some (congrArg Prod.snd same))

/-- The registered modules have the keys under which they are registered. -/
theorem Agrees.map_key (h : e.Agrees F config changes) :
    e.registeredModules.map LoadedModule.key = e.registered.map Prod.fst := by
  have keyed : ∀ r ∈ e.registered, (e.modules[r.2]?).map LoadedModule.key = some r.1 := by
    intro r listed
    obtain ⟨d, m, current, at_n, ready⟩ := h.listed r.1 r.2 listed
    rw [at_n]
    exact congrArg some ((congrArg Descriptor.key ready.descriptor).trans
      (Change.key_of_current? current))
  rw [registeredModules, List.map_filterMap, ← List.filterMap_eq_map]
  exact List.filterMap_congr keyed

theorem Agrees.mem_registeredModules (h : e.Agrees F config changes) {m : LoadedModule (World β) ι}
    (mem : m ∈ e.registeredModules) :
    e.module? m.key = some m ∧ Change.current? changes m.key = some m.descriptor := by
  obtain ⟨⟨key, n⟩, listed, at_n⟩ := List.mem_filterMap.mp mem
  obtain ⟨d, o, current, at_n', ready⟩ := h.listed key n listed
  cases at_n.symm.trans at_n'
  have own : m.key = key :=
    (congrArg Descriptor.key ready.descriptor).trans (Change.key_of_current? current)
  rw [own, module?, h.number?_of_mem listed, ready.descriptor]
  exact ⟨at_n, current⟩

theorem Agrees.mem_query_iff (h : e.Agrees F config changes) (q : Query) (i : ModuleInfo) :
    i ∈ e.query q ↔ ∃ key m, e.module? key = some m ∧ q.Fits m.descriptor ∧ info m = i := by
  unfold query
  rw [List.mem_map]
  constructor
  · rintro ⟨m, mem, told⟩
    obtain ⟨registered, selected⟩ := List.mem_filter.mp mem
    exact ⟨m.key, m, (h.mem_registeredModules registered).1, Query.selects_iff.mp selected, told⟩
  · rintro ⟨key, m, found, fits, told⟩
    obtain ⟨n, number, at_n⟩ := Option.bind_eq_some_iff.mp found
    have registered : m ∈ e.registeredModules :=
      List.mem_filterMap.mpr ⟨(key, n), mem_registered number, at_n⟩
    exact ⟨m, List.mem_filter.mpr ⟨registered, Query.selects_iff.mpr fits⟩, told⟩

theorem Agrees.descriptor_mem_query_iff (h : e.Agrees F config changes) (q : Query)
    (d : Descriptor) :
    d ∈ (e.query q).map ModuleInfo.descriptor ↔
      Change.current? changes d.key = some d ∧ q.Fits d := by
  rw [List.mem_map]
  constructor
  · rintro ⟨i, mem, rfl⟩
    obtain ⟨key, m, found, fits, rfl⟩ := (h.mem_query_iff q i).mp mem
    have current : Change.current? changes key = some m.descriptor := by
      rw [← h.descriptor?, Engine.descriptor?, found]
      rfl
    have own : m.descriptor.key = key := Change.key_of_current? current
    exact ⟨own.symm ▸ current, fits⟩
  · rintro ⟨current, fits⟩
    rw [← h.descriptor?] at current
    obtain ⟨m, found, rfl⟩ := Option.map_eq_some_iff.mp current
    exact ⟨info m, (h.mem_query_iff q (info m)).mpr ⟨_, m, found, fits, rfl⟩, rfl⟩

/-- What a query gives is in the order of the keys, each of them once. -/
theorem Agrees.query_sorted (h : e.Agrees F config changes) (q : Query) :
    (e.query q).Pairwise fun i j => i.descriptor.key.before j.descriptor.key := by
  have keys := h.sorted
  rw [← h.map_key] at keys
  exact List.pairwise_map.mpr ((List.pairwise_map.mp keys).sublist List.filter_sublist)

/-- A query with more filters gives a part of the list. -/
theorem query_narrowed (e : Engine β ι) {p q : Query} (narrows : p.Narrows q) :
    (e.query p).Sublist (e.query q) := by
  have fewer : (e.registeredModules.filter fun m => p.selects m.descriptor) =
      (e.registeredModules.filter fun m => q.selects m.descriptor).filter
        fun m => p.selects m.descriptor := by
    rw [List.filter_filter]
    refine List.filter_congr fun m _ => ?_
    cases selected : p.selects m.descriptor with
    | false => rfl
    | true =>
        have wider := Query.selects_iff.mpr (narrows.fits (Query.selects_iff.mp selected))
        rw [wider]
        rfl
  unfold query
  rw [fewer]
  exact List.filter_sublist.map _

/-! ## The registry after a run -/

/-- An engine answers as a table of descriptors by their keys does. -/
structure Mirrors (e : Engine β ι) (table : ModuleKey → Option Descriptor) : Prop where
  keys : ∀ key, key ∈ e.registered.map Prod.fst ↔ ∃ d, table key = some d
  once : (e.registered.map Prod.fst).Nodup
  descriptors : ∀ key, e.descriptor? key = table key
  balance : e.counters.registrations = e.counters.unregistrations + e.size
  register : ∀ d shape, d.validate e.config.maxMemoryPages = .ok shape →
    d.validateLimits e.isMetering = .ok () → ∀ now key,
      (e.register d now).1 = .error (.duplicate key) ↔ key = d.key ∧ ∃ old, table d.key = some old
  unregister : ∀ key other,
    (e.unregister key).1 = .error (.notFound other) ↔ other = key ∧ table key = none
  tryUnregister : ∀ key other,
    (e.tryUnregister key).1 = .error (.notFound other) ↔ other = key ∧ table key = none
  removable : ∀ key d, table key = some d →
    (e.unregister key).1 = .ok () ∧ (e.tryUnregister key).1 = .ok ()
  report : ∀ key, e.report? key = none ↔ table key = none
  invoke : ∀ key, table key = none → ∀ (caller : Caller ι) document args elapsed now,
    e.invoke caller key document args elapsed now = (.error (.notFound key), e)
  found : ∀ q d, d ∈ (e.query q).map ModuleInfo.descriptor ↔ table d.key = some d ∧ q.Fits d
  told : ∀ q, ∀ i ∈ e.query q, ∃ m, e.module? i.descriptor.key = some m ∧ info m = i
  sorted : ∀ q, (e.query q).Pairwise fun i j =>
    i.descriptor.key.name < j.descriptor.key.name ∨
      (i.descriptor.key.name = j.descriptor.key.name ∧
        i.descriptor.key.version < j.descriptor.key.version)
  narrowed : ∀ p q, p.Narrows q → (e.query p).Sublist (e.query q)

theorem Agrees.mirrors (h : e.Agrees F config changes) : e.Mirrors (Change.current? changes) where
  keys := h.mem_keys_iff
  once := h.keys
  descriptors := h.descriptor?
  balance := h.counted
  register := fun d shape valid limits now key => by
    rw [register_duplicate_iff valid limits, isRegistered_iff, h.mem_keys_iff]
  unregister := fun key other => by
    rw [unregister_notFound_iff, h.number?_eq_none_iff]
  tryUnregister := fun key other => by
    rw [h.tryUnregister_eq, unregister_notFound_iff, h.number?_eq_none_iff]
  removable := fun _ _ => h.unregister_ok
  report := h.report?_eq_none_iff
  invoke := fun key missing => invoke_of_missing (h.number?_eq_none_iff.mpr missing)
  found := h.descriptor_mem_query_iff
  told := fun q i mem => by
    obtain ⟨key, m, found, _, rfl⟩ := (h.mem_query_iff q i).mp mem
    have current := h.descriptor? key
    rw [Engine.descriptor?, found] at current
    have own : m.descriptor.key = key := Change.key_of_current? current.symm
    exact ⟨m, own.symm ▸ found, rfl⟩
  sorted := fun q => (h.query_sorted q).imp fun before => ModuleKey.before_iff.mp before
  narrowed := fun p q => e.query_narrowed

/-- After any operations and steps of jobs, an engine answers as the table does that its history
tells: the keys whose last successful registration or removal was a registration, with the
descriptors that were registered then.  A call fails because its module is not found exactly when
it is not in the table, as long as instances and whatever makes them never say so themselves. -/
theorem actAll_mirrors {config : Config} {interpreter : Interpreter (World β) ι}
    {backend : Option (Backend (World β) ι)} {cache : Cache} {world : World β}
    (made : Engine.new config interpreter backend cache world = .ok e)
    (actions : List (Action ι)) :
    let after := e.actAll actions
    let table := Change.current? (e.history actions)
    after.config = config ∧ after.Mirrors table ∧
      (e.Makes Factory.Silent → ∀ caller : Caller ι, caller.Silent →
        ∀ key other document args elapsed now,
          (after.invoke caller key document args elapsed now).1 = .error (.notFound other) ↔
            other = key ∧ table key = none) := by
  intro after table
  have any : e.Makes fun _ => True := ⟨fun _ _ _ _ => trivial, fun _ _ _ _ _ _ _ => trivial⟩
  have agrees := agrees_new made any actions
  refine ⟨agrees.config, agrees.mirrors, fun silent caller instances key other => ?_⟩
  exact (agrees_new made silent actions).invoke_notFound_iff instances key other

/-- The tiers of WebAssembly make no factories that say so. -/
theorem makes_silent {e : Engine β Wasm.Instance} (interpreter : e.interpreter = Wasm.interpreter)
    (backend : ∀ b, e.backend = some b → b = Wasm.backend) : e.Makes Factory.Silent := by
  constructor
  · intro bytecode spec f made
    rw [interpreter] at made
    unfold Wasm.interpreter at made
    split at made
    · cases made
      exact Wasm.factory_silent _ _ spec
    · cases made
  · intro b given artifact spec w f made
    rw [backend b given] at made
    dsimp only [Wasm.backend] at made
    split at made
    · cases made
      exact Wasm.factory_silent _ _ spec
    · cases made

def onWasm : Engine Unit Wasm.Instance :=
  ⟨.defaults none 1, Wasm.interpreter, some Wasm.backend, [], [], [], .zero, .inMemory 4,
    ⟨.empty, ()⟩⟩

/-- A name that is registered twice in one version and once in another one, and then taken away
in the first. -/
def renewed : List (Action Wasm.Instance) :=
  [.register Descriptor.boost 0, .register Descriptor.boost 1,
    .register { Descriptor.boost with key := ⟨"boost", "2"⟩ } 2, .unregister ⟨"boost", "1"⟩]

theorem actAll_mirrors_renewed :
    Engine.new (.defaults none 1) Wasm.interpreter (some Wasm.backend) (.inMemory 4)
      ⟨.empty, ()⟩ = .ok onWasm ∧
    (onWasm.history renewed).map Change.key =
      [⟨"boost", "1"⟩, ⟨"boost", "2"⟩, ⟨"boost", "1"⟩] ∧
    (((onWasm.actAll renewed).query ⟨some "boost", none, [], none, none⟩).map
      fun i => i.descriptor.key) = [⟨"boost", "2"⟩] ∧
    (onWasm.actAll renewed).Mirrors (Change.current? (onWasm.history renewed)) ∧
    ∀ document args elapsed now,
      ((onWasm.actAll renewed).invoke Wasm.caller ⟨"boost", "1"⟩ document args elapsed now).1 =
          .error (.notFound ⟨"boost", "1"⟩) ∧
        ((onWasm.actAll renewed).invoke Wasm.caller ⟨"boost", "2"⟩ document args elapsed now).1 ≠
          .error (.notFound ⟨"boost", "2"⟩) := by
  have made : Engine.new (.defaults none 1) Wasm.interpreter (some Wasm.backend) (.inMemory 4)
      ⟨.empty, ()⟩ = .ok onWasm := rfl
  have ran : (onWasm.history renewed).map Change.key =
        [⟨"boost", "1"⟩, ⟨"boost", "2"⟩, ⟨"boost", "1"⟩] ∧
      (((onWasm.actAll renewed).query ⟨some "boost", none, [], none, none⟩).map
        fun i => i.descriptor.key) = [⟨"boost", "2"⟩] ∧
      (Change.current? (onWasm.history renewed) ⟨"boost", "1"⟩).isSome = false ∧
      (Change.current? (onWasm.history renewed) ⟨"boost", "2"⟩).isSome = true := by
    decide +kernel
  obtain ⟨keys, found, first, second⟩ := ran
  have silent : onWasm.Makes Factory.Silent :=
    makes_silent rfl fun _ given => (Option.some.inj given).symm
  obtain ⟨_, mirrors, calls⟩ := actAll_mirrors made renewed
  have calls := calls silent Wasm.caller Wasm.caller_silent
  refine ⟨made, keys, found, mirrors, fun document args elapsed now =>
    ⟨(calls _ _ document args elapsed now).mpr ⟨rfl, by simpa using first⟩, fun failed => ?_⟩⟩
  have missing := ((calls _ _ document args elapsed now).mp failed).2
  rw [missing] at second
  cases second

end TieredUdf.Engine
