import TieredUdf.Proofs.Engine.Ceiling
import TieredUdf.Proofs.Engine.Operations
import TieredUdf.Proofs.Module.Factories
import TieredUdf.Proofs.Module.Selection

/-! # The registry of an engine and its history

Operations that succeed are noted in a history: a descriptor is registered or a key is removed.
The main statement is that an engine between calls always has those modules registered that its
history tells, in the order of their keys and ready to serve.
-/

namespace TieredUdf

variable {β ω ι : Type}

/-! ## Histories -/

/-- An operation that has changed what is registered. -/
inductive Change where
  | added (d : Descriptor)
  | removed (key : ModuleKey)

namespace Change

def key : Change → ModuleKey
  | .added d => d.key
  | .removed key => key

def descriptor? : Change → Option Descriptor
  | .added d => some d
  | .removed _ => none

/-- What the last change of a key has left registered under it. -/
def current? (changes : List Change) (key : ModuleKey) : Option Descriptor :=
  (changes.filter fun c => c.key == key).getLast?.bind descriptor?

theorem current?_append (changes : List Change) (c : Change) (key : ModuleKey) :
    current? (changes ++ [c]) key = if c.key = key then c.descriptor? else current? changes key := by
  unfold current?
  by_cases own : c.key = key
  · simp [own]
  · simp [own]

theorem key_of_current? {changes : List Change} {key : ModuleKey} {d : Descriptor}
    (current : current? changes key = some d) : d.key = key := by
  obtain ⟨c, last, added⟩ := Option.bind_eq_some_iff.mp current
  have own := (List.mem_filter.mp (List.mem_of_getLast? last)).2
  cases c with
  | added _ =>
      cases added
      simpa [Change.key] using own
  | removed _ => cases added

end Change

/-! ## Modules that are ready -/

/-- A module that is registered between calls.  Its factories are of some kind. -/
structure LoadedModule.Ready (F : Factory ω ι → Prop) (d : Descriptor) (m : LoadedModule ω ι) :
    Prop where
  descriptor : m.descriptor = d
  draining : m.draining = false
  inFlight : m.inFlight = 0
  factories : m.Each fun p => F p.factory

namespace LoadedModule

variable {F : Factory ω ι → Prop} {d : Descriptor} {m n : LoadedModule ω ι}

theorem Ready.of_pools (h : m.Ready F d) (descriptor : n.descriptor = m.descriptor)
    (draining : n.draining = m.draining) (inFlight : n.inFlight = m.inFlight)
    (pools : m.Uses n) : n.Ready F d :=
  ⟨descriptor.trans h.descriptor, draining.trans h.draining, inFlight.trans h.inFlight,
    pools.factories h.factories⟩

theorem Ready.withStats (h : m.Ready F d) (stats : ModuleStats) :
    Ready F d { m with stats := stats } :=
  h.of_pools rfl rfl rfl (m.closes_withStats stats).uses

theorem Ready.settle (h : m.Ready F d) : m.settle.Ready F d :=
  ⟨h.descriptor, h.draining, h.inFlight, h.factories⟩

theorem Ready.failCompile (h : m.Ready F d) (error : CompileError) (milliseconds : Nat) :
    (m.failCompile error milliseconds).Ready F d :=
  (h.withStats _).settle

theorem Ready.installNative (h : m.Ready F d) {p : Pool ω ι} (made : F p.factory)
    (reference : Bool) (c : Cache) : (m.installNative p reference c).2.1.Ready F d := by
  obtain ⟨descriptor, inFlight, draining, _⟩ := m.installNative_rest p reference c
  exact ⟨descriptor.trans h.descriptor, draining.trans h.draining, inFlight.trans h.inFlight,
    h.factories.installNative (fun _ => id) made reference c⟩

end LoadedModule

namespace Engine

variable {F : Factory (World β) ι → Prop} {config : Config} {changes : List Change}
  {e f : Engine β ι} {d : Descriptor}

/-! ## The order of the keys -/

theorem pairwise_insertKey {key : ModuleKey} {registered : List (ModuleKey × Nat)}
    (sorted : (registered.map Prod.fst).Pairwise fun a b => a.before b)
    (new : key ∉ registered.map Prod.fst) (n : Nat) :
    ((insertKey key n registered).map Prod.fst).Pairwise fun a b => a.before b := by
  induction registered with
  | nil => exact List.pairwise_singleton _ _
  | cons r rest ih =>
      obtain ⟨first, sorted_rest⟩ := List.pairwise_cons.mp sorted
      obtain ⟨distinct, new_rest⟩ := not_or.mp (mt List.mem_cons.mpr new)
      unfold insertKey
      split
      · rename_i before
        refine List.pairwise_cons.mpr ⟨fun other listed => ?_, sorted⟩
        rcases List.mem_cons.mp listed with rfl | later
        · exact before
        · exact ModuleKey.before_trans before (first other later)
      · rename_i not_before
        refine List.pairwise_cons.mpr ⟨fun other listed => ?_, ih sorted_rest new_rest⟩
        have members := (insertKey_perm key n rest).map Prod.fst
        rcases List.mem_cons.mp (members.subset listed) with rfl | old
        · exact ModuleKey.before_of_not_before not_before distinct
        · exact first other old

/-! ## Steps that leave the registry alone -/

/-- Whatever makes instances for an engine makes factories of some kind only. -/
structure Makes (F : Factory (World β) ι → Prop) (e : Engine β ι) : Prop where
  interpreter : ∀ bytecode spec f, e.interpreter bytecode spec = .ok f → F f
  backend : ∀ b, e.backend = some b → ∀ artifact spec w f,
    (b.load artifact spec w).1 = .ok f → F f

/-- One engine comes from another one by steps that neither register nor remove a module, and
what was ready stays so. -/
structure Stays (F : Factory (World β) ι → Prop) (e f : Engine β ι) : Prop where
  config : f.config = e.config
  interpreter : f.interpreter = e.interpreter
  backend : f.backend = e.backend
  registered : f.registered = e.registered
  registrations : f.counters.registrations = e.counters.registrations
  unregistrations : f.counters.unregistrations = e.counters.unregistrations
  modules : ∀ (n : Nat) m d, e.modules[n]? = some m → m.Ready F d →
    ∃ k, f.modules[n]? = some k ∧ k.Ready F d

theorem Makes.stays (h : e.Makes F) (stays : e.Stays F f) : f.Makes F :=
  ⟨stays.interpreter ▸ h.interpreter, stays.backend ▸ h.backend⟩

theorem Stays.refl (F : Factory (World β) ι → Prop) (e : Engine β ι) : e.Stays F e :=
  ⟨rfl, rfl, rfl, rfl, rfl, rfl, fun _ m _ at_n ready => ⟨m, at_n, ready⟩⟩

theorem Stays.trans {g : Engine β ι} (h : e.Stays F f) (k : f.Stays F g) : e.Stays F g where
  config := k.config.trans h.config
  interpreter := k.interpreter.trans h.interpreter
  backend := k.backend.trans h.backend
  registered := k.registered.trans h.registered
  registrations := k.registrations.trans h.registrations
  unregistrations := k.unregistrations.trans h.unregistrations
  modules := fun n m d at_n ready => by
    obtain ⟨m', at_n', ready'⟩ := h.modules n m d at_n ready
    exact k.modules n m' d at_n' ready'

/-- The cache, the world, the jobs and the other counters may change. -/
theorem stays_of_eq (same : f = { e with
    cache := f.cache
    world := f.world
    jobs := f.jobs
    counters := { f.counters with
      registrations := e.counters.registrations
      unregistrations := e.counters.unregistrations } }) : e.Stays F f := by
  rw [same]
  exact ⟨rfl, rfl, rfl, rfl, rfl, rfl, fun _ m _ at_n ready => ⟨m, at_n, ready⟩⟩

theorem stays_setModule {n : Nat} {m k : LoadedModule (World β) ι} (at_n : e.modules[n]? = some m)
    (ready : ∀ d, m.Ready F d → k.Ready F d) : e.Stays F (e.setModule n k) := by
  refine ⟨rfl, rfl, rfl, rfl, rfl, rfl, fun l o d at_l ready_o => ?_⟩
  rw [modules_of_set at_n (f := e.setModule n k) rfl]
  by_cases own : l = n
  · subst own
    rw [at_n, Option.some.injEq] at at_l
    subst at_l
    exact ⟨k, if_pos rfl, ready d ready_o⟩
  · exact ⟨o, (if_neg own).trans at_l, ready_o⟩

/-! ### Jobs -/

theorem nativePool_factory (makes : e.Makes F) {b : Backend (World β) ι} (given : e.backend = some b)
    {artifact : List UInt8} {p : Pool (World β) ι}
    (made : (e.nativePool b d artifact).1 = .ok p) : F p.factory := by
  obtain ⟨factory, w, loaded, _, rfl⟩ := nativePool_eq_ok made
  have same : ((e.newPool d .native factory).prefill (e.poolSize d) w).2.1.factory = factory :=
    (Pool.fill_follows _ _ _).factory
  rw [same]
  exact makes.backend b given artifact _ _ factory (congrArg Prod.fst loaded)

theorem stays_install (makes : e.Makes F) {b : Backend (World β) ι} (given : e.backend = some b)
    (j : CompileJob) (artifact : List UInt8) (fromCache : Bool) (n now : Nat) :
    e.Stays F (e.install b j artifact fromCache n now) := by
  unfold Engine.install
  split
  · exact .refl F e
  · rename_i m at_n
    split
    · exact stays_setModule at_n fun d ready => ready.settle
    · let stored := e.cache.storeAndAcquire j.hash artifact j.origin b.name now
      have taken : e.Stays F { e with cache := stored.1 } := stays_of_eq rfl
      dsimp only
      split
      · rename_i pool world made
        have made : F pool.factory := nativePool_factory (e := { e with cache := stored.1 })
          (makes.stays taken) given (congrArg Prod.fst made)
        refine Stays.trans ?_ (stays_setModule at_n fun d ready =>
          ((ready.installNative made stored.2.isSome stored.1).withStats _).settle)
        exact stays_of_eq rfl
      · refine Stays.trans ?_ (stays_setModule at_n fun d ready => ready.failCompile _ 0)
        exact stays_of_eq rfl

theorem stays_failWaiters (F : Factory (World β) ι → Prop) (e : Engine β ι) (i : Nat)
    (j : CompileJob) (error : CompileError) : e.Stays F (e.failWaiters i j error) := by
  refine Stays.trans (List.foldlRecOn (motive := e.Stays F) (j.waiters.filter e.isAlive) _
    (.refl F e) fun f stays n _ => ?_) (stays_of_eq rfl)
  split
  · rename_i m at_n
    exact stays.trans (stays_setModule at_n fun d ready => ready.failCompile error 0)
  · exact stays

theorem stays_stepJob (makes : e.Makes F) (i now : Nat) : e.Stays F (e.stepJob i now) := by
  unfold Engine.stepJob
  split
  · rename_i j b _ given
    split
    · unfold Engine.lookupArtifact
      split <;> exact stays_of_eq rfl
    · unfold Engine.compileArtifact
      split <;> exact stays_of_eq rfl
    · exact stays_of_eq rfl
    · exact stays_of_eq rfl
    · exact stays_failWaiters F e i j _
    · rename_i artifact fromCache n rest _
      have moved : e.Stays F (e.setStage i j (.installing artifact fromCache rest)) :=
        stays_of_eq rfl
      exact moved.trans (stays_install (makes.stays moved) given j artifact fromCache n now)
    · exact stays_of_eq rfl
  · exact .refl F e

/-! ### Calls -/

theorem stays_invoke (F : Factory (World β) ι → Prop) (caller : Caller ι) (e : Engine β ι)
    (key : ModuleKey) (document : Document) (args : Arguments) (elapsed : Text.Duration)
    (now : Nat) : e.Stays F (e.invoke caller key document args elapsed now).2 := by
  unfold Engine.invoke
  split
  · exact .refl F e
  · rename_i n _
    split
    · exact .refl F e
    · rename_i s at_site
      obtain ⟨m, at_n, rfl⟩ := Option.map_eq_some_iff.mp at_site
      let called := Site.invoke caller ⟨m, e.cache, e.world⟩ document args elapsed now
      have serves : ∀ d, m.Ready F d → called.2.module.Ready F d := by
        intro d ready
        obtain ⟨standing, _⟩ := Site.invoke_standing caller (s := ⟨m, e.cache, e.world⟩)
          ready.draining document args elapsed now
        have continues := Site.invoke_continues caller ⟨m, e.cache, e.world⟩ document args elapsed
          now
        have uses := Site.uses_invoke caller ⟨m, e.cache, e.world⟩ document args elapsed now
        exact ready.of_pools continues.descriptor
          (congrArg LoadedModule.Standing.draining standing)
          (congrArg LoadedModule.Standing.inFlight standing) uses
      exact (stays_setModule at_n serves).trans (stays_of_eq rfl)

/-! ### Loading -/

theorem loadCached_stays (makes : e.Makes F) (d : Descriptor) (now : Nat) :
    e.Stays F (e.loadCached d now).2 ∧ ∀ m, (e.loadCached d now).1 = some m → m.Ready F d := by
  unfold Engine.loadCached
  split
  · exact ⟨.refl F e, fun m loaded => nomatch loaded⟩
  · rename_i b given
    split
    · exact ⟨stays_of_eq rfl, fun m loaded => nomatch loaded⟩
    · rename_i c artifact _
      dsimp only
      split
      · exact ⟨stays_of_eq rfl, fun m loaded => nomatch loaded⟩
      · rename_i pool world made
        refine ⟨stays_of_eq rfl, fun m loaded => ?_⟩
        have found : e.Stays F { e with cache := c } := stays_of_eq rfl
        have made : F pool.factory := nativePool_factory (e := { e with cache := c })
          (makes.stays found) given (congrArg Prod.fst made)
        cases loaded
        refine ⟨rfl, rfl, rfl, fun tier p at_p => ?_⟩
        cases tier with
        | interpreter => cases at_p
        | native =>
            cases at_p
            exact made

theorem loadInterpreted_stays (makes : e.Makes F) (d : Descriptor) (now : Nat) :
    e.Stays F (e.loadInterpreted d now).2 ∧
      ∀ m, (e.loadInterpreted d now).1 = .ok m → m.Ready F d := by
  unfold Engine.loadInterpreted
  split
  · exact ⟨.refl F e, fun m loaded => nomatch loaded⟩
  · rename_i factory given
    have settings := (Pool.fill_follows (min 1 (e.newPool d .interpreter factory).capacity)
      (e.newPool d .interpreter factory) e.world).factory
    split
    · exact ⟨stays_of_eq rfl, fun m loaded => nomatch loaded⟩
    · rename_i pool world filled
      refine ⟨stays_of_eq rfl, fun m loaded => ?_⟩
      have made : F pool.factory := by
        rw [Pool.prefill] at filled
        rw [filled] at settings
        rw [settings]
        exact makes.interpreter d.bytecode (e.instanceSpec d) factory given
      cases loaded
      refine ⟨rfl, rfl, rfl, fun tier p at_p => ?_⟩
      cases tier with
      | native => cases at_p
      | interpreter =>
          cases at_p
          exact made

theorem load_stays (makes : e.Makes F) (d : Descriptor) (now : Nat) :
    e.Stays F (e.load d now).2 ∧ ∀ m, (e.load d now).1 = .ok m → m.Ready F d := by
  have cached := loadCached_stays makes d now
  unfold Engine.load
  revert cached
  rcases e.loadCached d now with ⟨_ | m, f⟩ <;> intro ⟨stays, ready⟩
  · obtain ⟨later, ready⟩ := loadInterpreted_stays (makes.stays stays) d now
    exact ⟨stays.trans later, ready⟩
  · refine ⟨stays, fun k loaded => ?_⟩
    cases loaded
    exact ready m rfl

/-! ## Engines that agree with their history -/

/-- An engine between calls has those modules registered that a history tells. -/
structure Agrees (F : Factory (World β) ι → Prop) (config : Config) (changes : List Change)
    (e : Engine β ι) : Prop where
  config : e.config = config
  makes : e.Makes F
  sorted : (e.registered.map Prod.fst).Pairwise fun a b => a.before b
  distinct : e.numbers.Nodup
  listed : ∀ key n, (key, n) ∈ e.registered → ∃ d m, Change.current? changes key = some d ∧
    e.modules[n]? = some m ∧ m.Ready F d
  complete : ∀ key d, Change.current? changes key = some d → key ∈ e.registered.map Prod.fst
  counted : e.counters.registrations = e.counters.unregistrations + e.registered.length

theorem Agrees.keys (h : e.Agrees F config changes) : (e.registered.map Prod.fst).Nodup :=
  h.sorted.imp fun before => ModuleKey.ne_of_before before

theorem Agrees.stays (h : e.Agrees F config changes) (stays : e.Stays F f) :
    f.Agrees F config changes where
  config := stays.config.trans h.config
  makes := h.makes.stays stays
  sorted := stays.registered ▸ h.sorted
  distinct := by
    rw [numbers, stays.registered]
    exact h.distinct
  listed := fun key n listed => by
    rw [stays.registered] at listed
    obtain ⟨d, m, current, at_n, ready⟩ := h.listed key n listed
    obtain ⟨k, at_n', ready'⟩ := stays.modules n m d at_n ready
    exact ⟨d, k, current, at_n', ready'⟩
  complete := stays.registered ▸ h.complete
  counted := by
    rw [stays.registrations, stays.unregistrations, stays.registered]
    exact h.counted

/-! ### Registering -/

theorem Agrees.addModule (h : e.Agrees F config changes) {m : LoadedModule (World β) ι}
    (new : e.isRegistered d.key = false) (ready : m.Ready F d) :
    Agrees F config (changes ++ [.added d]) { e.addModule m with
      counters := { e.counters with registrations := e.counters.registrations + 1 } } := by
  have key : m.key = d.key := congrArg Descriptor.key ready.descriptor
  have new : m.key ∉ e.registered.map Prod.fst := by
    rw [key, ← isRegistered_iff, new]
    exact Bool.false_ne_true
  have perm := insertKey_perm m.key e.modules.length e.registered
  -- every registered number has a module, so the next number is not in use
  have unused : e.modules.length ∉ e.numbers := by
    intro used
    obtain ⟨⟨k, n⟩, listed, rfl⟩ := List.mem_map.mp used
    obtain ⟨_, m, _, at_n, _⟩ := h.listed k _ listed
    exact absurd (List.getElem?_eq_some_iff.mp at_n).1 (Nat.lt_irrefl _)
  constructor
  · exact h.config
  · exact ⟨h.makes.interpreter, h.makes.backend⟩
  · exact pairwise_insertKey h.sorted new _
  · exact (perm.map Prod.snd).nodup_iff.mpr (List.nodup_cons.mpr ⟨unused, h.distinct⟩)
  · intro k n listed
    rcases List.mem_cons.mp (perm.subset listed) with own | old
    · cases own
      refine ⟨d, m, ?_, List.getElem?_concat_length, ready⟩
      rw [Change.current?_append, key]
      exact if_pos rfl
    · obtain ⟨d', m', current, at_n, ready'⟩ := h.listed k n old
      obtain ⟨small, _⟩ := List.getElem?_eq_some_iff.mp at_n
      refine ⟨d', m', ?_, (List.getElem?_append_left small).trans at_n, ready'⟩
      rw [Change.current?_append, if_neg, current]
      rintro rfl
      exact new (key ▸ List.mem_map_of_mem old)
  · intro k d' current
    refine (perm.map Prod.fst).symm.subset ?_
    rw [Change.current?_append] at current
    split at current
    · rename_i own
      exact own ▸ key ▸ List.mem_cons_self
    · exact List.mem_cons_of_mem _ (h.complete k d' current)
  · have length := perm.length_eq
    have counted := h.counted
    dsimp only [Engine.addModule]
    rw [length, List.length_cons]
    omega

theorem stays_schedule (F : Factory (World β) ι → Prop) (e : Engine β ι) (n : Nat)
    (m : LoadedModule (World β) ι) : e.Stays F (e.schedule n m) := by
  unfold Engine.schedule
  split <;> exact stays_of_eq rfl

theorem Agrees.enroll (h : e.Agrees F config changes) {m : LoadedModule (World β) ι}
    (new : e.isRegistered d.key = false) (ready : m.Ready F d) :
    (e.enroll m).2.Agrees F config (changes ++ [.added d]) := by
  have begun : m.beginCompile.1.Ready F d :=
    ⟨ready.descriptor, ready.draining, ready.inFlight, ready.factories⟩
  unfold Engine.enroll
  dsimp only
  split
  · split
    · exact (h.addModule new begun).stays (stays_schedule F _ _ _)
    · exact h.addModule new begun
  · exact h.addModule new ready

/-- A registration is noted when it succeeds, and it leaves the registry alone when it fails. -/
theorem Agrees.register (h : e.Agrees F config changes) (d : Descriptor) (now : Nat) :
    (e.register d now).2.Agrees F config
      (changes ++ ((e.register d now).1.toOption.map fun _ => Change.added d).toList) := by
  unfold Engine.register
  split
  · rw [show Except.toOption (Except.error _) = none from rfl]
    simpa using h
  · rename_i checked
    obtain ⟨stays, ready⟩ := load_stays h.makes d now
    revert stays ready
    rcases e.load d now with ⟨error | m, f⟩ <;> intro stays ready
    · simpa [Except.toOption] using h.stays stays
    · -- loading has registered nothing, so the key is still new
      have new : f.isRegistered d.key = false := by
        rw [isRegistered, number?, stays.registered]
        exact isRegistered_of_check checked
      exact (h.stays stays).enroll new (ready m rfl)

/-! ### Removing -/

theorem Agrees.number?_eq_none_iff (h : e.Agrees F config changes) {key : ModuleKey} :
    e.number? key = none ↔ Change.current? changes key = none := by
  rw [← Option.not_isSome_iff_eq_none, ← isRegistered, isRegistered_iff]
  constructor
  · intro unlisted
    cases current : Change.current? changes key with
    | none => rfl
    | some d => exact absurd (h.complete key d current) unlisted
  · intro missing listed
    obtain ⟨⟨k, n⟩, mem, rfl⟩ := List.mem_map.mp listed
    obtain ⟨d, _, current, _⟩ := h.listed k n mem
    rw [missing] at current
    cases current

theorem Agrees.removeKey (h : e.Agrees F config changes) {key : ModuleKey} {n : Nat}
    (mem : (key, n) ∈ e.registered) :
    Agrees F config (changes ++ [.removed key]) { e.removeKey key with
      counters := { e.counters with unregistrations := e.counters.unregistrations + 1 } } := by
  have kept : (e.removeKey key).registered.Sublist e.registered := List.filter_sublist
  have parts : e.registered.Perm ((key, n) :: (e.removeKey key).registered) :=
    Cache.perm_cons_filter h.keys mem
  constructor
  · exact h.config
  · exact ⟨h.makes.interpreter, h.makes.backend⟩
  · exact h.sorted.sublist (kept.map _)
  · exact h.distinct.sublist (kept.map _)
  · intro k l listed
    have other : key ≠ k := by
      rintro rfl
      simp [Engine.removeKey] at listed
    obtain ⟨d, m, current, at_l, ready⟩ := h.listed k l (kept.subset listed)
    refine ⟨d, m, ?_, at_l, ready⟩
    rw [Change.current?_append]
    exact (if_neg other).trans current
  · intro k d current
    rw [Change.current?_append] at current
    split at current
    · cases current
    · rename_i other
      have listed := (parts.map Prod.fst).subset (h.complete k d current)
      rcases List.mem_cons.mp listed with rfl | stays
      · exact absurd rfl other
      · exact stays
  · have length := parts.length_eq
    have counted := h.counted
    rw [List.length_cons] at length
    dsimp only
    omega

/-- A module that is not registered may become any other one. -/
theorem Agrees.setModule (h : e.Agrees F config changes) {n : Nat} (unlisted : n ∉ e.numbers)
    (k : LoadedModule (World β) ι) : (e.setModule n k).Agrees F config changes where
  config := h.config
  makes := ⟨h.makes.interpreter, h.makes.backend⟩
  sorted := h.sorted
  distinct := h.distinct
  listed := fun key l listed => by
    obtain ⟨d, m, current, at_l, ready⟩ := h.listed key l listed
    have apart : n ≠ l := by
      rintro rfl
      exact unlisted (List.mem_map.mpr ⟨(key, n), listed, rfl⟩)
    exact ⟨d, m, current, (List.getElem?_set_ne apart).trans at_l, ready⟩
  complete := h.complete
  counted := h.counted

theorem Agrees.retire (h : e.Agrees F config changes) {key : ModuleKey} {n : Nat}
    (found : e.number? key = some n) :
    (e.retire key n).Agrees F config (changes ++ [.removed key]) := by
  have mem := mem_registered found
  obtain ⟨d, m, _, at_n, _⟩ := h.listed key n mem
  have parts : e.numbers.Perm (n :: (e.removeKey key).numbers) :=
    (Cache.perm_cons_filter h.keys mem).map Prod.snd
  obtain ⟨gone, _⟩ := List.nodup_cons.mp (parts.nodup_iff.mp h.distinct)
  rw [retire_eq at_n]
  exact ((h.removeKey mem).setModule gone _).stays (stays_of_eq rfl)

theorem Agrees.unregister (h : e.Agrees F config changes) (key : ModuleKey) :
    (e.unregister key).2.Agrees F config
      (changes ++ ((e.unregister key).1.toOption.map fun _ => Change.removed key).toList) := by
  unfold Engine.unregister
  split
  · simpa [Except.toOption] using h
  · rename_i n found
    exact h.retire found

/-- No call is in flight, so a module that is registered can be removed in either way. -/
theorem Agrees.tryUnregister_eq (h : e.Agrees F config changes) (key : ModuleKey) :
    e.tryUnregister key = e.unregister key := by
  unfold Engine.tryUnregister Engine.unregister
  cases found : e.number? key with
  | none => rfl
  | some n =>
      obtain ⟨_, m, _, at_n, ready⟩ := h.listed key n (mem_registered found)
      simp [at_n, ready.inFlight]

/-! ### Runs -/

def change? (e : Engine β ι) : Action ι → Option Change
  | .register d now => (e.register d now).1.toOption.map fun _ => .added d
  | .unregister key => (e.unregister key).1.toOption.map fun _ => .removed key
  | .tryUnregister key => (e.tryUnregister key).1.toOption.map fun _ => .removed key
  | .invoke .. | .evictCache _ | .stepJob .. => none

def history (e : Engine β ι) : List (Action ι) → List Change
  | [] => []
  | a :: actions => (e.change? a).toList ++ (e.act a).history actions

theorem Agrees.act (h : e.Agrees F config changes) (a : Action ι) :
    (e.act a).Agrees F config (changes ++ (e.change? a).toList) := by
  cases a with
  | register d now => exact h.register d now
  | unregister key => exact h.unregister key
  | tryUnregister key =>
      dsimp only [Engine.act, change?]
      rw [h.tryUnregister_eq]
      exact h.unregister key
  | invoke caller key document args elapsed now =>
      rw [change?, Option.toList_none, List.append_nil]
      exact h.stays (stays_invoke F caller e key document args elapsed now)
  | evictCache target =>
      rw [change?, Option.toList_none, List.append_nil]
      exact h.stays (stays_of_eq rfl)
  | stepJob i now =>
      rw [change?, Option.toList_none, List.append_nil]
      exact h.stays (stays_stepJob h.makes i now)

theorem Agrees.run (h : e.Agrees F config changes) (actions : List (Action ι)) :
    (e.actAll actions).Agrees F config (changes ++ e.history actions) := by
  induction actions generalizing e changes with
  | nil => simpa [history, actAll] using h
  | cons a actions ih =>
      have rest := ih (h.act a)
      rw [List.append_assoc] at rest
      exact rest

/-- A new engine has nothing registered, and it stays in agreement with what is done. -/
theorem agrees_new {config : Config} {interpreter : Interpreter (World β) ι}
    {backend : Option (Backend (World β) ι)} {cache : Cache} {world : World β}
    (made : Engine.new config interpreter backend cache world = .ok e) (makes : e.Makes F)
    (actions : List (Action ι)) : (e.actAll actions).Agrees F config (e.history actions) := by
  obtain ⟨_, _, made⟩ := bind_eq_ok.mp made
  cases made
  have start : Agrees F config [] (⟨config, interpreter, backend, [], [], [], .zero, cache, world⟩ :
      Engine β ι) := ⟨rfl, makes, .nil, .nil, nofun, nofun, rfl⟩
  exact start.run actions

end Engine

end TieredUdf
