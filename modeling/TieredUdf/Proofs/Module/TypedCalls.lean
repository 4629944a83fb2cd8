import TieredUdf.Proofs.Module.CallTypes
import TieredUdf.Proofs.Module.Traffic

/-! # Registered modules are called by their types

As long as instances respect the type of their entry function, no call of a registered module
ends because its results do not fit the declared returns.  Every pool keeps nothing but such
instances, and every call that runs has one of them and arguments of the right types.
-/

namespace TieredUdf

open Text (Duration)

variable {β ω ι : Type}

def Scalar.valType (a : Scalar) : Wasm.ValType := .ofScalar a.type

/-- Whether results could not be taken as values of the declared returns. -/
def ExecError.IsConversion : ExecError → Prop
  | .resultArity .. | .resultType .. => True
  | _ => False

theorem ExecError.not_isConversion {e : ExecError} (h : e.isBindingError = true) :
    ¬ e.IsConversion := by
  cases e <;> first | exact id | cases h

/-- Instances of a kind respect the type of a function: called with arguments of that type, and
whatever the host answers, they end with results of that type or with an error of their own.
Only a trap may spoil them. -/
structure Respects (caller : Caller ι) (type : Wasm.FuncType) (sound : ι → Prop) : Prop where
  results : ∀ body args host values, sound body → args.map Scalar.valType = type.params →
    ((caller body args).run host).2.1 = .ok values → values.map Scalar.valType = type.results
  errors : ∀ body args host e, sound body → args.map Scalar.valType = type.params →
    ((caller body args).run host).2.1 = .error e → ¬ e.IsConversion
  kept : ∀ body args host, sound body → args.map Scalar.valType = type.params →
    Lease.isTrap ((caller body args).run host).2.1 = false →
    sound ((caller body args).run host).2.2

/-- Whatever its context, a call has the arguments that a function takes. -/
def BoundCall.Fits (c : BoundCall) (type : Wasm.FuncType) : Prop :=
  ∀ ctx, (c.arguments ctx).map Scalar.valType = type.params

/-- A descriptor and a function type fit: calls have arguments of that type, and results of that
type are taken as the declared returns. -/
structure Descriptor.Fits (d : Descriptor) (type : Wasm.FuncType) : Prop where
  arguments : ∀ args bound ctx, d.bind args = .ok bound →
    (bound.arguments ctx).map Scalar.valType = type.params
  results : ∀ raw, raw.map Scalar.valType = type.results →
    ∃ values, convertResults d.returns raw = .ok values ∧ values.map Value.type = d.returns

/-! ## Pools that hold sound instances -/

/-- A pool has sound instances, and its factory makes no others. -/
structure Pool.Holds (sound : ι → Prop) (p : Pool ω ι) : Prop where
  idle : ∀ m ∈ p.idle, sound m.body
  made : ∀ w body, (p.factory w).1 = .ok body → sound body
  failed : ∀ w e, (p.factory w).1 = .error e → ¬ e.IsConversion

/-- What an answered request for an instance has to be. -/
def Pool.Answer (sound : ι → Prop) : Except ExecError (Member ι) → Prop
  | .ok m => sound m.body
  | .error e => ¬ e.IsConversion

namespace Pool.Holds

variable {sound : ι → Prop} {p q : Pool ω ι}

theorem of_eq (h : p.Holds sound) (idle : ∀ m ∈ q.idle, m ∈ p.idle)
    (factory : q.factory = p.factory) : q.Holds sound :=
  ⟨fun m hm => h.idle m (idle m hm), factory ▸ h.made, factory ▸ h.failed⟩

theorem answers (h : p.Holds sound) {w after : ω} {result : Except ExecError (Member ι)}
    (answer : Pool.Answers p w result q after) : Pool.Answer sound result ∧ q.Holds sound := by
  have follows := answer.follows.factory
  cases answer with
  | lent idle =>
      exact ⟨h.idle _ (idle ▸ List.mem_cons_self),
        h.of_eq (fun m hm => idle ▸ List.mem_cons_of_mem _ hm) follows⟩
  | made idle isOpen room attempt => exact ⟨h.made w _ (by rw [attempt]), h.of_eq (fun _ => id) rfl⟩
  | failed idle isOpen room attempt => exact ⟨h.failed w _ (by rw [attempt]), h⟩
  | exhausted idle full => exact ⟨id, h.of_eq (fun _ => id) rfl⟩

theorem asked (h : p.Holds sound) : p.asked.Holds sound := h.of_eq (fun _ => id) rfl

theorem release (h : p.Holds sound) {m : Member ι} {poisoned : Bool}
    (isSound : poisoned = false → sound m.body) : (p.release m poisoned).1.Holds sound := by
  rcases p.release_cases m poisoned with ⟨unspoilt, _, _, released⟩ | ⟨_, released⟩
  · rw [released]
    refine ⟨fun n hn => ?_, h.made, h.failed⟩
    rcases List.mem_append.mp hn with old | new
    · exact h.idle n old
    · cases List.mem_singleton.mp new
      exact isSound unspoilt
  · rw [released]
    exact h.of_eq (fun _ => id) rfl

theorem close (p : Pool ω ι) (h : p.Holds sound) : p.close.1.Holds sound :=
  h.of_eq (fun _ hm => nomatch hm) rfl

end Pool.Holds

/-! ## Steps of a call -/

namespace Site

/-- A module of a descriptor with sound instances in its pools. -/
structure Typed (d : Descriptor) (sound : ι → Prop) (s : Site β ι) : Prop where
  descriptor : s.module.descriptor = d
  holds : s.module.Each (Pool.Holds sound)

/-- A call that runs has a sound instance and arguments of the right types; one that is refused is
not refused for its results. -/
def TypedAdmission (type : Wasm.FuncType) (sound : ι → Prop) : Admission ι → Prop
  | .refused e => ¬ e.IsConversion
  | .running call =>
      sound call.lease.member.body ∧ call.arguments.map Scalar.valType = type.params

variable {d : Descriptor} {type : Wasm.FuncType} {sound : ι → Prop} {s : Site β ι}

theorem Typed.closes (h : s.Typed d sound) {n : LoadedModule (World β) ι}
    (closes : s.module.Closes n) (cache : Cache) (world : World β) :
    Typed d sound ⟨n, cache, world⟩ :=
  ⟨closes.descriptor.trans h.descriptor, h.holds.closes Pool.Holds.close closes⟩

theorem Typed.refuse (h : s.Typed d sound) {e : ExecError} (he : ¬ e.IsConversion)
    (type : Wasm.FuncType) (now : Nat) :
    TypedAdmission type sound (s.refuse e now).1 ∧ (s.refuse e now).2.Typed d sound :=
  ⟨he, h.closes
    ((s.module.closes_withStats _).trans (LoadedModule.closes_exit _ s.cache)) _ _⟩

theorem Typed.setPool (h : s.Typed d sound) {tier : Tier} {p : Pool (World β) ι}
    (hp : p.Holds sound) (world : World β) :
    Typed d sound { s with module := s.module.setPool tier p, world := world } :=
  ⟨(s.module.setPool_descriptor tier p).trans h.descriptor, h.holds.setPool tier hp⟩

theorem Typed.checkoutFrom (h : s.Typed d sound) (tier : Tier) :
    Pool.Answer sound (s.checkoutFrom tier).1 ∧ (s.checkoutFrom tier).2.Typed d sound := by
  cases hp : s.module.pool? tier with
  | none =>
      rw [Site.checkoutFrom, hp]
      exact ⟨id, h⟩
  | some p =>
      rw [checkoutFrom_of_pool hp]
      obtain ⟨answer, after⟩ := (h.holds tier p hp).asked.answers (p.checkout_answers s.world)
      exact ⟨answer, h.setPool after _⟩

theorem Typed.start (h : s.Typed d sound) (tier : Tier) {m : Member ι} (hm : sound m.body)
    {bound : BoundCall} (fits : bound.Fits type) (document : Document) :
    TypedAdmission type sound (s.start tier m bound document).1 ∧
      (s.start tier m bound document).2.Typed d sound :=
  ⟨⟨hm, fits _⟩, h.descriptor, h.holds⟩

theorem Typed.afterCheckout (h : s.Typed d sound) (tier : Tier)
    {result : Except ExecError (Member ι)} (hr : Pool.Answer sound result) {bound : BoundCall}
    (fits : bound.Fits type) (document : Document) (now : Nat) :
    TypedAdmission type sound (s.afterCheckout tier result bound document now).1 ∧
      (s.afterCheckout tier result bound document now).2.Typed d sound := by
  cases result with
  | ok m => exact h.start tier hr fits document
  | error e =>
      unfold Site.afterCheckout
      dsimp only
      split
      · obtain ⟨answer, after⟩ := h.checkoutFrom .native
        revert answer after
        rcases s.checkoutFrom .native with ⟨e | m, s⟩ <;> intro answer after
        · exact after.refuse answer type now
        · exact after.start .native answer fits document
      · exact h.refuse hr type now

/-- How far a call has come by its types. -/
def TypedStage (type : Wasm.FuncType) (sound : ι → Prop) : CallStage ι → Prop
  | .decided admission => TypedAdmission type sound admission
  | .waiting _ bound => bound.Fits type

theorem Typed.resumeCall (h : s.Typed d sound) (tier : Tier) {bound : BoundCall}
    (fits : bound.Fits type) (document : Document) (now : Nat) :
    TypedAdmission type sound (s.resumeCall tier bound document now).1 ∧
      (s.resumeCall tier bound document now).2.Typed d sound := by
  unfold Site.resumeCall
  cases hp : s.module.pool? tier with
  | none => exact h.refuse id type now
  | some p =>
      obtain ⟨answer, after⟩ := (h.holds tier p hp).answers (p.endCheckout_answers s.world)
      exact (h.setPool after _).afterCheckout tier answer fits document now

theorem Typed.obtain (h : s.Typed d sound) {bound : BoundCall}
    (fits : bound.Fits type) (document : Document) (now : Nat) :
    TypedStage type sound (s.obtain bound document now).1 ∧
      (s.obtain bound document now).2.Typed d sound := by
  unfold Site.obtain
  split
  · exact h.refuse id type now
  · rename_i tier _
    split
    · exact h.refuse id type now
    · rename_i p hp
      have asked := (h.holds tier p hp).asked
      rcases p.beginCheckout_cases s.world with ⟨result, q, after, hb, answers⟩ | ⟨hb, _, _⟩
      · obtain ⟨answer, held⟩ := asked.answers answers
        rw [hb]
        exact (h.setPool held after).afterCheckout tier answer fits document now
      · rw [hb]
        exact ⟨fits, h.setPool asked s.world⟩

theorem Typed.beginCall (h : s.Typed d sound) (fits : d.Fits type) (document : Document)
    (args : Arguments) (now : Nat) :
    TypedStage type sound (s.beginCall document args now).1 ∧
      (s.beginCall document args now).2.Typed d sound := by
  have arrived : Typed d sound { s with module := s.module.arrive } :=
    h.closes s.module.closes_arrive s.cache s.world
  unfold Site.beginCall
  dsimp only
  split
  · exact arrived.refuse id type now
  · split
    · rename_i e refused
      exact arrived.refuse (ExecError.not_isConversion (Descriptor.bind_error refused)) type now
    · rename_i bound hb
      have bound_fits : bound.Fits type := fun ctx =>
        fits.arguments args bound ctx (h.descriptor ▸ hb)
      exact arrived.obtain bound_fits document now

theorem Typed.giveBack (h : s.Typed d sound) (tier : Tier) {l : Lease ι}
    (isSound : l.poisoned = false → sound l.member.body) : (s.giveBack tier l).Typed d sound := by
  unfold Site.giveBack
  cases hp : s.module.pool? tier with
  | none => exact h
  | some p => exact h.setPool ((h.holds tier p hp).release isSound) s.world

/-- A call whose guest ran by its type ends with the declared returns or with an error of another
kind. -/
theorem Typed.finish (h : s.Typed d sound) (fits : d.Fits type) {caller : Caller ι}
    (respects : Respects caller type sound) {call : RunningCall ι}
    (typed : TypedAdmission type sound (.running call)) (elapsed : Duration) (now : Nat) :
    (∀ e, (s.finish caller call elapsed now).1 = .error e → ¬ e.IsConversion) ∧
      (s.finish caller call elapsed now).2.Typed d sound := by
  obtain ⟨body, arguments⟩ := typed
  have results := fun values => respects.results _ _ s.world.host values body arguments
  have errors := fun e => respects.errors _ _ s.world.host e body arguments
  have kept := respects.kept _ _ s.world.host body arguments
  unfold Site.finish
  revert results errors kept
  obtain ⟨host, raw, after⟩ := (caller call.lease.member.body call.arguments).run s.world.host
  intro results errors kept
  dsimp only at results errors kept ⊢
  constructor
  · intro e ended
    rw [endCall_result, h.descriptor] at ended
    cases raw with
    | error reason =>
        cases ended
        exact errors e rfl
    | ok values =>
        obtain ⟨converted, same, _⟩ := fits.results values (results values rfl)
        rw [Except.bind, same] at ended
        cases ended
  · have moved : Typed d sound { s with world := { s.world with host := host } } :=
      ⟨h.descriptor, h.holds⟩
    have given := moved.giveBack call.tier (l := call.lease.afterCall raw after)
      fun unspoilt => kept (Bool.or_eq_false_iff.mp unspoilt).2
    exact given.closes (closes_endCall _ call raw after elapsed now) _ _

end Site

/-! ## Traffic -/

namespace Traffic

/-- An event brings in nothing but sound instances. -/
def Event.Supplies (sound : ι → Prop) : Event β ι → Prop
  | .install p _ => p.Holds sound
  | _ => True

/-- A module whose calls all have the right types, and none of which ended because of its
results. -/
structure Typed (d : Descriptor) (type : Wasm.FuncType) (sound : ι → Prop) (t : Traffic β ι) :
    Prop where
  site : t.site.Typed d sound
  waiting : ∀ w ∈ t.waiting, w.bound.Fits type
  running : ∀ call ∈ t.running, Site.TypedAdmission type sound (.running call)
  results : ∀ e, .error e ∈ t.results → ¬ e.IsConversion

variable {d : Descriptor} {type : Wasm.FuncType} {sound : ι → Prop} {t : Traffic β ι}

theorem Typed.admitted (h : t.Typed d type sound) {r : Admission ι × Site β ι}
    (typed : Site.TypedAdmission type sound r.1 ∧ r.2.Typed d sound) :
    (t.admitted r).Typed d type sound := by
  obtain ⟨admission, s⟩ := r
  cases admission with
  | refused e =>
      refine ⟨typed.2, h.waiting, h.running, fun f hf => ?_⟩
      rcases List.mem_cons.mp hf with same | old
      · cases same
        exact typed.1
      · exact h.results f old
  | running call =>
      refine ⟨typed.2, h.waiting, fun c hc => ?_, h.results⟩
      rcases List.mem_append.mp hc with old | new
      · exact h.running c old
      · cases List.mem_singleton.mp new
        exact typed.1

theorem Typed.step (h : t.Typed d type sound) (fits : d.Fits type) {caller : Caller ι}
    (respects : Respects caller type sound) {event : Event β ι} (supplies : event.Supplies sound) :
    (t.step caller event).Typed d type sound := by
  cases event with
  | begin document args now =>
      have begun := h.site.beginCall fits document args now
      dsimp only [Traffic.step]
      rcases hb : t.site.beginCall document args now with ⟨admission | ⟨tier, bound⟩, s⟩ <;>
        rw [hb] at begun
      · exact h.admitted begun
      · obtain ⟨stage, site⟩ := begun
        refine ⟨site, fun w hw => ?_, h.running, h.results⟩
        rcases List.mem_append.mp hw with old | new
        · exact h.waiting w old
        · cases List.mem_singleton.mp new
          exact stage
  | resume number now =>
      dsimp only [Traffic.step]
      split
      · exact h
      · rename_i w found
        have others : Typed d type sound { t with waiting := t.waiting.eraseIdx number } :=
          ⟨h.site, fun w hw => h.waiting w (List.mem_of_mem_eraseIdx hw), h.running, h.results⟩
        exact others.admitted (h.site.resumeCall w.tier (h.waiting w (List.mem_of_getElem? found))
          w.document now)
  | finish number elapsed now =>
      dsimp only [Traffic.step]
      split
      · exact h
      · rename_i call found
        obtain ⟨result, site⟩ := h.site.finish fits respects
          (h.running call (List.mem_of_getElem? found)) elapsed now
        refine ⟨site, h.waiting, fun c hc => h.running c (List.mem_of_mem_eraseIdx hc),
          fun e he => ?_⟩
        rcases List.mem_cons.mp he with same | old
        · exact result e same.symm
        · exact h.results e old
  | install p reference =>
      have holds := h.site.holds.installNative Pool.Holds.close supplies reference t.site.cache
      refine ⟨⟨?_, holds⟩, h.waiting, h.running, h.results⟩
      rcases t.site.module.closes_installNative p reference t.site.cache with closes | closes
      · exact closes.descriptor.trans h.site.descriptor
      · exact closes.descriptor.trans h.site.descriptor
  | drain =>
      exact ⟨h.site.closes (t.site.module.closes_beginDrain t.site.cache) _ _, h.waiting,
        h.running, h.results⟩
  | elsewhere cache world =>
      exact ⟨⟨h.site.descriptor, h.site.holds⟩, h.waiting, h.running, h.results⟩

theorem Typed.run (h : t.Typed d type sound) (fits : d.Fits type) {caller : Caller ι}
    (respects : Respects caller type sound) {events : List (Event β ι)}
    (supplies : ∀ event ∈ events, event.Supplies sound) :
    (t.run caller events).Typed d type sound := by
  induction events generalizing t with
  | nil => exact h
  | cons event events ih =>
      obtain ⟨first, rest⟩ := List.forall_mem_cons.mp supplies
      exact ih (h.step fits respects first) rest

end Traffic

/-! ## Accepted descriptors -/

namespace Descriptor

/-- What a valid descriptor asks of its entry function is what its calls give and take. -/
theorem fits_of_validate {d : Descriptor} {limit : Nat} {shape : ModuleShape}
    (h : d.validate limit = .ok shape) : d.Fits (.ofSignature d.entrySignature) where
  arguments := fun args bound ctx hb => by
    rw [Wasm.FuncType.ofSignature, ← arguments_types hb ctx, List.map_map]
    rfl
  results := fun raw hr => by
    refine convertResults_types (entryFunction_of_validate h).1 ?_
    have scalars : (raw.map Scalar.type).map Wasm.ValType.ofScalar =
        d.entrySignature.results.map .ofScalar := by
      rw [List.map_map]
      exact hr
    exact List.map_injective_iff.mpr Wasm.ValType.ofScalar_injective scalars

/-- An accepted descriptor has an entry function in its bytecode.  Arguments and results fit the
type of that function, so that no call of the module, in any order with other calls and events,
ends because of its results while instances respect that type. -/
theorem typed_calls_of_validate {d : Descriptor} {limit : Nat} {shape : ModuleShape}
    (accepted : d.validate limit = .ok shape) :
    (∃ m e type, d.EntryFunction m e type) ∧
    ∀ m e type, d.EntryFunction m e type →
      d.Fits type ∧
      ∀ (caller : Caller ι) (sound : ι → Prop), Respects caller type sound →
      ∀ s : Site β ι, s.module.descriptor = d → s.module.Each (Pool.Holds sound) →
      ∀ events : List (Traffic.Event β ι), (∀ event ∈ events, event.Supplies sound) →
      ∀ error, .error error ∈ ((Traffic.ofSite s).run caller events).results →
        ¬ error.IsConversion := by
  obtain ⟨_, m, e, entry⟩ := entryFunction_of_validate accepted
  refine ⟨⟨m, e, _, entry⟩, fun n f type other => ?_⟩
  cases entry.unique other
  refine ⟨fits_of_validate accepted, fun caller sound respects s served holds events supplies => ?_⟩
  have start : (Traffic.ofSite s).Typed d (.ofSignature d.entrySignature) sound :=
    ⟨⟨served, holds⟩, nofun, nofun, nofun⟩
  exact (start.run (fits_of_validate accepted) respects supplies).results

/-- A descriptor of the module that multiplies the score by a boost, with a text parameter before
the number. -/
def boost : Descriptor :=
  .ofBytecode ⟨"boost", "1"⟩ "score" [⟨"lang", .string, false, none⟩, ⟨"boost", .f64, true, none⟩]
    [.f64] ModuleShape.boostBytes default default

def contextOf : List Scalar → Int64
  | .i64 ctx :: _ => ctx
  | _ => 0

/-- Instances that answer with the score of the document. -/
def scorer : Caller Unit := fun _ args =>
  .ask (.getScore (contextOf args)) none fun _ results => .done (.ok results, ())

theorem scorer_respects :
    Respects scorer (.ofSignature boost.entrySignature) fun _ => True where
  results := fun _ _ _ _ _ _ ended => by
    cases ended
    rfl
  errors := fun _ _ _ _ _ _ ended => by cases ended
  kept := fun _ _ _ _ _ _ => trivial

def boostSite : Site Unit Unit :=
  ⟨.interpreted boost
    (.create boost.key .interpreter (fun w => (.ok (), w)) 1 1 (.ofMilliseconds 1))
    (.initial .disabled none) true 0, .inMemory 0, ⟨.empty, ()⟩⟩

def boostCall : List (Traffic.Event Unit Unit) :=
  [.begin (.bare "d" .zero) [("boost", .f64 .zero), ("lang", .string "en")] 0,
    .finish 0 (.ofMilliseconds 1) 1]

theorem typed_calls_boost :
    boost.validate 1 =
      .ok ⟨["env.get_score"], [⟨"score", ⟨[.i64, .f64], [.f64]⟩⟩], true, 1⟩ ∧
    ((Traffic.ofSite boostSite).run scorer boostCall).results =
      [.ok ⟨[.f64 .zero], .interpreter, .ofMilliseconds 1⟩] ∧
    ∀ error, .error error ∈ ((Traffic.ofSite boostSite).run scorer boostCall).results →
      ¬ error.IsConversion := by
  have accepted : boost.validate 1 =
      .ok ⟨["env.get_score"], [⟨"score", ⟨[.i64, .f64], [.f64]⟩⟩], true, 1⟩ := by decide +kernel
  have holds : boostSite.module.Each (Pool.Holds fun _ => True) := by
    intro tier p hp
    cases tier with
    | native => cases hp
    | interpreter =>
        cases hp
        exact ⟨nofun, fun _ _ _ => trivial, nofun⟩
  have supplies : ∀ event ∈ boostCall, event.Supplies fun _ => True := by
    simp [boostCall, Traffic.Event.Supplies]
  obtain ⟨_, m, e, entry⟩ := entryFunction_of_validate accepted
  have safe := ((typed_calls_of_validate accepted).2 m e _ entry).2 scorer _ scorer_respects
    boostSite rfl holds boostCall supplies
  exact ⟨accepted, by decide +kernel, safe⟩

end Descriptor

end TieredUdf
