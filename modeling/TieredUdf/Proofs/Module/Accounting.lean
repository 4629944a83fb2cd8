import TieredUdf.Proofs.Host.Lookups
import TieredUdf.Proofs.Module.Isolation
import TieredUdf.Proofs.Module.Standing

/-! # What a call leaves in the books

A call of a module may end in many ways: refused by a draining module, with parameters that do not
bind, without an instance, with a trap, with results of the wrong types, or well.  Whichever it is,
it is counted once as a call and at most once as a failure and as an execution, its context is gone
and it is in flight no more.
-/

namespace TieredUdf

open Guest (Dialogue)
open Host (Registry)
open Text (Duration)

variable {β ω ι : Type}

/-! ## The counters -/

/-- What one call adds to the counters of its module, given its result and the tier of the
instance that was called, if any was. -/
structure ModuleStats.Accounts (before after : ModuleStats) (result : Except ExecError Invocation)
    (served : Option Tier) (now : Nat) : Prop where
  calls : after.calls = before.calls + 1
  errors : after.errors = before.errors + if result.isOk then 0 else 1
  lastError : after.lastError = match result with
    | .ok _ => before.lastError
    | .error e => some ⟨e.message, now⟩
  interpreter : after.interpreter.calls =
    before.interpreter.calls + if served = some .interpreter then 1 else 0
  native : after.native.calls = before.native.calls + if served = some .native then 1 else 0

theorem ModuleStats.accounts_rejection (s : ModuleStats) (e : ExecError) (now : Nat) :
    s.Accounts (s.recordRejection e.message now) (.error e) none now :=
  ⟨rfl, rfl, rfl, by simp [recordRejection, recordError], by simp [recordRejection, recordError]⟩

theorem ModuleStats.accounts_execution (s : ModuleStats) (tier : Tier) (elapsed : Duration)
    (reads : Nat) (values : Except ExecError (List Value)) (now : Nat) :
    s.Accounts (s.recordExecution tier elapsed reads (Site.errorText values) now)
      (values.map fun v => ⟨v, tier, elapsed⟩) (some tier) now := by
  cases values <;> cases tier <;>
    constructor <;>
      simp [recordExecution, recordOutcome, recordError, addTo, TierCounters.add, Site.errorText,
        Except.map, Except.isOk, Except.toBool]

theorem ModuleStats.recordExecution_fieldReads (s : ModuleStats) (tier : Tier)
    (elapsed : Duration) (reads : Nat) (error : Option String) (now : Nat) :
    (s.recordExecution tier elapsed reads error now).fieldReads =
      s.fieldReads + UInt64.ofNat reads := by
  cases tier <;> cases error <;> rfl

namespace LoadedModule

/-! ## What leaves the counters alone -/

def tally (m : LoadedModule ω ι) : ModuleStats × Nat := (m.stats, m.inFlight)

theorem Swaps.tally {m n : LoadedModule ω ι} (h : m.Swaps n) : n.tally = m.tally := by
  rw [h.rest]
  rfl

theorem finalize_tally (m : LoadedModule ω ι) (c : Cache) : (m.finalize c).2.1.tally = m.tally := by
  rw [finalize_module]
  split <;> rfl

/-- Whether or not the module is torn down when a call leaves, one call fewer is in flight. -/
theorem exit_tally (m : LoadedModule ω ι) (c : Cache) :
    (m.exit c).2.1.tally = (m.stats, m.inFlight - 1) := by
  unfold exit
  dsimp only
  split
  · exact finalize_tally _ c
  · rfl

end LoadedModule

/-- No attempt of a pool to make an instance registers a context or takes one away. -/
def Pool.Discreet (p : Pool (World β) ι) : Prop :=
  ∀ w : World β, w.host.contexts.Undisturbed (p.factory w).2.host.contexts

/-- Instances that come up in a dialogue with the host can do neither. -/
theorem Pool.Talks.discreet {P : Int64 → Prop} {p : Pool (World β) ι} (h : p.Talks P) :
    p.Discreet := by
  obtain ⟨make, made, _⟩ := h
  intro w
  rw [made]
  exact (make w.outside).undisturbed_run w.host

theorem Pool.Discreet.close (p : Pool (World β) ι) (h : p.Discreet) : p.close.1.Discreet := h

theorem Pool.Discreet.checkout {p : Pool (World β) ι} (h : p.Discreet) (w : World β) :
    w.host.contexts.Undisturbed (p.checkout w).2.2.host.contexts := by
  rcases p.checkout_surroundings w with same | attempt
  · rw [same]
    exact .refl _
  · rw [attempt]
    exact h w

namespace Site

/-! ## Entering -/

/-- A refused call is counted and has left, an admitted one is not counted yet. -/
def Counted (m : LoadedModule (World β) ι) (now : Nat) : Admission ι × Site β ι → Prop
  | (.refused e, t) => t.module.tally = (m.stats.recordRejection e.message now, m.inFlight - 1)
  | (.running _, t) => t.module.tally = m.tally ∧ t.module.descriptor = m.descriptor

/-- A refused call leaves no context behind, an admitted one a new one without lookups. -/
def Placed (contexts : Registry) : Admission ι × Site β ι → Prop
  | (.refused _, t) => contexts.Undisturbed t.world.host.contexts
  | (.running call, t) => ∃ r c, contexts.Undisturbed r ∧ c.fieldReads = 0 ∧
      call.context = r.nextId ∧ t.world.host.contexts = (r.register c).1

theorem Steady.counted {m : LoadedModule (World β) ι} {c : Cache} {now : Nat}
    {r : Admission ι × Site β ι} (h : Steady m c now r) : Counted m now r := by
  obtain ⟨e | call, t⟩ := r
  · obtain ⟨n, swaps, left⟩ := h
    have same := congrArg Prod.fst left
    dsimp only at same
    dsimp only [Counted]
    rw [same, LoadedModule.exit_tally, swaps.rest]
    rfl
  · exact ⟨h.1.tally, h.1.descriptor⟩

theorem counted_enter (s : Site β ι) (document : Document) (args : Arguments) (now : Nat) :
    Counted s.module.arrive now (s.enter document args now) :=
  (s.steady_enter document args now).counted

theorem undisturbed_checkoutFrom (s : Site β ι) (discreet : s.module.Each Pool.Discreet)
    (tier : Tier) :
    s.world.host.contexts.Undisturbed (s.checkoutFrom tier).2.world.host.contexts := by
  cases hp : s.module.pool? tier with
  | none =>
      rw [checkoutFrom, hp]
      exact .refl _
  | some p =>
      rw [checkoutFrom_of_pool hp]
      exact (discreet tier p hp).checkout s.world

theorem discreet_checkoutFrom (s : Site β ι) (discreet : s.module.Each Pool.Discreet)
    (tier : Tier) : (s.checkoutFrom tier).2.module.Each Pool.Discreet := by
  cases hp : s.module.pool? tier with
  | none =>
      rw [checkoutFrom, hp]
      exact discreet
  | some p =>
      rw [checkoutFrom_of_pool hp]
      refine discreet.setPool tier fun w => ?_
      rw [(p.follows_asked.trans (p.checkout_answers s.world).follows).factory]
      exact discreet tier p hp w

theorem placed_start {contexts : Registry} (s : Site β ι)
    (h : contexts.Undisturbed s.world.host.contexts) (tier : Tier) (m : Member ι)
    (bound : BoundCall) (document : Document) :
    Placed contexts (s.start tier m bound document) :=
  ⟨s.world.host.contexts, .ofDocument document bound.texts, h, rfl, rfl, rfl⟩

theorem placed_afterCheckout {contexts : Registry} (s : Site β ι)
    (discreet : s.module.Each Pool.Discreet) (h : contexts.Undisturbed s.world.host.contexts)
    (tier : Tier) (result : Except ExecError (Member ι)) (bound : BoundCall)
    (document : Document) (now : Nat) :
    Placed contexts (s.afterCheckout tier result bound document now) := by
  cases result with
  | ok m => exact s.placed_start h tier m bound document
  | error e =>
      unfold afterCheckout
      dsimp only
      split
      · have same := h.trans (s.undisturbed_checkoutFrom discreet .native)
        revert same
        rcases s.checkoutFrom .native with ⟨e | m, r⟩ <;> intro same
        · exact same
        · exact r.placed_start same .native m bound document
      · exact h

theorem placed_enter (s : Site β ι) (discreet : s.module.Each Pool.Discreet)
    (document : Document) (args : Arguments) (now : Nat) :
    Placed s.world.host.contexts (s.enter document args now) := by
  have arrived : s.module.arrive.Each Pool.Discreet :=
    discreet.closes Pool.Discreet.close s.module.closes_arrive
  rw [enter_eq]
  dsimp only
  split
  · exact .refl _
  · split
    · exact .refl _
    · unfold lendLive
      dsimp only
      split
      · exact .refl _
      · rename_i tier _
        exact placed_afterCheckout _
          (discreet_checkoutFrom { s with module := s.module.arrive } arrived tier)
          (undisturbed_checkoutFrom { s with module := s.module.arrive } arrived tier)
          tier _ _ document now

/-! ## Ending -/

theorem endCall_tally (s : Site β ι) (call : RunningCall ι) (raw : Except ExecError (List Scalar))
    (body : ι) (elapsed : Duration) (now : Nat) :
    (s.endCall call raw body elapsed now).2.module.tally =
      (s.module.stats.recordExecution call.tier elapsed (s.readsOf call)
        (errorText (raw.bind (Descriptor.convertResults s.module.descriptor.returns))) now,
        s.module.inFlight - 1) := by
  obtain ⟨n, swaps, left⟩ := s.endCall_exit call raw body elapsed now
  have same := congrArg Prod.fst left
  dsimp only at same
  rw [same, LoadedModule.exit_tally, swaps.rest]

theorem endCall_contexts (s : Site β ι) (call : RunningCall ι)
    (raw : Except ExecError (List Scalar)) (body : ι) (elapsed : Duration) (now : Nat) :
    (s.endCall call raw body elapsed now).2.world.host.contexts =
      s.world.host.contexts.remove call.context := by
  unfold endCall
  dsimp only
  rw [(swaps_giveBack _ _ _).2.2]

/-! ## Whole calls -/

/-- The call that reaches an instance, with the host as its guest finds it. -/
def reached (s : Site β ι) (document : Document) (args : Arguments) (now : Nat) :
    Option (RunningCall ι × Host.State) :=
  match s.enter document args now with
  | (.refused _, _) => none
  | (.running call, s) => some (call, s.world.host)

/-- The tier of the instance that is called. -/
def served (s : Site β ι) (document : Document) (args : Arguments) (now : Nat) : Option Tier :=
  (s.reached document args now).map fun r => r.1.tier

/-- How often the guest of a call looks a field up under its own identifier. -/
def reads (caller : Caller ι) (s : Site β ι) (document : Document) (args : Arguments)
    (now : Nat) : Nat :=
  match s.reached document args now with
  | none => 0
  | some (call, host) =>
      (caller call.lease.member.body call.arguments).lookups call.context host

/-- Whatever becomes of a call, it is counted as it ended, and it is in flight no more; its result
is that of the instance that was called, if one was. -/
theorem invoke_counts (caller : Caller ι) (s : Site β ι) (document : Document) (args : Arguments)
    (elapsed : Duration) (now : Nat) :
    s.module.stats.Accounts (s.invoke caller document args elapsed now).2.module.stats
        (s.invoke caller document args elapsed now).1 (s.served document args now) now ∧
      (s.invoke caller document args elapsed now).2.module.inFlight = s.module.inFlight := by
  have counted := s.counted_enter document args now
  rw [invoke_eq]
  unfold served reached
  revert counted
  rcases s.enter document args now with ⟨e | call, t⟩ <;> intro counted
  · have stats := congrArg Prod.fst counted
    have inFlight := congrArg Prod.snd counted
    refine ⟨?_, inFlight⟩
    dsimp only [LoadedModule.tally] at stats
    dsimp only
    rw [stats]
    exact s.module.stats.accounts_rejection e now
  · have stats := congrArg Prod.fst counted.1
    have inFlight := congrArg Prod.snd counted.1
    dsimp only [LoadedModule.tally, LoadedModule.arrive] at stats inFlight
    dsimp only [finish]
    have ended := endCall_tally
      { t with
        world := { t.world with
          host := ((caller call.lease.member.body call.arguments).run t.world.host).1 } }
      call ((caller call.lease.member.body call.arguments).run t.world.host).2.1
      ((caller call.lease.member.body call.arguments).run t.world.host).2.2 elapsed now
    have after := congrArg Prod.fst ended
    have left := congrArg Prod.snd ended
    dsimp only [LoadedModule.tally] at after left
    refine ⟨?_, by rw [left, inFlight, Nat.add_sub_cancel]⟩
    rw [after, stats, endCall_result]
    exact ModuleStats.accounts_execution _ _ _ _ _ now

theorem invoke_of_unreached (caller : Caller ι) {s : Site β ι} {document : Document}
    {args : Arguments} {now : Nat} (unreached : s.reached document args now = none)
    (elapsed : Duration) : ∃ e, (s.invoke caller document args elapsed now).1 = .error e := by
  rw [invoke_eq]
  revert unreached
  unfold reached
  rcases s.enter document args now with ⟨e | call, t⟩ <;> intro unreached
  · exact ⟨e, rfl⟩
  · cases unreached

/-- A call that reaches an instance ends as that instance does, and its context is gone. -/
theorem invoke_of_reached (caller : Caller ι) {s : Site β ι} {document : Document}
    {args : Arguments} {now : Nat} {call : RunningCall ι} {host : Host.State}
    (enters : s.reached document args now = some (call, host)) (elapsed : Duration) :
    (s.invoke caller document args elapsed now).1 =
        (((caller call.lease.member.body call.arguments).run host).2.1.bind
          (Descriptor.convertResults s.module.descriptor.returns)).map
            (fun values => ⟨values, call.tier, elapsed⟩) ∧
      (s.invoke caller document args elapsed now).2.world.host.contexts.get? call.context =
        none := by
  have counted := s.counted_enter document args now
  rw [invoke_eq]
  revert enters counted
  unfold reached
  rcases s.enter document args now with ⟨e | call, t⟩ <;> intro enters counted <;> cases enters
  dsimp only
  constructor
  · rw [finish_result, counted.2]
    rfl
  · rw [finish, endCall_contexts]
    exact Registry.get?_remove _ _

/-- The lookups of a call are those that its guest made under its own identifier, and afterwards
the same contexts are registered as before. -/
theorem invoke_contexts (caller : Caller ι) {s : Site β ι}
    (discreet : s.module.Each Pool.Discreet) (numbered : s.world.host.contexts.Numbered)
    (document : Document) (args : Arguments) (elapsed : Duration) (now : Nat) :
    (s.invoke caller document args elapsed now).2.module.stats.fieldReads =
        s.module.stats.fieldReads + UInt64.ofNat (s.reads caller document args now) ∧
      s.world.host.contexts.Undisturbed
        (s.invoke caller document args elapsed now).2.world.host.contexts := by
  have counted := s.counted_enter document args now
  have placed := s.placed_enter discreet document args now
  rw [invoke_eq]
  unfold reads reached
  revert counted placed
  rcases s.enter document args now with ⟨e | call, t⟩ <;> intro counted placed
  · have stats := congrArg Prod.fst counted
    dsimp only [LoadedModule.tally] at stats
    refine ⟨?_, placed⟩
    dsimp only
    rw [stats]
    exact (UInt64.add_zero _).symm
  · obtain ⟨r, c, same, fresh, own, registered⟩ := placed
    have stats := congrArg Prod.fst counted.1
    dsimp only [LoadedModule.tally, LoadedModule.arrive] at stats
    have numbers := numbered.undisturbed same
    let guest := caller call.lease.member.body call.arguments
    let ran : Site β ι := { t with world := { t.world with host := (guest.run t.world.host).1 } }
    have counts : ran.readsOf call = guest.lookups call.context t.world.host := by
      have mine : t.world.host.contexts.get? call.context = some c := by
        rw [registered, own, Registry.get?_register, numbers.fresh (Nat.le_refl _)]
        simp
      rw [readsOf, guest.get?_run, mine]
      simp [Dialogue.advance, fresh]
    have ended := congrArg Prod.fst (endCall_tally ran call (guest.run t.world.host).2.1
      (guest.run t.world.host).2.2 elapsed now)
    dsimp only [LoadedModule.tally] at ended
    dsimp only [finish]
    constructor
    · rw [ended, ModuleStats.recordExecution_fieldReads, counts, stats]
    · have outlasts : (r.register c).1.Undisturbed (guest.run t.world.host).1.contexts := by
        rw [← registered]
        exact guest.undisturbed_run t.world.host
      rw [endCall_contexts, own]
      exact same.trans (Registry.undisturbed_remove_register numbers c outlasts)

/-- A call whose parameters do not bind changes nothing but the counters of its module. -/
theorem invoke_of_bind_error (caller : Caller ι) {s : Site β ι} {args : Arguments} {e : ExecError}
    (admits : s.module.draining = false) (refuses : s.module.descriptor.bind args = .error e)
    (document : Document) (elapsed : Duration) (now : Nat) :
    s.invoke caller document args elapsed now = (.error e,
      { s with
        module := { s.module with
          stats := s.module.stats.recordRejection e.message now } }) := by
  have arrived : s.module.arrive.draining = false := admits
  have unbound : s.module.arrive.descriptor.bind args = .error e := refuses
  have leaves := LoadedModule.exit_of_not_draining
    (m := s.module.arrive.recordRejection e now) admits s.cache
  rw [invoke_eq, enter_eq]
  simp only [arrived, unbound, refuse, leaves]
  rfl

/-- Whatever state a module is in, and whatever its factories and instances do, a call is counted
once: as a call, as a failure exactly when it fails, and on the tier of the instance exactly when
one is called.  It is in flight no more and its context is gone.  Its lookups are added exactly and
the registered contexts are the same as before, while factories themselves leave these alone; and
a call whose parameters do not bind has touched no pool.  Counters have 64 bits and wrap around. -/
theorem invoke_accounted (caller : Caller ι) (s : Site β ι) (document : Document)
    (args : Arguments) (elapsed : Duration) (now : Nat) :
    let ended := s.invoke caller document args elapsed now
    s.module.stats.Accounts ended.2.module.stats ended.1 (s.served document args now) now ∧
    ended.2.module.inFlight = s.module.inFlight ∧
    (s.reached document args now = none → ∃ e, ended.1 = .error e) ∧
    (∀ call host, s.reached document args now = some (call, host) →
      ended.1 = (((caller call.lease.member.body call.arguments).run host).2.1.bind
        (Descriptor.convertResults s.module.descriptor.returns)).map
          (fun values => ⟨values, call.tier, elapsed⟩) ∧
      ended.2.world.host.contexts.get? call.context = none) ∧
    (s.module.Each Pool.Discreet → s.world.host.contexts.Numbered →
      ended.2.module.stats.fieldReads =
          s.module.stats.fieldReads + UInt64.ofNat (s.reads caller document args now) ∧
        ended.2.world.host.contexts.listing = s.world.host.contexts.listing ∧
        ended.2.world.host.contexts.Numbered) ∧
    ∀ e, s.module.draining = false → s.module.descriptor.bind args = .error e →
      ended.1 = .error e ∧ (∀ tier, ended.2.module.pool? tier = s.module.pool? tier) ∧
        ended.2.world = s.world := by
  intro ended
  obtain ⟨counts, left⟩ := s.invoke_counts caller document args elapsed now
  refine ⟨counts, left, ?_, ?_, fun discreet numbered => ?_, fun e admits refuses => ?_⟩
  · intro unreached
    exact invoke_of_unreached caller unreached elapsed
  · intro call host enters
    exact invoke_of_reached caller enters elapsed
  · obtain ⟨reads, contexts⟩ :=
      invoke_contexts caller discreet numbered document args elapsed now
    exact ⟨reads, contexts.listing, numbered.undisturbed contexts⟩
  · have same := invoke_of_bind_error caller admits refuses document elapsed now
    refine ⟨congrArg Prod.fst same, fun tier => ?_, congrArg (fun r => r.2.world) same⟩
    dsimp only [ended]
    rw [same]
    cases tier <;> rfl

/-! ## A call that looks fields up and fails -/

/-- A guest that looks a field up twice under its own identifier, once under the first one and
once without a readable name, and then traps. -/
def searching : Caller Unit := fun _ args =>
  let own := Descriptor.contextOf args
  let memory := some (Guest.Memory.zeros 8)
  .ask (.hasField own ⟨0, 0⟩) memory fun _ _ =>
  .ask (.getFieldF64 1 ⟨0, 0⟩) memory fun _ _ =>
  .ask (.getFieldI64 own ⟨0, 9⟩) memory fun _ _ =>
  .ask (.getFieldString own ⟨0, 0⟩ ⟨0, 8⟩) memory fun _ _ =>
  .done (.error (.trap .unreachable "stopped"), ())

theorem discreet_busy : busy.module.Each Pool.Discreet :=
  fun tier p hp => (talks_withFlights (P := fun _ => True) _ tier p hp).discreet

theorem numbered_busy : busy.world.host.contexts.Numbered := by
  intro e he
  cases List.mem_singleton.mp he
  decide

/-- Of four lookups two are the call's own; a call with a parameter that is not declared is
counted as well. -/
theorem invoke_accounted_searching :
    let ended := busy.invoke searching (.bare "d" .zero) boosted (.ofMilliseconds 1) 5
    let unbound := busy.invoke searching (.bare "d" .zero) [("bust", .bool true)]
      (.ofMilliseconds 1) 6
    (busy.module.Each Pool.Discreet ∧ busy.world.host.contexts.Numbered) ∧
    (ended.2.module.stats.calls = 1 ∧ ended.2.module.stats.errors = 1 ∧
      ended.2.module.stats.interpreter.calls = 1 ∧ ended.2.module.stats.native.calls = 0 ∧
      ended.2.module.stats.fieldReads = 2 ∧ ended.2.module.inFlight = 0 ∧
      ended.2.world.host.contexts.listing = busy.world.host.contexts.listing) ∧
    (busy.module.draining = false ∧
      busy.module.descriptor.bind [("bust", .bool true)] = .error (.unknownParameter "bust")) ∧
    unbound.1 = .error (.unknownParameter "bust") ∧
    ∀ tier, unbound.2.module.pool? tier = busy.module.pool? tier := by
  intro ended unbound
  have one : busy.served (.bare "d" .zero) boosted 5 = some .interpreter := rfl
  have failed : ended.1.isOk = false := by decide +kernel
  have own : busy.reads searching (.bare "d" .zero) boosted 5 = 2 := by decide +kernel
  have refuses : busy.module.descriptor.bind [("bust", .bool true)] =
      .error (.unknownParameter "bust") := by decide +kernel
  obtain ⟨counts, left, _, _, exact, _⟩ :=
    invoke_accounted searching busy (.bare "d" .zero) boosted (.ofMilliseconds 1) 5
  obtain ⟨reads, listing, _⟩ := exact discreet_busy numbered_busy
  obtain ⟨_, _, _, _, _, untouched⟩ :=
    invoke_accounted searching busy (.bare "d" .zero) [("bust", .bool true)] (.ofMilliseconds 1) 6
  obtain ⟨refused, pools, _⟩ := untouched _ rfl refuses
  refine ⟨⟨discreet_busy, numbered_busy⟩, ⟨counts.calls, ?_, ?_, ?_, ?_, left, listing⟩,
    ⟨rfl, refuses⟩, refused, pools⟩
  · have errors := counts.errors
    rw [failed] at errors
    exact errors
  · have interpreter := counts.interpreter
    rw [one] at interpreter
    exact interpreter
  · have native := counts.native
    rw [one] at native
    exact native
  · rw [own] at reads
    exact reads

end Site

end TieredUdf
