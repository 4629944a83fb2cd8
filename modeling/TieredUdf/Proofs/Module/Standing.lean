import TieredUdf.Proofs.Module.Entering

/-! # What calls leave alone

A call changes the pools of its module and its counters, and nothing else as long as the module
does not drain.  What is left is where the module stands: whether it is torn down, whether it has
native code, and whether it holds a reference to its artifact.
-/

namespace TieredUdf

open Text (Duration)

variable {β ω ι : Type}

namespace LoadedModule

/-! ## Pools that are exchanged -/

/-- One module comes from another by changes of the pools that it has. -/
structure Swaps (m n : LoadedModule ω ι) : Prop where
  rest : n = { m with interpreter := n.interpreter, native := n.native }
  interpreter : n.interpreter.isSome = m.interpreter.isSome
  native : n.native.isSome = m.native.isSome

variable {m n : LoadedModule ω ι}

theorem Swaps.refl (m : LoadedModule ω ι) : m.Swaps m := ⟨rfl, rfl, rfl⟩

theorem Swaps.trans {o : LoadedModule ω ι} (h : m.Swaps n) (k : n.Swaps o) : m.Swaps o := by
  refine ⟨?_, k.interpreter.trans h.interpreter, k.native.trans h.native⟩
  rw [k.rest, h.rest]

theorem Swaps.descriptor (h : m.Swaps n) : n.descriptor = m.descriptor := by
  rw [h.rest]

theorem swaps_setPool {tier : Tier} {p : Pool ω ι} (h : m.pool? tier = some p) (q : Pool ω ι) :
    m.Swaps (m.setPool tier q) := by
  cases tier with
  | interpreter => exact ⟨rfl, (congrArg Option.isSome h).symm, rfl⟩
  | native => exact ⟨rfl, rfl, (congrArg Option.isSome h).symm⟩

/-! ## Where a module stands -/

/-- What is known of a module without its pools and its counters. -/
structure Standing where
  hash : ContentHash
  draining : Bool
  finalized : Bool
  inFlight : Nat
  holdsReference : Bool
  native : Bool
  deriving DecidableEq, Repr

def standing (m : LoadedModule ω ι) : Standing :=
  ⟨m.hash, m.draining, m.finalized, m.inFlight, m.holdsReference, m.native.isSome⟩

theorem Swaps.standing (h : m.Swaps n) : n.standing = m.standing := by
  have native := h.native
  rw [h.rest]
  simp [LoadedModule.standing, hash, native]

theorem exit_of_not_draining (h : m.draining = false) (c : Cache) : m.exit c = (false, m.leave.1, c) := by
  simp [exit, leave, h]

/-- What a teardown makes of a module, if it was not torn down before. -/
theorem finalize_module (m : LoadedModule ω ι) (c : Cache) :
    (m.finalize c).2.1 = if m.finalized then m else { m with
      interpreter := m.interpreter.map fun p => p.close.1
      native := m.native.map fun p => p.close.1
      finalized := true
      holdsReference := false
      settled := true } := by
  unfold finalize releaseReference
  cases m.finalized with
  | true => rfl
  | false => cases m.holdsReference <;> simp [closeInterpreter, closeNative, settle]

theorem finalize_of_finalized (h : m.finalized = true) (c : Cache) :
    m.finalize c = (false, m, c) := by
  rw [finalize, if_pos h]

@[simp] theorem finalize_finalized (m : LoadedModule ω ι) (c : Cache) :
    (m.finalize c).2.1.finalized = true := by
  rw [finalize_module]
  split
  · assumption
  · rfl

@[simp] theorem finalize_draining (m : LoadedModule ω ι) (c : Cache) :
    (m.finalize c).2.1.draining = m.draining := by
  rw [finalize_module]
  split <;> rfl

@[simp] theorem finalize_inFlight (m : LoadedModule ω ι) (c : Cache) :
    (m.finalize c).2.1.inFlight = m.inFlight := by
  rw [finalize_module]
  split <;> rfl

/-- A module that is torn down gives its reference back, and nothing else happens to the cache. -/
theorem finalize_standing (h : m.finalized = false) (c : Cache) :
    (m.finalize c).2.1.standing = { m.standing with finalized := true, holdsReference := false } ∧
      (m.finalize c).2.2 = if m.holdsReference then c.release m.hash else c := by
  constructor
  · rw [finalize_module, h]
    simp [standing, hash]
  · cases holds : m.holdsReference <;>
      simp [finalize, h, releaseReference, closeInterpreter, closeNative, hash, holds]

theorem beginDrain_standing (idle : m.inFlight = 0) (h : m.finalized = false) (c : Cache) :
    (m.beginDrain c).2.1.standing = { m.standing with
        draining := true
        finalized := true
        holdsReference := false } ∧
      (m.beginDrain c).2.2 = if m.holdsReference then c.release m.hash else c := by
  have draining : m.startDraining.inFlight = 0 := idle
  unfold beginDrain
  dsimp only
  rw [if_pos draining]
  exact finalize_standing (m := m.startDraining) h c

/-- Native code where there was none.  A module that is torn down gives the reference back that
comes with it. -/
theorem installNative_standing (interpreted : m.native = none) (p : Pool ω ι) (reference : Bool)
    (c : Cache) :
    (m.installNative p reference c).2.1.standing = { m.standing with
        holdsReference := !m.finalized && (reference || m.holdsReference)
        native := true } ∧
      (m.installNative p reference c).2.2 =
        if m.finalized && (reference || m.holdsReference) then c.release m.hash else c := by
  cases finalized : m.finalized <;> cases reference <;> cases holds : m.holdsReference <;>
    simp [installNative, setNative, interpreted, publishNative, closeInterpreter,
      closeIfFinalized, closeNative, releaseReference, finalized, holds, standing, hash]

end LoadedModule

namespace Site

/-! ## Calls -/

/-- Where a call stands that has entered a module: its module has changed in its pools only, and a
call that is refused has been counted and has left again. -/
def Steady (m : LoadedModule (World β) ι) (c : Cache) (now : Nat) :
    Admission ι × Site β ι → Prop
  | (.refused e, t) => ∃ n, m.Swaps n ∧ (t.module, t.cache) = ((n.recordRejection e now).exit c).2
  | (.running _, t) => m.Swaps t.module ∧ t.cache = c

theorem Steady.swaps {m n : LoadedModule (World β) ι} {c : Cache} {now : Nat}
    {r : Admission ι × Site β ι} (h : Steady n c now r) (swaps : m.Swaps n) :
    Steady m c now r := by
  obtain ⟨e | call, t⟩ := r
  · obtain ⟨o, more, left⟩ := h
    exact ⟨o, swaps.trans more, left⟩
  · exact ⟨swaps.trans h.1, h.2⟩

theorem steady_refuse (s : Site β ι) (e : ExecError) (now : Nat) :
    Steady s.module s.cache now (s.refuse e now) :=
  ⟨s.module, .refl _, rfl⟩

theorem swaps_checkoutFrom (s : Site β ι) (tier : Tier) :
    s.module.Swaps (s.checkoutFrom tier).2.module ∧ (s.checkoutFrom tier).2.cache = s.cache := by
  cases hp : s.module.pool? tier with
  | none =>
      rw [checkoutFrom, hp]
      exact ⟨.refl _, rfl⟩
  | some p =>
      rw [checkoutFrom_of_pool hp]
      exact ⟨LoadedModule.swaps_setPool hp _, rfl⟩

theorem steady_afterCheckout (s : Site β ι) (tier : Tier)
    (result : Except ExecError (Member ι)) (bound : BoundCall) (document : Document) (now : Nat) :
    Steady s.module s.cache now (s.afterCheckout tier result bound document now) := by
  cases result with
  | ok m => exact ⟨.refl _, rfl⟩
  | error e =>
      unfold afterCheckout
      dsimp only
      split
      · have same := s.swaps_checkoutFrom .native
        revert same
        rcases s.checkoutFrom .native with ⟨e | m, r⟩ <;> intro same
        · have refused := r.steady_refuse e now
          rw [same.2] at refused
          exact refused.swaps same.1
        · exact same
      · exact s.steady_refuse e now

theorem steady_enter (s : Site β ι) (document : Document) (args : Arguments) (now : Nat) :
    Steady s.module.arrive s.cache now (s.enter document args now) := by
  let arrived : Site β ι := { s with module := s.module.arrive }
  rw [enter_eq]
  dsimp only
  split
  · exact arrived.steady_refuse _ now
  · split
    · exact arrived.steady_refuse _ now
    · unfold lendLive
      dsimp only
      split
      · exact arrived.steady_refuse _ now
      · rename_i bound _ _ tier _
        obtain ⟨swaps, same⟩ := arrived.swaps_checkoutFrom tier
        have after := (arrived.checkoutFrom tier).2.steady_afterCheckout tier
          (arrived.checkoutFrom tier).1 bound document now
        rw [same] at after
        exact after.swaps swaps

theorem swaps_giveBack (s : Site β ι) (tier : Tier) (l : Lease ι) :
    s.module.Swaps (s.giveBack tier l).module ∧ (s.giveBack tier l).cache = s.cache ∧
      (s.giveBack tier l).world = s.world := by
  unfold giveBack
  split
  · exact ⟨.refl _, rfl, rfl⟩
  · rename_i hp
    exact ⟨LoadedModule.swaps_setPool hp _, rfl, rfl⟩

def readsOf (s : Site β ι) (call : RunningCall ι) : Nat :=
  ((s.world.host.contexts.get? call.context).map Host.CallContext.fieldReads).getD 0

/-- A call that ends is recorded and leaves; its module has changed in its pools only. -/
theorem endCall_exit (s : Site β ι) (call : RunningCall ι) (raw : Except ExecError (List Scalar))
    (body : ι) (elapsed : Duration) (now : Nat) :
    ∃ n, s.module.Swaps n ∧
      ((s.endCall call raw body elapsed now).2.module,
          (s.endCall call raw body elapsed now).2.cache) =
        (LoadedModule.exit { n with
          stats := s.module.stats.recordExecution call.tier elapsed (s.readsOf call)
            (errorText (raw.bind (Descriptor.convertResults s.module.descriptor.returns))) now }
          s.cache).2 := by
  let ran : Site β ι := { s with
    world := { s.world with
      host := { s.world.host with contexts := s.world.host.contexts.remove call.context } } }
  obtain ⟨swaps, same, _⟩ := ran.swaps_giveBack call.tier (call.lease.afterCall raw body)
  refine ⟨_, swaps, ?_⟩
  have stats : (ran.giveBack call.tier (call.lease.afterCall raw body)).module.stats =
    s.module.stats := by rw [swaps.rest]
  have descriptor : (ran.giveBack call.tier (call.lease.afterCall raw body)).module.descriptor =
    s.module.descriptor := swaps.descriptor
  rw [← descriptor, ← stats]
  unfold endCall
  dsimp only
  rw [same]
  rfl

/-- A call of a module that does not drain leaves the module where it stands, and it does not
touch the cache. -/
theorem invoke_standing (caller : Caller ι) {s : Site β ι} (admits : s.module.draining = false)
    (document : Document) (args : Arguments) (elapsed : Duration) (now : Nat) :
    (s.invoke caller document args elapsed now).2.module.standing = s.module.standing ∧
      (s.invoke caller document args elapsed now).2.cache = s.cache := by
  have leaves : ∀ {n m : LoadedModule (World β) ι} {c d : Cache},
      (m, d) = (n.exit c).2 → n.standing = s.module.arrive.standing →
      m.standing = s.module.standing ∧ d = c := by
    intro n m c d left same
    have draining : n.draining = false :=
      (congrArg LoadedModule.Standing.draining same).trans admits
    rw [LoadedModule.exit_of_not_draining draining, Prod.mk.injEq] at left
    obtain ⟨rfl, rfl⟩ := left
    have stands : n.leave.1.standing =
      { n.standing with inFlight := n.standing.inFlight - 1 } := rfl
    rw [stands, same]
    exact ⟨rfl, rfl⟩
  have entered := s.steady_enter document args now
  rw [invoke_eq]
  revert entered
  rcases s.enter document args now with ⟨e | call, t⟩ <;> intro entered
  · obtain ⟨n, swaps, left⟩ := entered
    exact leaves left swaps.standing
  · obtain ⟨swaps, same⟩ := entered
    obtain ⟨n, more, left⟩ := endCall_exit
      { t with
        world := { t.world with
          host := ((caller call.lease.member.body call.arguments).run t.world.host).1 } }
      call ((caller call.lease.member.body call.arguments).run t.world.host).2.1
      ((caller call.lease.member.body call.arguments).run t.world.host).2.2 elapsed now
    obtain ⟨stands, kept⟩ := leaves left (swaps.trans more).standing
    exact ⟨stands, kept.trans same⟩

end Site

end TieredUdf
