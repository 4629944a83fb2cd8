import TieredUdf.Module.Invocation
import TieredUdf.Proofs.Module.Pools
import TieredUdf.Proofs.Tier.PoolStep

/-! # How a call enters a module

A call that waits for an instance while nobody brings one back takes the same way as one that is
answered at once, so that entering is one checkout from the pool of the live tier, and perhaps a
second one from the native pool.
-/

namespace TieredUdf

variable {β ι : Type}

namespace Site

/-! ## Checkouts -/

/-- A checkout leaves behind what its answer says, in the pool and in the surroundings. -/
theorem checkoutFrom_of_pool {s : Site β ι} {tier : Tier} {p : Pool (World β) ι}
    (h : s.module.pool? tier = some p) :
    s.checkoutFrom tier = ((p.checkout s.world).1,
      { s with
        module := s.module.setPool tier (p.checkout s.world).2.1
        world := (p.checkout s.world).2.2 }) := by
  simp [checkoutFrom, h]

theorem start_admission (s : Site β ι) (tier : Tier) (m : Member ι) (bound : BoundCall)
    (document : Document) :
    (s.start tier m bound document).1 =
      .running ⟨tier, .ofMember m, s.world.host.contexts.nextId,
        bound.arguments (Host.Registry.guestId s.world.host.contexts.nextId)⟩ := rfl

/-! ## Entering in one piece -/

def takeUp (document : Document) (now : Nat) : CallStage ι × Site β ι → Admission ι × Site β ι
  | (.decided admission, s) => (admission, s)
  | (.waiting tier bound, s) => s.resumeCall tier bound document now

theorem enter_eq_takeUp (s : Site β ι) (document : Document) (args : Arguments) (now : Nat) :
    s.enter document args now = takeUp document now (s.beginCall document args now) := by
  unfold enter takeUp
  split <;> simp [*]

@[simp] theorem takeUp_decided (document : Document) (now : Nat) (r : Admission ι × Site β ι) :
    takeUp document now (decided r) = r := rfl

/-- A request for an instance of the live tier, answered at once or after a wait. -/
def lendLive (s : Site β ι) (bound : BoundCall) (document : Document) (now : Nat) :
    Admission ι × Site β ι :=
  match s.module.liveTier? with
  | none => s.refuse (noLiveTier s.module) now
  | some tier =>
      (s.checkoutFrom tier).2.afterCheckout tier (s.checkoutFrom tier).1 bound document now

theorem takeUp_obtain (s : Site β ι) (bound : BoundCall) (document : Document) (now : Nat) :
    takeUp document now (s.obtain bound document now) = s.lendLive bound document now := by
  unfold obtain lendLive
  cases s.module.liveTier? with
  | none => rfl
  | some tier =>
      dsimp only
      cases hp : s.module.pool? tier with
      | none => simp [checkoutFrom, hp, afterCheckout, wasRetired, noLiveTier]
      | some p =>
          rw [checkoutFrom_of_pool hp]
          dsimp only
          rcases p.beginCheckout_cases s.world with ⟨result, q, after, hb, _⟩ | ⟨hb, _, _⟩
          · simp [Pool.checkout, hb]
          · simp [Pool.checkout, hb, takeUp, resumeCall]

/-- A call is refused by a draining module or because its parameters do not bind; otherwise an
instance is asked for. -/
theorem enter_eq (s : Site β ι) (document : Document) (args : Arguments) (now : Nat) :
    s.enter document args now =
      let s := { s with module := s.module.arrive }
      if s.module.draining then s.refuse (.draining s.module.key) now
      else match s.module.descriptor.bind args with
        | .error e => s.refuse e now
        | .ok bound => s.lendLive bound document now := by
  rw [enter_eq_takeUp]
  unfold beginCall
  dsimp only
  split
  · rfl
  · cases s.module.arrive.descriptor.bind args with
    | error e => rfl
    | ok bound => exact takeUp_obtain _ bound document now

/-! ## The end of a call -/

theorem giveBack_module (s : Site β ι) (world : World β) (tier : Tier) (l : Lease ι) :
    ({ s with world := world }.giveBack tier l).module = (s.giveBack tier l).module := by
  unfold giveBack
  dsimp only
  cases s.module.pool? tier <;> rfl

/-- Ending a call closes at most what giving its instance back has left. -/
theorem closes_endCall (s : Site β ι) (call : RunningCall ι)
    (raw : Except ExecError (List Scalar)) (body : ι) (elapsed : Text.Duration) (now : Nat) :
    (s.giveBack call.tier (call.lease.afterCall raw body)).module.Closes
      (s.endCall call raw body elapsed now).2.module := by
  rw [← s.giveBack_module { s.world with
    host := { s.world.host with contexts := s.world.host.contexts.remove call.context } }]
  exact (LoadedModule.closes_withStats _ _).trans (LoadedModule.closes_exit _ _)

theorem endCall_result (s : Site β ι) (call : RunningCall ι)
    (raw : Except ExecError (List Scalar)) (body : ι) (elapsed : Text.Duration) (now : Nat) :
    (s.endCall call raw body elapsed now).1 =
      (raw.bind (Descriptor.convertResults s.module.descriptor.returns)).map
        fun values => ⟨values, call.tier, elapsed⟩ := by
  unfold endCall giveBack
  dsimp only
  cases s.module.pool? call.tier with
  | none => rfl
  | some p =>
      dsimp only
      rw [LoadedModule.setPool_descriptor]

/-! ## A whole call -/

def finish (caller : Caller ι) (s : Site β ι) (call : RunningCall ι) (elapsed : Text.Duration)
    (now : Nat) : Except ExecError Invocation × Site β ι :=
  let ran := (caller call.lease.member.body call.arguments).run s.world.host
  { s with world := { s.world with host := ran.1 } }.endCall call ran.2.1 ran.2.2 elapsed now

theorem invoke_eq (caller : Caller ι) (s : Site β ι) (document : Document) (args : Arguments)
    (elapsed : Text.Duration) (now : Nat) :
    s.invoke caller document args elapsed now =
      match s.enter document args now with
      | (.refused e, s) => (.error e, s)
      | (.running call, s) => s.finish caller call elapsed now := rfl

end Site

end TieredUdf
