import TieredUdf.Proofs.Guest.Confinement
import TieredUdf.Proofs.Module.CallTypes
import TieredUdf.Wasm.Tier

/-! # What calls take over from factories

A call uses the pools of its module, but no pool gets another factory by it.  A call of a loaded
module also never says that the module is not there: only an instance or a factory of its own
could, and those of WebAssembly do not.
-/

namespace TieredUdf

open Text (Duration)

variable {β ω ι : Type}

/-! ## Pools that are used -/

namespace LoadedModule

/-- Every pool of a module comes after the one that another module has in its place. -/
def Uses (m n : LoadedModule ω ι) : Prop :=
  ∀ tier q, n.pool? tier = some q → ∃ p, m.pool? tier = some p ∧ p.Follows q

variable {m n o : LoadedModule ω ι}

theorem Uses.refl (m : LoadedModule ω ι) : m.Uses m := fun _ q found => ⟨q, found, .refl q⟩

theorem Uses.trans (h : m.Uses n) (k : n.Uses o) : m.Uses o := by
  intro tier r found
  obtain ⟨q, found, second⟩ := k tier r found
  obtain ⟨p, found, first⟩ := h tier q found
  exact ⟨p, found, first.trans second⟩

theorem Closes.uses (h : m.Closes n) : m.Uses n := by
  intro tier q found
  rcases h.pools tier with same | closed
  · exact ⟨q, same.symm.trans found, .refl q⟩
  · obtain ⟨p, at_p, rfl⟩ := Option.map_eq_some_iff.mp (closed.symm.trans found)
    exact ⟨p, at_p, p.close_follows⟩

theorem uses_setPool {tier : Tier} {p q : Pool ω ι} (at_p : m.pool? tier = some p)
    (follows : p.Follows q) : m.Uses (m.setPool tier q) := by
  intro other r found
  by_cases same : other = tier
  · subst same
    rw [pool?_setPool_self, Option.some.injEq] at found
    exact ⟨p, at_p, found ▸ follows⟩
  · rw [pool?_setPool_other same] at found
    exact ⟨r, found, .refl r⟩

/-- What holds of every factory holds of those of later pools. -/
theorem Uses.factories (h : m.Uses n) {F : Factory ω ι → Prop} (all : m.Each fun p => F p.factory) :
    n.Each fun p => F p.factory := by
  intro tier q found
  obtain ⟨p, at_p, follows⟩ := h tier q found
  rw [follows.factory]
  exact all tier p at_p

end LoadedModule

namespace Site

theorem uses_refuse (s : Site β ι) (e : ExecError) (now : Nat) :
    s.module.Uses (s.refuse e now).2.module :=
  ((s.module.closes_withStats _).trans (LoadedModule.closes_exit _ s.cache)).uses

theorem uses_checkoutFrom (s : Site β ι) (tier : Tier) :
    s.module.Uses (s.checkoutFrom tier).2.module := by
  cases at_p : s.module.pool? tier with
  | none =>
      rw [checkoutFrom, at_p]
      exact .refl _
  | some p =>
      rw [checkoutFrom_of_pool at_p]
      exact LoadedModule.uses_setPool at_p
        (p.follows_asked.trans (p.checkout_answers s.world).follows)

theorem uses_afterCheckout (s : Site β ι) (tier : Tier) (result : Except ExecError (Member ι))
    (bound : BoundCall) (document : Document) (now : Nat) :
    s.module.Uses (s.afterCheckout tier result bound document now).2.module := by
  cases result with
  | ok m => exact .refl _
  | error e =>
      unfold afterCheckout
      dsimp only
      split
      · have asked := s.uses_checkoutFrom .native
        revert asked
        rcases s.checkoutFrom .native with ⟨e | m, t⟩ <;> intro asked
        · exact asked.trans (t.uses_refuse e now)
        · exact asked
      · exact s.uses_refuse e now

theorem uses_enter (s : Site β ι) (document : Document) (args : Arguments) (now : Nat) :
    s.module.Uses (s.enter document args now).2.module := by
  let arrived : Site β ι := { s with module := s.module.arrive }
  have arrives : s.module.Uses arrived.module := s.module.closes_arrive.uses
  rw [enter_eq]
  refine arrives.trans ?_
  dsimp only
  split
  · exact arrived.uses_refuse _ now
  · split
    · exact arrived.uses_refuse _ now
    · unfold lendLive
      split
      · exact arrived.uses_refuse _ now
      · rename_i bound _ _ tier _
        exact (arrived.uses_checkoutFrom tier).trans
          (uses_afterCheckout _ tier (arrived.checkoutFrom tier).1 bound document now)

theorem uses_giveBack (s : Site β ι) (tier : Tier) (l : Lease ι) :
    s.module.Uses (s.giveBack tier l).module := by
  unfold giveBack
  split
  · exact .refl _
  · rename_i p at_p
    exact LoadedModule.uses_setPool at_p (p.release_follows l.member l.poisoned)

theorem uses_finish (caller : Caller ι) (s : Site β ι) (call : RunningCall ι) (elapsed : Duration)
    (now : Nat) : s.module.Uses (s.finish caller call elapsed now).2.module := by
  let ran := (caller call.lease.member.body call.arguments).run s.world.host
  let moved : Site β ι := { s with world := { s.world with host := ran.1 } }
  exact (moved.uses_giveBack call.tier (call.lease.afterCall ran.2.1 ran.2.2)).trans
    (moved.closes_endCall call ran.2.1 ran.2.2 elapsed now).uses

theorem uses_invoke (caller : Caller ι) (s : Site β ι) (document : Document) (args : Arguments)
    (elapsed : Duration) (now : Nat) :
    s.module.Uses (s.invoke caller document args elapsed now).2.module := by
  have entered := s.uses_enter document args now
  rw [invoke_eq]
  revert entered
  rcases s.enter document args now with ⟨e | call, t⟩ <;> intro entered
  · exact entered
  · exact entered.trans (t.uses_finish caller call elapsed now)

end Site

/-! ## Modules that are not there -/

def ExecError.IsNotFound : ExecError → Prop
  | .notFound _ => True
  | _ => False

/-- A factory that never says that a module is not there. -/
def Factory.Silent (f : Factory ω ι) : Prop := ∀ w e, (f w).1 = .error e → ¬ e.IsNotFound

/-- Instances that never say so. -/
def Caller.Silent (caller : Caller ι) : Prop :=
  ∀ body args host e, ((caller body args).run host).2.1 = .error e → ¬ e.IsNotFound

theorem ExecError.not_isNotFound {e : ExecError} (h : e.isBindingError = true) :
    ¬ e.IsNotFound := by
  cases e <;> first | exact id | cases h

namespace Descriptor

theorem convertFrom_error {returns : List ValueType} {raw : List Scalar} {index : Nat}
    {e : ExecError} (h : convertFrom index returns raw = .error e) : ¬ e.IsNotFound := by
  induction returns generalizing raw index with
  | nil => cases h
  | cons t returns ih =>
      cases raw with
      | nil => cases h
      | cons r raw =>
          unfold convertFrom at h
          split at h
          · cases h
            exact id
          · rcases bind_eq_error.mp h with later | ⟨_, _, h⟩
            · exact ih later
            · cases h

theorem convertResults_error {returns : List ValueType} {raw : List Scalar} {e : ExecError}
    (h : convertResults returns raw = .error e) : ¬ e.IsNotFound := by
  unfold convertResults at h
  split at h
  · exact convertFrom_error h
  · cases h
    exact id

end Descriptor

namespace Site

/-- A call that is refused is not told that the module is not there. -/
def SilentAdmission : Admission ι → Prop
  | .refused e => ¬ e.IsNotFound
  | .running _ => True

variable {s : Site β ι}

theorem silent_checkoutFrom (silent : s.module.Each fun p => p.factory.Silent) {tier : Tier}
    {e : ExecError} (failed : (s.checkoutFrom tier).1 = .error e) : ¬ e.IsNotFound := by
  cases at_p : s.module.pool? tier with
  | none =>
      rw [checkoutFrom, at_p] at failed
      cases failed
      exact id
  | some p =>
      rw [checkoutFrom_of_pool at_p] at failed
      have answer := p.checkout_answers s.world
      revert failed answer
      generalize p.checkout s.world = c
      obtain ⟨result, q, after⟩ := c
      intro failed answer
      dsimp only at failed answer
      subst failed
      cases answer with
      | failed idle isOpen room attempt => exact silent tier p at_p s.world e (congrArg Prod.fst attempt)
      | exhausted idle full => exact id

theorem silent_afterCheckout (silent : s.module.Each fun p => p.factory.Silent) (tier : Tier)
    {result : Except ExecError (Member ι)} (asked : ∀ e, result = .error e → ¬ e.IsNotFound)
    (bound : BoundCall) (document : Document) (now : Nat) :
    SilentAdmission (s.afterCheckout tier result bound document now).1 := by
  cases result with
  | ok m => exact trivial
  | error e =>
      unfold afterCheckout
      dsimp only
      split
      · have again : ∀ e, (s.checkoutFrom .native).1 = .error e → ¬ e.IsNotFound :=
          fun e => silent_checkoutFrom silent
        revert again
        rcases s.checkoutFrom .native with ⟨e | m, t⟩ <;> intro again
        · exact again e rfl
        · exact trivial
      · exact asked e rfl

theorem silent_enter (silent : s.module.Each fun p => p.factory.Silent) (document : Document)
    (args : Arguments) (now : Nat) : SilentAdmission (s.enter document args now).1 := by
  let arrived : Site β ι := { s with module := s.module.arrive }
  have still : arrived.module.Each fun p => p.factory.Silent :=
    s.module.closes_arrive.uses.factories silent
  rw [enter_eq]
  dsimp only
  split
  · exact id
  · split
    · rename_i e refused
      exact ExecError.not_isNotFound (Descriptor.bind_error refused)
    · unfold lendLive
      split
      · exact id
      · rename_i bound _ _ tier _
        exact silent_afterCheckout ((arrived.uses_checkoutFrom tier).factories still) tier
          (fun e => silent_checkoutFrom still) bound document now

theorem silent_endCall (call : RunningCall ι) {raw : Except ExecError (List Scalar)}
    (ran : ∀ e, raw = .error e → ¬ e.IsNotFound) {body : ι} {elapsed : Duration} {now : Nat}
    {e : ExecError} (failed : (s.endCall call raw body elapsed now).1 = .error e) :
    ¬ e.IsNotFound := by
  rw [endCall_result] at failed
  cases raw with
  | error reason =>
      cases failed
      exact ran e rfl
  | ok values =>
      dsimp only [Except.bind] at failed
      cases converted : Descriptor.convertResults s.module.descriptor.returns values with
      | error reason =>
          rw [converted] at failed
          cases failed
          exact Descriptor.convertResults_error converted
      | ok _ =>
          rw [converted] at failed
          cases failed

/-- A call of a loaded module does not end with the answer that the module is not there. -/
theorem invoke_ne_notFound {caller : Caller ι} (instances : caller.Silent)
    (silent : s.module.Each fun p => p.factory.Silent) {document : Document} {args : Arguments}
    {elapsed : Duration} {now : Nat} {e : ExecError}
    (failed : (s.invoke caller document args elapsed now).1 = .error e) : ¬ e.IsNotFound := by
  have entered := silent_enter silent document args now
  rw [invoke_eq] at failed
  revert failed entered
  rcases s.enter document args now with ⟨refusal | call, t⟩ <;> intro failed entered
  · cases failed
    exact entered
  · have ran := instances call.lease.member.body call.arguments t.world.host
    exact silent_endCall call ran failed

end Site

/-! ## WebAssembly -/

namespace Wasm

theorem factory_silent (p : Program) (maxDepth : Nat) (spec : InstanceSpec) :
    Factory.Silent (factory (β := β) p maxDepth spec) := by
  intro w e failed
  change ((Instance.instantiate p maxDepth spec).run w.host).2 = .error e at failed
  unfold Instance.instantiate at failed
  split at failed
  · cases failed
    exact id
  · dsimp only at failed
    split at failed
    · cases failed
      exact id
    · split at failed
      · cases failed
      · rw [Guest.Dialogue.run_map] at failed
        split at failed <;> cases failed
        exact id

theorem caller_silent : Caller.Silent caller := by
  intro body args host e failed
  change ((Instance.call body args).run host).2.1 = .error e at failed
  unfold Instance.call at failed
  rw [Guest.Dialogue.run_map] at failed
  dsimp only at failed
  split at failed <;> cases failed
  exact id

end Wasm

end TieredUdf
