import TieredUdf.Proofs.Module.Traffic
import TieredUdf.Proofs.Module.Standing

/-! # The tier that serves a call

The mode of a module, its two pools and the flag of the interpreter's pool agree while the module
does not drain: the tier of the mode has an open pool, and no call gets an instance from anywhere
else.  This is kept by every step of a call, by a claim of the compile and by an installation.
-/

namespace TieredUdf

open Text (Duration)

variable {β ω ι : Type}

structure OpenPool (ω ι : Type) (tier : Tier) where
  pool : Pool ω ι
  tier_eq : pool.tier = tier
  isOpen : pool.closed = false

/-! ## Pools that calls use -/

namespace Pool

/-- A pool that calls have used: it is as open as it was, and an empty closed one is still
empty. -/
structure Used (p q : Pool ω ι) : Prop where
  tier : q.tier = p.tier
  closed : q.closed = p.closed
  empty : p.closed = true → p.idle = [] → q.idle = []

theorem Used.trans {p q r : Pool ω ι} (h : p.Used q) (k : q.Used r) : p.Used r :=
  ⟨k.tier.trans h.tier, k.closed.trans h.closed, fun closed empty =>
    k.empty (h.closed.trans closed) (h.empty closed empty)⟩

theorem used_asked (p : Pool ω ι) : p.Used p.asked := ⟨rfl, rfl, fun _ => id⟩

theorem Answers.used {p q : Pool ω ι} {w after : ω} {result : Except ExecError (Member ι)}
    (h : Answers p w result q after) : p.Used q := by
  cases h with
  | lent idle => exact ⟨rfl, rfl, fun _ none_idle => by simp [idle] at none_idle⟩
  | made idle isOpen room attempt => exact ⟨rfl, rfl, fun _ => id⟩
  | failed idle isOpen room attempt => exact ⟨rfl, rfl, fun _ => id⟩
  | exhausted idle full => exact ⟨rfl, rfl, fun _ => id⟩

theorem release_used (p : Pool ω ι) (m : Member ι) (poisoned : Bool) :
    p.Used (p.release m poisoned).1 := by
  rcases p.release_cases m poisoned with ⟨_, isOpen, _, h⟩ | ⟨_, h⟩
  · rw [h]
    exact ⟨rfl, rfl, fun closed => by simp [isOpen] at closed⟩
  · rw [h]
    exact ⟨rfl, rfl, fun _ => id⟩

/-- A closed pool without idle instances has none to lend. -/
theorem Answers.error_of_retired {p q : Pool ω ι} {w after : ω}
    {result : Except ExecError (Member ι)} (h : Answers p w result q after)
    (closed : p.closed = true) (empty : p.idle = []) : ∃ e, result = .error e := by
  cases h with
  | lent idle => simp [idle] at empty
  | made idle isOpen room attempt => simp [isOpen] at closed
  | failed idle isOpen room attempt => exact ⟨_, rfl⟩
  | exhausted idle full => exact ⟨_, rfl⟩

/-- What is known of the pool of a tier while another tier, or this one, serves calls. -/
structure Routed (serving tier : Tier) (p : Pool ω ι) : Prop where
  tier_eq : p.tier = tier
  isOpen : tier = serving → p.closed = false
  retired : tier ≠ serving → p.closed = true ∧ p.idle = []

theorem Routed.used {serving tier : Tier} {p q : Pool ω ι} (h : p.Routed serving tier)
    (used : p.Used q) : q.Routed serving tier where
  tier_eq := used.tier.trans h.tier_eq
  isOpen := fun own => used.closed.trans (h.isOpen own)
  retired := fun other => by
    obtain ⟨closed, empty⟩ := h.retired other
    exact ⟨used.closed.trans closed, used.empty closed empty⟩

end Pool

/-! ## Modules -/

namespace LoadedModule

/-- A module that admits calls in a mode.  The tier of the mode has an open pool, and a pool of
another tier is closed and empty. -/
structure Serves (mode : Mode) (m : LoadedModule ω ι) : Prop where
  admits : m.draining = false
  standing : m.finalized = false
  mode_eq : m.mode = mode
  routed : ∀ tier p, m.pool? tier = some p → p.Routed mode.tier tier
  live : (m.pool? mode.tier).isSome
  native_iff : m.native.isSome ↔ mode.tier = .native

variable {mode : Mode} {m n : LoadedModule ω ι}

/-- The statistics and the number of calls in flight play no part. -/
theorem Serves.congr (h : m.Serves mode) (draining : n.draining = m.draining)
    (finalized : n.finalized = m.finalized) (same : n.mode = m.mode)
    (pools : ∀ tier, n.pool? tier = m.pool? tier) : n.Serves mode where
  admits := draining.trans h.admits
  standing := finalized.trans h.standing
  mode_eq := same.trans h.mode_eq
  routed := fun tier p hp => h.routed tier p ((pools tier).symm.trans hp)
  live := by rw [pools]; exact h.live
  native_iff := by
    have hn : n.native = m.native := pools .native
    rw [hn]
    exact h.native_iff

theorem Serves.exit (h : m.Serves mode) (c : Cache) : (m.exit c).2.1.Serves mode := by
  rw [exit_of_not_draining h.admits]
  exact h.congr rfl rfl rfl fun tier => by cases tier <;> rfl

theorem Serves.withStats (h : m.Serves mode) (stats : ModuleStats) :
    LoadedModule.Serves mode { m with stats := stats } :=
  h.congr rfl rfl rfl fun tier => by cases tier <;> rfl

theorem Serves.arrive (h : m.Serves mode) : m.arrive.Serves mode :=
  h.congr rfl rfl rfl fun tier => by cases tier <;> rfl

theorem Serves.setPool (h : m.Serves mode) {tier : Tier} {p q : Pool ω ι}
    (hp : m.pool? tier = some p) (used : p.Used q) : (m.setPool tier q).Serves mode where
  admits := by cases tier <;> exact h.admits
  standing := by cases tier <;> exact h.standing
  mode_eq := by cases tier <;> exact h.mode_eq
  routed := by
    intro other r hr
    by_cases same : other = tier
    · subst same
      rw [pool?_setPool_self] at hr
      cases hr
      exact (h.routed other p hp).used used
    · rw [pool?_setPool_other same] at hr
      exact h.routed other r hr
  live := by
    by_cases same : mode.tier = tier
    · rw [same, pool?_setPool_self]
      rfl
    · rw [pool?_setPool_other same]
      exact h.live
  native_iff := by
    have hn := (swaps_setPool hp q).native
    rw [hn]
    exact h.native_iff

/-- The pool that serves a new call is there, open and of its tier. -/
theorem Serves.liveTier (h : m.Serves mode) :
    m.liveTier? = some mode.tier ∧
      ∃ p, m.pool? mode.tier = some p ∧ p.closed = false ∧ p.tier = mode.tier := by
  obtain ⟨p, hp⟩ := Option.isSome_iff_exists.mp h.live
  have routed := h.routed mode.tier p hp
  refine ⟨?_, p, hp, routed.isOpen rfl, routed.tier_eq⟩
  have hmode := h.mode_eq
  cases mode with
  | native =>
      have hnative : m.native = some p := hp
      simp [liveTier?, hmode, hnative, tierIf, Mode.tier]
  | interpreted | compiling =>
      have hinterpreter : m.interpreter = some p := hp
      have isOpen := routed.isOpen rfl
      simp [liveTier?, hmode, hinterpreter, isOpen, tierIf, Mode.tier]

theorem Serves.withMode (h : m.Serves mode) {other : Mode} (same : other.tier = mode.tier) :
    Serves other { m with mode := other } where
  admits := h.admits
  standing := h.standing
  mode_eq := rfl
  routed := by
    intro tier p hp
    rw [same]
    exact h.routed tier p (by cases tier <;> exact hp)
  live := by
    have live := h.live
    rw [same]
    cases hmode : mode.tier <;> rw [hmode] at live <;> exact live
  native_iff := by
    rw [same]
    exact h.native_iff

theorem Serves.beginCompile (h : m.Serves mode) :
    m.beginCompile.1.Serves mode.beginCompile.1 ∧ m.beginCompile.2 = mode.beginCompile.2 := by
  have same : mode.beginCompile.1.tier = mode.tier := by cases mode <;> rfl
  have hmode := h.mode_eq
  unfold LoadedModule.beginCompile
  dsimp only
  rw [hmode]
  exact ⟨h.withMode same, rfl⟩

/-- What is installed while a module is not torn down. -/
theorem installNative_of_standing (standing : m.finalized = false) (p : Pool ω ι)
    (reference : Bool) (c : Cache) :
    m.installNative p reference c =
      let marked := { m with holdsReference := reference || m.holdsReference }
      match m.native with
      | none => (m.mode.publishNative.2,
          { marked with native := some p, mode := .native }.closeInterpreter, c)
      | some _ => (false, marked.closeInterpreter, c) := by
  cases hnative : m.native <;> cases reference <;>
    simp [installNative, setNative, publishNative, Mode.publishNative, closeInterpreter,
      closeIfFinalized, standing, hnative]

/-- The interpreter's pool is closed and empty once native code serves calls. -/
theorem serves_native {p : Pool ω ι} (admits : m.draining = false)
    (standing : m.finalized = false) (mode_eq : m.mode = .native) (hnative : m.native = some p)
    (routed : p.Routed .native .native)
    (tier_eq : ∀ q, m.interpreter = some q → q.tier = .interpreter) :
    m.closeInterpreter.Serves .native where
  admits := admits
  standing := standing
  mode_eq := mode_eq
  routed := by
    intro tier q hq
    cases tier with
    | native =>
        have same : p = q := Option.some.inj (hnative.symm.trans hq)
        exact same ▸ routed
    | interpreter =>
        obtain ⟨r, hr, rfl⟩ := Option.map_eq_some_iff.mp hq
        exact ⟨tier_eq r hr, nofun, fun _ => ⟨rfl, rfl⟩⟩
  live := by
    change m.native.isSome
    rw [hnative]
    rfl
  native_iff := by simp [closeInterpreter, hnative, Mode.tier]

/-- Whatever serves calls, an installation makes native code do so, and it says whether that is
new. -/
theorem Serves.installNative (h : m.Serves mode) (p : OpenPool ω ι .native) (reference : Bool)
    (c : Cache) :
    (m.installNative p.pool reference c).2.1.Serves .native ∧
      (m.installNative p.pool reference c).1 = mode.publishNative.2 := by
  have tier_eq : ∀ q, m.interpreter = some q → q.tier = .interpreter := fun q hq =>
    (h.routed .interpreter q hq).tier_eq
  have hmode := h.mode_eq
  rw [installNative_of_standing h.standing]
  cases hnative : m.native with
  | none =>
      refine ⟨?_, congrArg (fun o => o.publishNative.2) hmode⟩
      exact serves_native (m := { m with
          holdsReference := reference || m.holdsReference
          native := some p.pool
          mode := .native }) h.admits h.standing rfl rfl
        ⟨p.tier_eq, fun _ => p.isOpen, fun other => absurd rfl other⟩ tier_eq
  | some q =>
      have installed : mode = .native := by
        have htier := h.native_iff.mp (by rw [hnative]; rfl)
        cases mode <;> first | rfl | cases htier
      subst installed
      refine ⟨?_, rfl⟩
      exact serves_native (m := { m with
          holdsReference := reference || m.holdsReference
          native := some q }) h.admits h.standing hmode rfl (h.routed .native q hnative) tier_eq

end LoadedModule

/-! ## Calls -/

namespace Site

variable {mode : Mode} {s : Site β ι}

/-- A call gets an instance from the tier of the mode, if it gets one. -/
def Routed (mode : Mode) (r : Admission ι × Site β ι) : Prop :=
  (∀ call, r.1 = .running call → call.tier = mode.tier) ∧ r.2.module.Serves mode

theorem routed_refuse (h : s.module.Serves mode) (e : ExecError) (now : Nat) :
    Routed mode (s.refuse e now) :=
  ⟨nofun, (h.withStats _).exit s.cache⟩

theorem routed_start (h : s.module.Serves mode) (m : Member ι) (bound : BoundCall)
    (document : Document) : Routed mode (s.start mode.tier m bound document) := by
  refine ⟨fun call running => ?_, h⟩
  cases running
  rfl

/-- Only the pool of the mode's tier has an instance to lend. -/
theorem routed_checkoutFrom (h : s.module.Serves mode) (tier : Tier) :
    (tier = mode.tier ∨ ∃ e, (s.checkoutFrom tier).1 = .error e) ∧
      (s.checkoutFrom tier).2.module.Serves mode := by
  cases hp : s.module.pool? tier with
  | none =>
      rw [checkoutFrom, hp]
      exact ⟨Or.inr ⟨_, rfl⟩, h⟩
  | some p =>
      rw [checkoutFrom_of_pool hp]
      have answers := p.checkout_answers s.world
      refine ⟨?_, h.setPool hp (p.used_asked.trans answers.used)⟩
      by_cases own : tier = mode.tier
      · exact Or.inl own
      · obtain ⟨closed, empty⟩ := (h.routed tier p hp).retired own
        exact Or.inr (answers.error_of_retired closed empty)

/-- A call that a retired pool sends away goes on to native code. -/
theorem routed_afterCheckout (h : s.module.Serves mode) {tier : Tier}
    {result : Except ExecError (Member ι)} (own : tier = mode.tier ∨ ∃ e, result = .error e)
    (bound : BoundCall) (document : Document) (now : Nat) :
    Routed mode (s.afterCheckout tier result bound document now) := by
  cases result with
  | ok m =>
      have htier : tier = mode.tier := own.resolve_right nofun
      subst htier
      exact routed_start h m bound document
  | error e =>
      unfold afterCheckout
      dsimp only
      split
      · rename_i retired
        have hnative : s.module.native.isSome = true := (Bool.and_eq_true_iff.mp retired).2
        have htier := h.native_iff.mp hnative
        have after := (routed_checkoutFrom h .native).2
        revert after
        rcases s.checkoutFrom .native with ⟨e | m, t⟩ <;> intro after
        · exact routed_refuse after e now
        · have started := routed_start after m bound document
          rw [htier] at started
          exact started
      · exact routed_refuse h e now

theorem routed_resumeCall (h : s.module.Serves mode) (tier : Tier) (bound : BoundCall)
    (document : Document) (now : Nat) :
    Routed mode (s.resumeCall tier bound document now) := by
  unfold resumeCall
  cases hp : s.module.pool? tier with
  | none => exact routed_refuse h _ now
  | some p =>
      have answers := p.endCheckout_answers s.world
      have after : (s.module.setPool tier (p.endCheckout s.world).2.1).Serves mode :=
        h.setPool hp answers.used
      refine routed_afterCheckout (s := { s with
        module := s.module.setPool tier (p.endCheckout s.world).2.1
        world := (p.endCheckout s.world).2.2 }) after ?_ bound document now
      by_cases own : tier = mode.tier
      · exact Or.inl own
      · obtain ⟨closed, empty⟩ := (h.routed tier p hp).retired own
        exact Or.inr (answers.error_of_retired closed empty)

/-- The tier whose instance a call has got, if it has got that far. -/
def reachedTier : CallStage ι → Option Tier
  | .decided (.running call) => some call.tier
  | _ => none

theorem reachedTier_decided {r : Admission ι × Site β ι} (h : Routed mode r) {tier : Tier}
    (reached : reachedTier (.decided r.1) = some tier) : tier = mode.tier := by
  obtain ⟨e | call, t⟩ := r
  · cases reached
  · cases reached
    exact h.1 call rfl

theorem routed_beginCall (h : s.module.Serves mode) (document : Document) (args : Arguments)
    (now : Nat) :
    (∀ tier, reachedTier (s.beginCall document args now).1 = some tier → tier = mode.tier) ∧
      (s.beginCall document args now).2.module.Serves mode := by
  have decided : ∀ {r : Admission ι × Site β ι}, Routed mode r →
      (∀ tier, reachedTier (Site.decided r).1 = some tier → tier = mode.tier) ∧
        (Site.decided r).2.module.Serves mode :=
    fun routed => ⟨fun _ => reachedTier_decided routed, routed.2⟩
  have arrived : s.module.arrive.Serves mode := h.arrive
  unfold beginCall
  dsimp only
  rw [if_neg (by simp [arrived.admits])]
  split
  · exact decided (routed_refuse (s := { s with module := s.module.arrive }) arrived _ now)
  · obtain ⟨live, p, hp, _, _⟩ := arrived.liveTier
    unfold obtain
    dsimp only
    simp only [live, hp]
    rcases p.beginCheckout_cases s.world with ⟨result, q, after, hb, answers⟩ | ⟨hb, _, _⟩
    · rw [hb]
      have used := p.used_asked.trans answers.used
      exact decided (routed_afterCheckout (s := { s with
        module := s.module.arrive.setPool mode.tier q
        world := after }) (arrived.setPool hp used) (Or.inl rfl) _ document now)
    · rw [hb]
      exact ⟨nofun, arrived.setPool hp p.used_asked⟩

theorem routed_enter (h : s.module.Serves mode) (document : Document) (args : Arguments)
    (now : Nat) : Routed mode (s.enter document args now) := by
  obtain ⟨reached, serves⟩ := routed_beginCall h document args now
  unfold enter
  revert reached serves
  rcases s.beginCall document args now with ⟨(e | call) | ⟨tier, bound⟩, t⟩ <;>
    intro reached serves
  · exact ⟨nofun, serves⟩
  · refine ⟨fun other running => ?_, serves⟩
    cases running
    exact reached _ rfl
  · exact routed_resumeCall serves tier bound document now

theorem serves_giveBack (h : s.module.Serves mode) (tier : Tier) (l : Lease ι) :
    (s.giveBack tier l).module.Serves mode := by
  unfold giveBack
  cases hp : s.module.pool? tier with
  | none => exact h
  | some p => exact h.setPool hp (p.release_used l.member l.poisoned)

theorem serves_finish (h : s.module.Serves mode) (caller : Caller ι) (call : RunningCall ι)
    (elapsed : Duration) (now : Nat) :
    (s.finish caller call elapsed now).2.module.Serves mode := by
  unfold finish endCall
  dsimp only
  refine (LoadedModule.Serves.withStats ?_ _).exit _
  exact serves_giveBack (by exact h) call.tier _

/-- A whole call, with the tier that it tells of. -/
theorem routed_invoke (h : s.module.Serves mode) (caller : Caller ι) (document : Document)
    (args : Arguments) (elapsed : Duration) (now : Nat) :
    (∀ i, (s.invoke caller document args elapsed now).1 = .ok i → i.tier = mode.tier) ∧
      (s.invoke caller document args elapsed now).2.module.Serves mode := by
  have entered := routed_enter h document args now
  rw [invoke_eq]
  revert entered
  rcases s.enter document args now with ⟨e | call, t⟩ <;> intro entered
  · exact ⟨nofun, entered.2⟩
  · refine ⟨fun i ended => ?_, serves_finish entered.2 caller call elapsed now⟩
    have htier := entered.1 call rfl
    dsimp only [finish] at ended
    rw [endCall_result] at ended
    revert ended
    cases ((caller call.lease.member.body call.arguments).run t.world.host).2.1.bind
        (Descriptor.convertResults t.module.descriptor.returns) with
    | error e => exact nofun
    | ok values =>
        intro ended
        cases ended
        exact htier

end Site

end TieredUdf
