import TieredUdf.Engine.Basic
import TieredUdf.Proofs.Engine.References
import TieredUdf.Proofs.Tier.LendingRun

/-! # The ceiling of instances

Settings that pass their check leave room for at least one instance, and no pool that an engine
makes ever has more living instances than the settings allow.  A native pool that is made at all
is made full.
-/

namespace TieredUdf

/-! ## The size of a pool -/

namespace Config

/-- The number of `lo … hi` nearest to `n`; there is none when the bounds are the wrong way
round. -/
def clamp? (lo hi n : Nat) : Option Nat := if lo ≤ hi then some (max lo (min hi n)) else none

theorem bounds_of_validate {c : Config} (h : c.validate = .ok ()) :
    1 ≤ c.defaultPoolSize ∧ c.defaultPoolSize ≤ maxPoolSize ∧
      c.defaultPoolSize ≤ c.maxInstancesPerModule := by
  unfold validate at h
  split at h
  · cases h
  · split at h
    · cases h
    · rename_i size
      split at h
      · cases h
      · rename_i instances
        omega

theorem clamp?_poolSize {c : Config} (h : c.validate = .ok ()) (requested : Option Nat) :
    clamp? 1 (min maxPoolSize c.maxInstancesPerModule) (requested.getD c.defaultPoolSize) =
      some (c.poolSizeFor requested) := by
  obtain ⟨positive, small, few⟩ := bounds_of_validate h
  exact if_pos (le_min (positive.trans small) (positive.trans few))

theorem poolSizeFor_bounds {c : Config} (h : c.validate = .ok ()) (requested : Option Nat) :
    1 ≤ c.poolSizeFor requested ∧
      c.poolSizeFor requested ≤ min maxPoolSize c.maxInstancesPerModule := by
  obtain ⟨positive, small, few⟩ := bounds_of_validate h
  exact ⟨le_max_left _ _,
    max_le (le_min (positive.trans small) (positive.trans few)) (min_le_left _ _)⟩

end Config

/-! ## A prefill that succeeds -/

namespace Pool

variable {ω ι : Type}

/-- A prefill for which there is room makes all its instances, or it fails. -/
theorem fill_full {n : Nat} {p : Pool ω ι} {w : ω} (isOpen : p.closed = false)
    (queued : p.idle.length = p.live) (room : p.live + n ≤ p.capacity)
    (filled : (fill n p w).1 = .ok ()) :
    (fill n p w).2.1.idle.length = p.live + n ∧ (fill n p w).2.1.live = p.live + n := by
  induction n generalizing p w with
  | zero => exact ⟨queued, rfl⟩
  | succ n ih =>
      rcases fill_succ n p w with ⟨refused, _⟩ | ⟨e, after, _, hf⟩ |
        ⟨body, after, _, _, _, ⟨_, hf⟩ | ⟨full, _⟩⟩
      · rcases reserve?_eq_none refused with closed | full
        · exact absurd (isOpen.symm.trans closed) Bool.false_ne_true
        · omega
      · rw [hf] at filled
        cases filled
      · rw [hf] at filled ⊢
        have longer : (p.grown.queued ⟨p.instantiations, body⟩).idle.length =
            (p.grown.queued ⟨p.instantiations, body⟩).live := by
          simp only [Pool.queued, grown, List.length_append, List.length_singleton, queued]
        have left : p.live + 1 + n ≤ p.capacity := by omega
        have rest := ih (p := p.grown.queued ⟨p.instantiations, body⟩) isOpen longer left filled
        simp only [Pool.queued, grown] at rest ⊢
        rw [Nat.add_right_comm, Nat.add_assoc] at rest
        exact rest
      · omega

end Pool

/-! ## The pools of an engine -/

namespace Engine

variable {β ι : Type} {e : Engine β ι}

theorem newPool_sizes (valid : e.config.validate = .ok ()) (d : Descriptor) (tier : Tier)
    (factory : Factory (World β) ι) :
    (e.newPool d tier factory).capacity = e.poolSize d ∧
      (e.newPool d tier factory).maxLive = e.config.maxInstancesPerModule := by
  obtain ⟨positive, bounded⟩ := Config.poolSizeFor_bounds valid d.limits.poolSize
  have capacity : max (e.poolSize d) 1 = e.poolSize d := max_eq_left positive
  have within : e.poolSize d ≤ e.config.maxInstancesPerModule := bounded.trans (min_le_right _ _)
  refine ⟨capacity, ?_⟩
  change max e.config.maxInstancesPerModule (max (e.poolSize d) 1) = _
  rw [capacity]
  exact max_eq_left within

/-- The pool of a module stays within the ceiling, whatever its users do. -/
def Keeps (e : Engine β ι) (p : Pool (World β) ι) : Prop :=
  ∀ (w : World β) (actions : List (Lending.Action ι)),
    let l := (Lending.ofPool p w).run actions
    l.pool.live ≤ e.config.maxInstancesPerModule ∧ l.pool.idle.length + l.lent.length = l.pool.live

theorem keeps_of_balanced {p : Pool (World β) ι} (books : p.Balanced [])
    (ceiling : p.maxLive = e.config.maxInstancesPerModule) : e.Keeps p := by
  intro w actions
  have start : (Lending.ofPool p w).Balanced := books
  have reached := start.run actions
  have settings := Lending.run_follows (Lending.ofPool p w) actions
  refine ⟨?_, ?_⟩
  · rw [← ceiling, ← show (Lending.ofPool p w).pool.maxLive = p.maxLive from rfl,
      ← settings.maxLive]
    exact reached.live_le
  · rw [reached.live_eq, Lending.lentNumbers, List.length_map]

/-- A native pool is a new pool that was filled up. -/
theorem nativePool_eq_ok {b : Backend (World β) ι} {d : Descriptor} {artifact : List UInt8}
    {p : Pool (World β) ι} (h : (e.nativePool b d artifact).1 = .ok p) :
    ∃ factory w, b.load artifact (e.instanceSpec d) e.world = (.ok factory, w) ∧
      ((e.newPool d .native factory).prefill (e.poolSize d) w).1 = .ok () ∧
      p = ((e.newPool d .native factory).prefill (e.poolSize d) w).2.1 := by
  unfold nativePool at h
  obtain ⟨loaded, w, load⟩ : ∃ loaded w, b.load artifact (e.instanceSpec d) e.world = (loaded, w) :=
    ⟨_, _, rfl⟩
  rw [load] at h
  cases loaded with
  | error error => cases h
  | ok factory =>
      refine ⟨factory, w, load, ?_⟩
      simp only at h
      revert h
      obtain ⟨filled, q, after⟩ := (e.newPool d .native factory).prefill (e.poolSize d) w
      intro h
      cases filled with
      | error error => cases h
      | ok _ =>
          cases h
          exact ⟨rfl, rfl⟩

theorem nativePool_full (valid : e.config.validate = .ok ()) {b : Backend (World β) ι}
    {d : Descriptor} {artifact : List UInt8} {p : Pool (World β) ι}
    (h : (e.nativePool b d artifact).1 = .ok p) :
    p.idle.length = e.poolSize d ∧ p.live = e.poolSize d ∧ p.capacity = e.poolSize d ∧
      e.Keeps p := by
  obtain ⟨factory, w, _, filled, rfl⟩ := nativePool_eq_ok h
  obtain ⟨capacity, ceiling⟩ := newPool_sizes valid d .native factory
  have books : (e.newPool d .native factory).Balanced [] := Pool.balanced_create _ _ _ _ _ _
  have size : min (e.poolSize d) (e.newPool d .native factory).capacity = e.poolSize d := by
    rw [capacity, min_self]
  unfold Pool.prefill at filled ⊢
  rw [size] at filled ⊢
  have settings := Pool.fill_follows (e.poolSize d) (e.newPool d .native factory) w
  have empty : (e.newPool d .native factory).live = 0 := rfl
  obtain ⟨idle, live⟩ := Pool.fill_full rfl rfl (by rw [capacity, empty, Nat.zero_add]) filled
  rw [empty, Nat.zero_add] at idle live
  exact ⟨idle, live, settings.capacity.trans capacity,
    keeps_of_balanced (books.fill _ w) (settings.maxLive.trans ceiling)⟩

/-- Under settings that pass their check, the size that a module asks for is brought between two
bounds that are in order, a pool of that size never has more living instances than the settings
allow, and a native pool starts with all its instances idle. -/
theorem instances_within_ceiling (valid : e.config.validate = .ok ()) (d : Descriptor) :
    Config.clamp? 1 (min 64 e.config.maxInstancesPerModule)
        (d.limits.poolSize.getD e.config.defaultPoolSize) = some (e.poolSize d) ∧
      (∀ (tier : Tier) (factory : Factory (World β) ι),
        1 ≤ (e.newPool d tier factory).capacity ∧
          (e.newPool d tier factory).capacity ≤ min 64 e.config.maxInstancesPerModule ∧
          e.Keeps (e.newPool d tier factory)) ∧
      ∀ (b : Backend (World β) ι) (artifact : List UInt8) (p : Pool (World β) ι),
        (e.nativePool b d artifact).1 = .ok p →
          p.idle.length = e.poolSize d ∧ p.live = e.poolSize d ∧ p.capacity = e.poolSize d ∧
            e.Keeps p := by
  refine ⟨Config.clamp?_poolSize valid d.limits.poolSize, fun tier factory => ?_,
    fun b artifact p => nativePool_full valid⟩
  obtain ⟨capacity, ceiling⟩ := newPool_sizes valid d tier factory
  obtain ⟨positive, bounded⟩ := Config.poolSizeFor_bounds valid d.limits.poolSize
  rw [capacity]
  exact ⟨positive, bounded, keeps_of_balanced (Pool.balanced_create _ _ _ _ _ _) ceiling⟩

theorem instances_within_ceiling_unloaded :
    unloaded.config.validate = .ok () ∧
      Config.clamp? 1 (min 64 unloaded.config.maxInstancesPerModule)
        (Descriptor.boost.limits.poolSize.getD unloaded.config.defaultPoolSize) = some 4 ∧
      ∃ p, (unloaded.nativePool compiling Descriptor.boost [1]).1 = .ok p ∧ p.idle.length = 4 ∧
        p.live = 4 ∧ unloaded.Keeps p := by
  have valid : unloaded.config.validate = .ok () := by decide
  have four : unloaded.poolSize Descriptor.boost = 4 := by decide
  have made : ∃ p, (unloaded.nativePool compiling Descriptor.boost [1]).1 = .ok p := ⟨_, rfl⟩
  obtain ⟨p, made⟩ := made
  obtain ⟨size, _, native⟩ := instances_within_ceiling valid Descriptor.boost
  obtain ⟨idle, live, _, keeps⟩ := native compiling [1] p made
  exact ⟨valid, four ▸ size, p, made, idle.trans four, live.trans four, keeps⟩

end Engine

end TieredUdf
