import TieredUdf.Module.Loaded

/-! # The pools of a loaded module

Whatever a module does when calls arrive, are refused and leave, or when it is torn down, it does
at most one thing to a pool that it has: it closes it.
-/

namespace TieredUdf

variable {ω ι : Type}

theorem Pool.close_close (p : Pool ω ι) : p.close.1.close.1 = p.close.1 := rfl

theorem Pool.closed_of_map_close {p : Pool ω ι} {q : Option (Pool ω ι)}
    (h : (q.map fun r => r.close.1) = some p) : p.closed = true := by
  obtain ⟨r, _, rfl⟩ := Option.map_eq_some_iff.mp h
  rfl

namespace LoadedModule

/-! ## One pool at a time -/

@[simp] theorem pool?_setPool_self (m : LoadedModule ω ι) (tier : Tier) (p : Pool ω ι) :
    (m.setPool tier p).pool? tier = some p := by
  cases tier <;> rfl

theorem pool?_setPool_other {tier other : Tier} (h : other ≠ tier) (m : LoadedModule ω ι)
    (p : Pool ω ι) : (m.setPool tier p).pool? other = m.pool? other := by
  cases tier <;> cases other <;> first | rfl | exact absurd rfl h

@[simp] theorem setPool_setPool (m : LoadedModule ω ι) (tier : Tier) (p q : Pool ω ι) :
    (m.setPool tier p).setPool tier q = m.setPool tier q := by
  cases tier <;> rfl

@[simp] theorem setPool_descriptor (m : LoadedModule ω ι) (tier : Tier) (p : Pool ω ι) :
    (m.setPool tier p).descriptor = m.descriptor := by
  cases tier <;> rfl

/-! ## Closing -/

/-- One module comes from another, and at most some pools were closed on the way. -/
structure Closes (m n : LoadedModule ω ι) : Prop where
  descriptor : n.descriptor = m.descriptor
  pools : ∀ tier, n.pool? tier = m.pool? tier ∨
    n.pool? tier = (m.pool? tier).map fun p => p.close.1

theorem Closes.of_pools {m n : LoadedModule ω ι} (descriptor : n.descriptor = m.descriptor)
    (pools : ∀ tier, n.pool? tier = m.pool? tier) : m.Closes n :=
  ⟨descriptor, fun tier => Or.inl (pools tier)⟩

theorem Closes.refl (m : LoadedModule ω ι) : m.Closes m := .of_pools rfl fun _ => rfl

theorem Closes.trans {m n o : LoadedModule ω ι} (h : m.Closes n) (k : n.Closes o) :
    m.Closes o := by
  refine ⟨k.descriptor.trans h.descriptor, fun tier => ?_⟩
  rcases h.pools tier with hn | hn <;> rcases k.pools tier with ho | ho <;> rw [ho, hn]
  · exact Or.inl rfl
  · exact Or.inr rfl
  · exact Or.inr rfl
  · right
    rw [Option.map_map]
    exact congrArg (fun f => (m.pool? tier).map f) (funext Pool.close_close)

theorem closes_closeInterpreter (m : LoadedModule ω ι) : m.Closes m.closeInterpreter := by
  refine ⟨rfl, fun tier => ?_⟩
  cases tier with
  | interpreter => exact Or.inr rfl
  | native => exact Or.inl rfl

theorem closes_closeNative (m : LoadedModule ω ι) : m.Closes m.closeNative := by
  refine ⟨rfl, fun tier => ?_⟩
  cases tier with
  | interpreter => exact Or.inl rfl
  | native => exact Or.inr rfl

theorem pool?_releaseReference (m : LoadedModule ω ι) (c : Cache) (tier : Tier) :
    (m.releaseReference c).1.pool? tier = m.pool? tier := by
  unfold releaseReference
  split <;> cases tier <;> rfl

theorem closes_releaseReference (m : LoadedModule ω ι) (c : Cache) :
    m.Closes (m.releaseReference c).1 := by
  refine .of_pools ?_ (m.pool?_releaseReference c)
  unfold releaseReference
  split <;> rfl

theorem closes_closeIfFinalized (m : LoadedModule ω ι) (c : Cache) :
    m.Closes (m.closeIfFinalized c).1 := by
  unfold closeIfFinalized
  split
  · exact m.closes_closeNative.trans (closes_releaseReference _ c)
  · exact .refl m

theorem closes_finalize (m : LoadedModule ω ι) (c : Cache) : m.Closes (m.finalize c).2.1 := by
  unfold finalize
  split
  · exact .refl m
  · have marked : m.Closes { m with finalized := true } :=
      .of_pools rfl fun tier => by cases tier <;> rfl
    have closed := (marked.trans (closes_closeInterpreter _)).trans (closes_closeNative _)
    have released := closed.trans (closes_releaseReference _ c)
    exact released.trans (.of_pools rfl fun tier => by cases tier <;> rfl)

theorem closes_arrive (m : LoadedModule ω ι) : m.Closes m.arrive :=
  .of_pools rfl fun tier => by cases tier <;> rfl

theorem closes_exit (m : LoadedModule ω ι) (c : Cache) : m.Closes (m.exit c).2.1 := by
  have left : m.Closes m.leave.1 := .of_pools rfl fun tier => by cases tier <;> rfl
  unfold exit
  dsimp only
  split
  · exact left.trans (closes_finalize _ c)
  · exact left

theorem closes_withStats (m : LoadedModule ω ι) (stats : ModuleStats) :
    m.Closes { m with stats := stats } :=
  .of_pools rfl fun tier => by cases tier <;> rfl

theorem closes_beginDrain (m : LoadedModule ω ι) (c : Cache) : m.Closes (m.beginDrain c).2.1 := by
  have draining : m.Closes m.startDraining := .of_pools rfl fun tier => by cases tier <;> rfl
  unfold beginDrain
  dsimp only
  split
  · exact draining.trans (closes_finalize _ c)
  · exact draining

/-! ## Installing -/

/-- Installing native code sets a pool only where there is none, and closes at most what is there
then. -/
theorem closes_installNative (m : LoadedModule ω ι) (p : Pool ω ι) (reference : Bool)
    (c : Cache) :
    m.Closes (m.installNative p reference c).2.1 ∨
      (m.setPool .native p).Closes (m.installNative p reference c).2.1 := by
  have marked : m.Closes (if reference then { m with holdsReference := true } else m) := by
    split
    · exact .of_pools rfl fun tier => by cases tier <;> rfl
    · exact .refl m
  have finish := fun n : LoadedModule ω ι =>
    n.closes_closeInterpreter.trans (closes_closeIfFinalized _ c)
  unfold installNative
  generalize (if reference then { m with holdsReference := true } else m) = n at marked
  cases hn : n.native with
  | some q => exact Or.inl (by simpa [setNative, hn] using marked.trans (finish n))
  | none =>
      have placed : (m.setPool .native p).Closes
          { n with native := some p, mode := n.mode.publishNative.1 } := by
        refine ⟨marked.descriptor, fun tier => ?_⟩
        cases tier with
        | interpreter => exact marked.pools .interpreter
        | native => exact Or.inl rfl
      exact Or.inr (by simpa [setNative, hn, publishNative] using placed.trans (finish _))

/-! ## Properties of every pool -/

def Each (Q : Pool ω ι → Prop) (m : LoadedModule ω ι) : Prop :=
  ∀ tier p, m.pool? tier = some p → Q p

variable {Q : Pool ω ι → Prop} {m n : LoadedModule ω ι}

theorem Each.closes (h : m.Each Q) (close : ∀ p, Q p → Q p.close.1) (closes : m.Closes n) :
    n.Each Q := by
  intro tier p hp
  rcases closes.pools tier with same | closed
  · exact h tier p (same.symm.trans hp)
  · obtain ⟨q, hq, rfl⟩ := Option.map_eq_some_iff.mp (closed.symm.trans hp)
    exact close q (h tier q hq)

theorem Each.setPool (h : m.Each Q) (tier : Tier) {p : Pool ω ι} (hp : Q p) :
    (m.setPool tier p).Each Q := by
  intro other q hq
  by_cases same : other = tier
  · subst same
    rw [pool?_setPool_self] at hq
    exact Option.some.inj hq ▸ hp
  · rw [pool?_setPool_other same] at hq
    exact h other q hq

theorem Each.installNative (h : m.Each Q) (close : ∀ p, Q p → Q p.close.1) {p : Pool ω ι}
    (hp : Q p) (reference : Bool) (c : Cache) : (m.installNative p reference c).2.1.Each Q := by
  rcases m.closes_installNative p reference c with closes | closes
  · exact h.closes close closes
  · exact (h.setPool .native hp).closes close closes

end LoadedModule

end TieredUdf
