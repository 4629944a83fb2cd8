import TieredUdf.Proofs.Engine.Order

/-! # Jobs keep an engine in order

A job goes from stage to stage with the modules that wait for it, and then gives native code to one
after the other.  Each of these gets it together with a reference, or not at all.
-/

namespace TieredUdf

open LoadedModule (Standing)

namespace Engine

variable {β ι : Type} {e f : Engine β ι} {i : Nat} {j : CompileJob}

/-- A job moves on while the cache keeps its books. -/
theorem Ordered.setStage (h : e.Ordered) (at_i : e.jobs[i]? = some j) {stage : JobStage}
    (moves : j.MovesOn { j with stage := stage }) (registered : f.registered = e.registered)
    (standing : f.standing? = e.standing?) (jobs : f.jobs = e.jobs)
    (books : f.cache.Balanced e.natives) : (f.setStage i j stage).Ordered := by
  refine h.frame registered standing ?_ ?_ books
  · dsimp only [Engine.setStage]
    rw [jobs]
    exact h.queued.set at_i moves
  · dsimp only [Engine.setStage]
    rw [jobs]
    exact h.awaits.set at_i moves

theorem Ordered.lookupArtifact (h : e.Ordered) (at_i : e.jobs[i]? = some j) (open_j : j.isOpen) :
    (e.lookupArtifact i j).Ordered := by
  have books := (h.books.lookup j.hash).1
  unfold Engine.lookupArtifact
  split <;> rename_i looked <;> rw [looked] at books
  · exact h.setStage at_i (CompileJob.movesOn_open open_j _ rfl) rfl rfl rfl books
  · exact h.setStage at_i (CompileJob.movesOn_open open_j _ rfl) rfl rfl rfl books

theorem Ordered.compileArtifact (h : e.Ordered) (at_i : e.jobs[i]? = some j) (open_j : j.isOpen)
    (b : Backend (World β) ι) : (e.compileArtifact b i j).Ordered := by
  unfold Engine.compileArtifact
  split
  · exact h.setStage at_i (CompileJob.movesOn_open open_j _ rfl) rfl rfl rfl h.books
  · exact h.setStage at_i (CompileJob.movesOn_open open_j _ rfl) rfl rfl rfl h.books

theorem Ordered.storeArtifact (h : e.Ordered) (at_i : e.jobs[i]? = some j) (open_j : j.isOpen)
    (b : Backend (World β) ι) (artifact : List UInt8) (now : Nat) :
    (e.storeArtifact b i j artifact now).Ordered := by
  have books := (h.books.insert j.hash artifact j.origin b.name 0 now).1
  rw [Cache.more_zero] at books
  exact h.setStage at_i (CompileJob.movesOn_open open_j _ rfl) rfl rfl rfl books

theorem Ordered.takeWaiters (h : e.Ordered) (at_i : e.jobs[i]? = some j) (open_j : j.isOpen)
    (artifact : List UInt8) (fromCache : Bool) :
    (e.takeWaiters i j artifact fromCache).Ordered := by
  refine h.setStage at_i ⟨rfl, fun _ => open_j, ?_⟩ rfl rfl rfl h.books
  rw [CompileJob.pending_of_open open_j]
  exact List.filter_sublist

/-- A failed compile changes only what a module tells about it. -/
theorem Ordered.failModule (h : e.Ordered) (n : Nat) (error : CompileError) :
    (match e.modules[n]? with
      | some m => e.setModule n (m.failCompile error 0)
      | none => e).Ordered := by
  split
  · rename_i m at_n
    have stands : e.standing? n = some (m.failCompile error 0).standing :=
      congrArg (Option.map LoadedModule.standing) at_n
    exact h.withCache rfl (standing?_restand stands) rfl h.books
  · exact h

theorem Ordered.failWaiters (h : e.Ordered) (i : Nat) (j : CompileJob) (error : CompileError) :
    (e.failWaiters i j error).Ordered := by
  have failed := List.foldlRecOn (motive := Engine.Ordered) (j.waiters.filter e.isAlive) _ h
    fun f ordered n _ => ordered.failModule n error
  exact failed.frame rfl rfl (failed.queued.eraseIdx i) (failed.awaits.eraseIdx i) failed.books

/-! ## Installing -/

/-- A registered module gets native code together with a reference. -/
theorem Ordered.setNative (h : e.Ordered) {n : Nat} {m : LoadedModule (World β) ι} {s : Standing}
    (stands : e.standing? n = some s) (registered : n ∈ e.numbers) (interpreted : s.native = false)
    (undecided : ∀ x ∈ e.jobs, n ∉ x.pending)
    (after : m.standing = { s with holdsReference := true, native := true })
    (same : f.registered = e.registered ∧ f.modules = e.modules ∧ f.jobs = e.jobs)
    (books : f.cache.Balanced (Cache.more e.natives s.hash 1)) : (f.setModule n m).Ordered := by
  have standing : ∀ k, (f.setModule n m).standing? k =
      if k = n then some m.standing else e.standing? k := by
    intro k
    rw [← standing?_congr same.2.1] at stands ⊢
    exact standing?_setModule stands m k
  have numbers : (f.setModule n m).numbers = e.numbers := congrArg (List.map Prod.snd) same.1
  obtain ⟨_, known, serves⟩ := h.serving n registered
  rw [stands, Option.some.injEq] at known
  subst known
  have serving : m.standing.Serving :=
    after ▸ ⟨serves.draining, serves.finalized, serves.inFlight, rfl⟩
  refine h.changeOne standing (fun k _ => by rw [numbers]) (Or.inl ⟨numbers ▸ registered, serving⟩)
    (Or.inr undecided) same.2.2 (same.1 ▸ h.keys) (numbers ▸ h.distinct) ?_
  have parts := List.perm_cons_erase registered
  have others : ∀ k ∈ e.numbers.erase n, (f.setModule n m).standing? k = e.standing? k :=
    fun k hk => (standing k).trans (if_neg fun own : k = n => h.distinct.not_mem_erase (own ▸ hk))
  have before := natives_of_perm parts stands
  have now := natives_of_perm (e := f.setModule n m) (by rw [numbers]; exact parts)
    ((standing n).trans (if_pos rfl))
  rw [interpreted, if_neg Bool.false_ne_true, Cache.more_zero] at before
  rw [funext (countP_isNative_congr others), ← before, after] at now
  rw [now]
  exact books

theorem Ordered.install (h : e.Ordered) (b : Backend (World β) ι) (j : CompileJob)
    (artifact : List UInt8) (fromCache : Bool) {n : Nat} (waits : e.Waits j.hash n)
    (undecided : ∀ x ∈ e.jobs, n ∉ x.pending) (now : Nat) :
    (e.install b j artifact fromCache n now).Ordered := by
  obtain ⟨s, stands, ready⟩ := waits
  obtain ⟨m, at_n, rfl⟩ := Option.map_eq_some_iff.mp stands
  unfold Engine.install
  rw [at_n]
  dsimp only
  split
  · exact h.withCache rfl (standing?_restand stands) rfl h.books
  · rename_i unfinished
    have unfinished : m.finalized = false := Bool.eq_false_iff.mpr unfinished
    obtain ⟨same_hash, interpreted⟩ := ready unfinished
    -- only modules that are registered are not torn down
    have registered : n ∈ e.numbers := by
      by_contra unregistered
      have finished := h.retired n _ stands unregistered
      exact Bool.false_ne_true (unfinished.symm.trans finished)
    have empty : m.native = none := by simpa [LoadedModule.standing] using interpreted
    obtain ⟨balanced, stored, _⟩ := h.books.insert j.hash artifact j.origin b.name 1 now
    have stored : (e.cache.storeAndAcquire j.hash artifact j.origin b.name now).2.isSome = true :=
      stored
    rw [stored]
    split
    · rename_i pool world _
      obtain ⟨after, kept⟩ := LoadedModule.installNative_standing empty pool true
        (e.cache.storeAndAcquire j.hash artifact j.origin b.name now).1
      simp only [unfinished, Bool.not_false, Bool.true_or, Bool.true_and, Bool.false_and,
        Bool.false_eq_true, if_false] at after kept
      refine h.setNative stands registered interpreted undecided after ⟨rfl, rfl, rfl⟩ ?_
      rw [same_hash]
      dsimp only
      rw [kept]
      exact balanced
    · have released := (balanced.release j.hash).1
      rw [Cache.fewer_more] at released
      exact h.withCache rfl (standing?_restand stands) rfl released

theorem Ordered.stepJob (h : e.Ordered) (i now : Nat) : (e.stepJob i now).Ordered := by
  unfold Engine.stepJob
  split
  · rename_i j b at_i _
    split
    · rename_i stage
      exact h.lookupArtifact at_i (by simp [CompileJob.isOpen, stage])
    · rename_i stage
      exact h.compileArtifact at_i (by simp [CompileJob.isOpen, stage]) b
    · rename_i stage
      exact h.storeArtifact at_i (by simp [CompileJob.isOpen, stage]) b _ now
    · rename_i stage
      exact h.takeWaiters at_i (by simp [CompileJob.isOpen, stage]) _ _
    · exact h.failWaiters i j _
    · rename_i artifact fromCache n rest stage
      let k : CompileJob := { j with stage := .installing artifact fromCache rest }
      have pending : j.pending = n :: k.pending := by simp [k, CompileJob.pending, stage]
      have moves : j.MovesOn k := ⟨rfl, nofun, pending ▸ List.sublist_cons_self _ _⟩
      have mine : n ∈ j.pending := pending ▸ List.mem_cons_self
      exact (h.setStage at_i moves rfl rfl rfl h.books).install b j artifact fromCache
        (h.awaits j (List.mem_of_getElem? at_i) n mine) (h.queued.decided at_i pending) now
    · exact h.frame rfl rfl (h.queued.eraseIdx i) (h.awaits.eraseIdx i) h.books
  · exact h

end Engine

end TieredUdf
