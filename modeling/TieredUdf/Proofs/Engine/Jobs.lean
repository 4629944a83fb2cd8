import Mathlib.Data.List.Nodup
import TieredUdf.Engine.Compile

/-! # Jobs and the modules that wait for them

No module waits for two jobs, and no two jobs that can still be joined are for the same bytecode.
What an engine does to its jobs is one of four things: a job moves on, a job ends, a module joins
a job, or a job is begun.
-/

namespace TieredUdf

namespace CompileJob

/-- The numbers of the modules that the job has not decided yet. -/
def pending (j : CompileJob) : List Nat :=
  match j.stage with
  | .installing _ _ modules => modules
  | _ => j.waiters

theorem pending_of_open {j : CompileJob} (h : j.isOpen) : j.pending = j.waiters := by
  unfold isOpen at h
  unfold pending
  split at h <;> simp_all

/-- Two jobs share no module, and not their bytecode while both can be joined. -/
structure Apart (i j : CompileJob) : Prop where
  hashes : i.isOpen → j.isOpen → i.hash ≠ j.hash
  modules : ∀ n ∈ i.pending, n ∉ j.pending

theorem Apart.symm {i j : CompileJob} (h : i.Apart j) : j.Apart i :=
  ⟨fun hj hi same => h.hashes hi hj same.symm, fun n hj hi => h.modules n hi hj⟩

/-- One job is a later state of another. -/
structure MovesOn (j k : CompileJob) : Prop where
  hash : k.hash = j.hash
  isOpen : k.isOpen → j.isOpen
  pending : k.pending.Sublist j.pending

theorem MovesOn.refl (j : CompileJob) : j.MovesOn j := ⟨rfl, id, .refl _⟩

theorem MovesOn.apart {i j k : CompileJob} (h : j.MovesOn k) (apart : j.Apart i) : k.Apart i where
  hashes := fun hk hi => h.hash ▸ apart.hashes (h.isOpen hk) hi
  modules := fun n hk => apart.modules n (h.pending.subset hk)

/-- A job that can be joined goes from stage to stage with the modules that wait for it. -/
theorem movesOn_open {j : CompileJob} (h : j.isOpen) (stage : JobStage)
    (still : CompileJob.isOpen { j with stage := stage }) :
    j.MovesOn { j with stage := stage } := by
  refine ⟨rfl, fun _ => h, ?_⟩
  rw [pending_of_open h, pending_of_open still]

/-- A job after a module has tried to join it. -/
def accept (hash : ContentHash) (number : Nat) (j : CompileJob) : CompileJob :=
  if j.isOpen ∧ j.hash = hash then { j with waiters := j.waiters ++ [number] } else j

theorem accept_of_not {hash : ContentHash} {j : CompileJob} (refuses : ¬ (j.isOpen ∧ j.hash = hash))
    (n : Nat) : j.accept hash n = j := if_neg refuses

theorem accept_isOpen (hash : ContentHash) (n : Nat) (j : CompileJob) :
    (j.accept hash n).isOpen = j.isOpen := by
  unfold accept
  split <;> rfl

theorem accept_hash (hash : ContentHash) (n : Nat) (j : CompileJob) :
    (j.accept hash n).hash = j.hash := by
  unfold accept
  split <;> rfl

theorem pending_accept (hash : ContentHash) (n : Nat) (j : CompileJob) :
    (j.accept hash n).pending =
      if j.isOpen ∧ j.hash = hash then j.pending ++ [n] else j.pending := by
  unfold accept
  split
  · rename_i admits
    have still : CompileJob.isOpen { j with waiters := j.waiters ++ [n] } := admits.1
    rw [pending_of_open still, pending_of_open admits.1]
  · rfl

theorem mem_pending_accept (hash : ContentHash) (n : Nat) (j : CompileJob) (m : Nat) :
    m ∈ (j.accept hash n).pending ↔ m ∈ j.pending ∨ (m = n ∧ j.isOpen ∧ j.hash = hash) := by
  rw [pending_accept]
  split <;> rename_i admits <;> simp [admits]

end CompileJob

theorem Engine.join_eq (hash : ContentHash) (n : Nat) (jobs : List CompileJob) :
    Engine.join hash n jobs = jobs.map (CompileJob.accept hash n) := rfl

open CompileJob (Apart)

/-- Jobs that are apart from one another. -/
structure Queued (jobs : List CompileJob) : Prop where
  apart : jobs.Pairwise Apart
  distinct : ∀ j ∈ jobs, j.pending.Nodup

/-- Every module that waits for a job, with the hash of the job, has a property. -/
def Awaits (P : ContentHash → Nat → Prop) (jobs : List CompileJob) : Prop :=
  ∀ j ∈ jobs, ∀ n ∈ j.pending, P j.hash n

/-- A place in a list of jobs. -/
theorem jobs_split {jobs : List CompileJob} {i : Nat} {j : CompileJob}
    (at_i : jobs[i]? = some j) :
    ∃ before after, jobs = before ++ j :: after ∧ before.length = i := by
  obtain ⟨small, rfl⟩ := List.getElem?_eq_some_iff.mp at_i
  refine ⟨jobs.take i, jobs.drop (i + 1), ?_, ?_⟩
  · simp
  · simp [Nat.le_of_lt small]

/-- A relation between jobs outlasts a change of one of them that keeps it. -/
theorem pairwise_set {R : CompileJob → CompileJob → Prop} {jobs : List CompileJob} {i : Nat}
    {j k : CompileJob} (at_i : jobs[i]? = some j) (pairs : jobs.Pairwise R)
    (before : ∀ x, R j x → R k x) (after : ∀ x, R x j → R x k) : (jobs.set i k).Pairwise R := by
  obtain ⟨front, back, rfl, rfl⟩ := jobs_split at_i
  obtain ⟨first, rest, across⟩ := List.pairwise_append.mp pairs
  obtain ⟨next, last⟩ := List.pairwise_cons.mp rest
  rw [List.set_append_right _ _ (Nat.le_refl _), Nat.sub_self, List.set_cons_zero]
  refine List.pairwise_append.mpr ⟨first, List.pairwise_cons.mpr ⟨?_, last⟩, ?_⟩
  · exact fun x hx => before x (next x hx)
  · intro x hx y hy
    rcases List.mem_cons.mp hy with rfl | later
    · exact after x (across x hx j List.mem_cons_self)
    · exact across x hx y (List.mem_cons_of_mem _ later)

namespace Queued

variable {jobs : List CompileJob} {i : Nat} {j k : CompileJob}

theorem nil : Queued [] := ⟨.nil, nofun⟩

/-- A job moves on. -/
theorem set (h : Queued jobs) (at_i : jobs[i]? = some j) (moves : j.MovesOn k) :
    Queued (jobs.set i k) := by
  refine ⟨pairwise_set at_i h.apart (fun x => moves.apart)
    (fun x apart => (moves.apart apart.symm).symm), fun x hx => ?_⟩
  rcases List.mem_or_eq_of_mem_set hx with old | rfl
  · exact h.distinct x old
  · exact (h.distinct j (List.mem_of_getElem? at_i)).sublist moves.pending

/-- A module that a job has decided waits for no job. -/
theorem decided (h : Queued jobs) (at_i : jobs[i]? = some j) {n : Nat}
    (waits : j.pending = n :: k.pending) : ∀ x ∈ jobs.set i k, n ∉ x.pending := by
  obtain ⟨before, after, rfl, rfl⟩ := jobs_split at_i
  obtain ⟨apart, distinct⟩ := h
  obtain ⟨_, rest, across⟩ := List.pairwise_append.mp apart
  have mine : n ∈ j.pending := by simp [waits]
  rw [List.set_append_right _ _ (Nat.le_refl _), Nat.sub_self, List.set_cons_zero]
  intro x hx
  rcases List.mem_append.mp hx with old | here
  · exact fun waiting => (across x old j List.mem_cons_self).modules n waiting mine
  · rcases List.mem_cons.mp here with rfl | later
    · have nodup := distinct j (by simp)
      rw [waits] at nodup
      exact (List.nodup_cons.mp nodup).1
    · exact ((List.pairwise_cons.mp rest).1 x later).modules n mine

/-- A job ends. -/
theorem eraseIdx (h : Queued jobs) (i : Nat) : Queued (jobs.eraseIdx i) :=
  ⟨h.apart.sublist (List.eraseIdx_sublist _ _), fun j hj =>
    h.distinct j (List.mem_of_mem_eraseIdx hj)⟩

/-- A job is begun for a module, when none can be joined. -/
theorem append (h : Queued jobs) (new : ∀ x ∈ jobs, x.isOpen → x.hash ≠ j.hash) {n : Nat}
    (fresh : ∀ x ∈ jobs, n ∉ x.pending) (waits : j.pending = [n]) : Queued (jobs ++ [j]) := by
  refine ⟨List.pairwise_append.mpr ⟨h.apart, List.pairwise_singleton _ _, ?_⟩, ?_⟩
  · intro x hx y hy
    obtain rfl := List.mem_singleton.mp hy
    refine ⟨fun open_x _ => new x hx open_x, fun m hm mine => ?_⟩
    rw [waits, List.mem_singleton] at mine
    exact fresh x hx (mine ▸ hm)
  · intro x hx
    rcases List.mem_append.mp hx with old | last
    · exact h.distinct x old
    · rw [List.mem_singleton.mp last, waits]
      exact List.nodup_singleton n

/-- A module joins the job that can be joined. -/
theorem join (h : Queued jobs) (hash : ContentHash) {n : Nat}
    (fresh : ∀ x ∈ jobs, n ∉ x.pending) : Queued (Engine.join hash n jobs) := by
  rw [Engine.join_eq]
  constructor
  · refine List.pairwise_map.mpr (h.apart.imp_of_mem fun {x y} hx hy apart => ⟨?_, fun m => ?_⟩)
    · simp only [CompileJob.accept_isOpen, CompileJob.accept_hash]
      exact apart.hashes
    · rw [CompileJob.mem_pending_accept, CompileJob.mem_pending_accept]
      -- two jobs that both take the module in would share their bytecode
      rintro (old | ⟨rfl, open_x, same_x⟩) (other | ⟨same, open_y, same_y⟩)
      · exact apart.modules m old other
      · exact fresh x hx (same ▸ old)
      · exact fresh y hy other
      · exact apart.hashes open_x open_y (same_x.trans same_y.symm)
  · intro x hx
    obtain ⟨y, hy, rfl⟩ := List.mem_map.mp hx
    rw [CompileJob.pending_accept]
    split
    · exact List.nodup_append.mpr ⟨h.distinct y hy, List.nodup_singleton n, fun a ha b hb same =>
        fresh y hy (List.mem_singleton.mp hb ▸ same ▸ ha)⟩
    · exact h.distinct y hy

end Queued

namespace Awaits

variable {P : ContentHash → Nat → Prop} {jobs : List CompileJob} {i : Nat} {j k : CompileJob}

theorem mono {Q : ContentHash → Nat → Prop} (h : Awaits P jobs)
    (imp : ∀ hash n, P hash n → Q hash n) : Awaits Q jobs :=
  fun x hx n hn => imp x.hash n (h x hx n hn)

theorem set (h : Awaits P jobs) (at_i : jobs[i]? = some j) (moves : j.MovesOn k) :
    Awaits P (jobs.set i k) := by
  intro x hx n hn
  rcases List.mem_or_eq_of_mem_set hx with old | rfl
  · exact h x old n hn
  · rw [moves.hash]
    exact h j (List.mem_of_getElem? at_i) n (moves.pending.subset hn)

theorem eraseIdx (h : Awaits P jobs) (i : Nat) : Awaits P (jobs.eraseIdx i) :=
  fun x hx => h x (List.mem_of_mem_eraseIdx hx)

theorem append (h : Awaits P jobs) (new : ∀ n ∈ j.pending, P j.hash n) :
    Awaits P (jobs ++ [j]) := by
  intro x hx
  rcases List.mem_append.mp hx with old | last
  · exact h x old
  · rw [List.mem_singleton.mp last]
    exact new

theorem join (h : Awaits P jobs) {hash : ContentHash} {n : Nat} (new : P hash n) :
    Awaits P (Engine.join hash n jobs) := by
  rw [Engine.join_eq]
  intro x hx m hm
  obtain ⟨y, hy, rfl⟩ := List.mem_map.mp hx
  rw [CompileJob.accept_hash]
  rcases (CompileJob.mem_pending_accept hash n y m).mp hm with old | ⟨rfl, _, rfl⟩
  · exact h y hy m old
  · exact new

end Awaits

end TieredUdf
