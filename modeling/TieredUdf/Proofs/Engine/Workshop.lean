import Mathlib.Data.List.Nodup
import Mathlib.Logic.Relation
import TieredUdf.Proofs.Engine.Settlement

/-! # Jobs in any order

A workshop is an engine that numbers its compile jobs and notes which modules were passed on to be
compiled.  Modules are passed on and jobs step in any order, and anything else may happen to the
engine between, as long as it leaves the jobs and the outcome of compiles alone.  At all times no
two open jobs are for the same bytecode, and a module that was passed on waits for a job or is
decided.
-/

namespace TieredUdf

variable {β ω ι : Type}

/-- One module is a later state of another while no job works on it. -/
structure LoadedModule.Continues (m n : LoadedModule ω ι) : Prop where
  descriptor : n.descriptor = m.descriptor
  compile : n.stats.compile = m.stats.compile
  settled : m.settled = true → n.settled = true
  finalized : m.finalized = true → n.finalized = true

theorem LoadedModule.Continues.follows {m n : LoadedModule ω ι} (h : m.Continues n) :
    m.Follows n where
  descriptor := h.descriptor
  settled := h.settled
  finalized := h.finalized
  outcome := fun known => by
    rw [HasOutcome, h.compile]
    exact known

def CompileJob.begunFor (n : Nat) (m : LoadedModule ω ι) : CompileJob :=
  ⟨m.hash, m.descriptor.bytecode, m.key.text, [n], .queued⟩

namespace Engine

/-- What happens to an engine apart from its jobs: modules come, are called and go, and one that is
gone does not come back. -/
structure Elsewhere (e f : Engine β ι) : Prop where
  jobs : f.jobs = e.jobs
  modules : ∀ (n : Nat) m, e.modules[n]? = some m →
    ∃ k, f.modules[n]? = some k ∧ m.Continues k
  alive : ∀ (n : Nat) m, e.modules[n]? = some m → f.isAlive n → e.isAlive n

theorem Elsewhere.succeeds {e f : Engine β ι} (h : e.Elsewhere f) : e.Succeeds f where
  modules := fun n m at_n => by
    obtain ⟨k, at_n', continues⟩ := h.modules n m at_n
    exact ⟨k, at_n', continues.follows⟩
  alive := h.alive

/-- There is a module with the bytecode of a job. -/
def Loaded (e : Engine β ι) (h : ContentHash) (n : Nat) : Prop :=
  ∃ m, e.modules[n]? = some m ∧ m.hash = h

theorem Loaded.mono {e f : Engine β ι} {h : ContentHash} {n : Nat} (loaded : e.Loaded h n)
    (later : e.Succeeds f) : f.Loaded h n := by
  obtain ⟨m, at_n, rfl⟩ := loaded
  obtain ⟨k, at_n', follows⟩ := later.modules n m at_n
  exact ⟨k, at_n', congrArg Descriptor.hash follows.descriptor⟩

/-- A module joins the open job of its bytecode, or a job is begun for it because there is none. -/
theorem schedule_cases (e : Engine β ι) (n : Nat) (m : LoadedModule (World β) ι) :
    e.Succeeds (e.schedule n m) ∧
    ((∃ j ∈ e.jobs, j.isOpen ∧ j.hash = m.hash ∧
        (e.schedule n m).jobs = e.jobs.map (CompileJob.accept m.hash n)) ∨
      (∀ j ∈ e.jobs, j.isOpen → j.hash ≠ m.hash) ∧
        (e.schedule n m).jobs =
          e.jobs ++ [.begunFor n m]) := by
  unfold schedule
  split
  · rename_i joins
    obtain ⟨j, hj, admits⟩ := List.any_eq_true.mp joins
    rw [Bool.and_eq_true, beq_iff_eq] at admits
    exact ⟨succeeds_of_eq rfl rfl, Or.inl ⟨j, hj, admits.1, admits.2, rfl⟩⟩
  · rename_i starts
    refine ⟨succeeds_of_eq rfl rfl, Or.inr ⟨fun j hj open_j same => starts ?_, rfl⟩⟩
    exact List.any_eq_true.mpr ⟨j, hj, by simp [open_j, same]⟩

end Engine

/-- An engine with notes on its jobs and on what they are for. -/
structure Workshop (β ι : Type) where
  engine : Engine β ι
  /-- The numbers of the unfinished jobs, in their order. -/
  serials : List Nat
  /-- How many jobs have been begun. -/
  begun : Nat
  /-- The modules that were passed on, as often as they were. -/
  passed : List Nat

namespace Workshop

def ofEngine (e : Engine β ι) : Workshop β ι := ⟨e, [], 0, []⟩

/-- The unfinished job of a number is in some state. -/
def At (w : Workshop β ι) (s : Nat) (j : CompileJob) : Prop :=
  ∃ i : Nat, w.serials[i]? = some s ∧ w.engine.jobs[i]? = some j

def schedule (w : Workshop β ι) (n : Nat) (m : LoadedModule (World β) ι) : Workshop β ι :=
  let after := w.engine.schedule n m
  if w.engine.jobs.length < after.jobs.length then
    { engine := after
      serials := w.serials ++ [w.begun]
      begun := w.begun + 1
      passed := n :: w.passed }
  else { w with engine := after, passed := n :: w.passed }

def stepJob (w : Workshop β ι) (i now : Nat) : Workshop β ι :=
  let after := w.engine.stepJob i now
  { w with
    engine := after
    serials :=
      if after.jobs.length < w.engine.jobs.length then w.serials.eraseIdx i else w.serials }

inductive Step (w : Workshop β ι) : Workshop β ι → Prop where
  | elsewhere {f : Engine β ι} (h : w.engine.Elsewhere f) : Step w { w with engine := f }
  | schedule {n : Nat} {m : LoadedModule (World β) ι} (loaded : w.engine.modules[n]? = some m) :
      Step w (w.schedule n m)
  | stepJob (i now : Nat) : Step w (w.stepJob i now)

abbrev Runs (w v : Workshop β ι) : Prop := Relation.ReflTransGen Step w v

variable {w v : Workshop β ι}

/-! ## What a step does -/

theorem schedule_effect (w : Workshop β ι) (n : Nat) (m : LoadedModule (World β) ι) :
    (w.schedule n m).engine = w.engine.schedule n m ∧ (w.schedule n m).passed = n :: w.passed ∧
    ((∃ j ∈ w.engine.jobs, j.isOpen ∧ j.hash = m.hash ∧
        (w.schedule n m).engine.jobs = w.engine.jobs.map (CompileJob.accept m.hash n) ∧
        (w.schedule n m).serials = w.serials ∧ (w.schedule n m).begun = w.begun) ∨
      (∀ j ∈ w.engine.jobs, j.isOpen → j.hash ≠ m.hash) ∧
        (w.schedule n m).engine.jobs =
          w.engine.jobs ++ [.begunFor n m] ∧
        (w.schedule n m).serials = w.serials ++ [w.begun] ∧
        (w.schedule n m).begun = w.begun + 1) := by
  unfold schedule
  dsimp only
  rcases (w.engine.schedule_cases n m).2 with ⟨j, hj, open_j, same, jobs⟩ | ⟨new, jobs⟩
  · have kept : ¬ w.engine.jobs.length < (w.engine.schedule n m).jobs.length := by
      rw [jobs, List.length_map]
      exact Nat.lt_irrefl _
    rw [if_neg kept]
    exact ⟨rfl, rfl, Or.inl ⟨j, hj, open_j, same, jobs, rfl, rfl⟩⟩
  · have longer : w.engine.jobs.length < (w.engine.schedule n m).jobs.length := by
      rw [jobs, List.length_append]
      exact Nat.lt_succ_self _
    rw [if_pos longer]
    exact ⟨rfl, rfl, Or.inr ⟨new, jobs, rfl, rfl⟩⟩

/-- Nothing happens when there is no such job. -/
theorem stepJob_effect (i now : Nat) (awaits : Awaits w.engine.Loaded w.engine.jobs) :
    w.stepJob i now = w ∨ ∃ j next, w.engine.Advances (w.stepJob i now).engine i j next ∧
      (w.stepJob i now).serials = (match next with
        | some _ => w.serials
        | none => w.serials.eraseIdx i) := by
  have loaded : ∀ j ∈ w.engine.jobs, ∀ n ∈ j.pending, ∃ m, w.engine.modules[n]? = some m :=
    fun j hj n hn => by
      obtain ⟨m, at_n, _⟩ := awaits j hj n hn
      exact ⟨m, at_n⟩
  rcases Engine.stepJob_advances i now loaded with idle | ⟨j, next, advances⟩
  · refine Or.inl ?_
    unfold stepJob
    rw [idle]
    simp
  · refine Or.inr ⟨j, next, advances, ?_⟩
    have jobs := congrArg List.length advances.jobs
    obtain ⟨small, _⟩ := List.getElem?_eq_some_iff.mp advances.at_i
    unfold stepJob
    dsimp only
    cases next with
    | some k =>
        rw [List.length_set] at jobs
        rw [if_neg (by omega)]
    | none =>
        rw [List.length_eraseIdx_of_lt small] at jobs
        rw [if_pos (by omega)]

/-! ## What every step preserves -/

/-- The modules that wait for some jobs, as often as they do. -/
def waiting (jobs : List CompileJob) : List Nat := jobs.flatMap CompileJob.pending

theorem mem_waiting {jobs : List CompileJob} {n : Nat} :
    n ∈ waiting jobs ↔ ∃ j ∈ jobs, n ∈ j.pending :=
  List.mem_flatMap

/-- No two open jobs are for the same bytecode. -/
def Coalesced (jobs : List CompileJob) : Prop :=
  jobs.Pairwise fun j k => j.isOpen → k.isOpen → j.hash ≠ k.hash

structure Kept (w : Workshop β ι) : Prop where
  parallel : w.serials.length = w.engine.jobs.length
  distinct : w.serials.Nodup
  begun : ∀ s ∈ w.serials, s < w.begun
  coalesced : Coalesced w.engine.jobs
  awaits : Awaits w.engine.Loaded w.engine.jobs
  counted : ∀ n, (waiting w.engine.jobs).count n ≤ w.passed.count n
  decided : ∀ n ∈ w.passed, n ∉ waiting w.engine.jobs → w.engine.Decided n

theorem kept_ofEngine {e : Engine β ι} (idle : e.jobs = []) : (ofEngine e).Kept := by
  have jobs : (ofEngine e).engine.jobs = [] := idle
  refine ⟨?_, List.nodup_nil, nofun, ?_, ?_, ?_, nofun⟩
  · rw [jobs]
    rfl
  · rw [jobs]
    exact .nil
  · rw [jobs]
    exact nofun
  · intro n
    rw [jobs]
    exact Nat.zero_le _

theorem Kept.elsewhere (h : w.Kept) {f : Engine β ι} (elsewhere : w.engine.Elsewhere f) :
    Kept { w with engine := f } := by
  have succeeds := elsewhere.succeeds
  have jobs : f.jobs = w.engine.jobs := elsewhere.jobs
  refine ⟨?_, h.distinct, h.begun, ?_, ?_, ?_, ?_⟩ <;> dsimp only <;> rw [jobs]
  · exact h.parallel
  · exact h.coalesced
  · exact h.awaits.mono fun _ _ loaded => loaded.mono succeeds
  · exact h.counted
  · exact fun n passed gone => (h.decided n passed gone).mono succeeds

/-! ### Passing on -/

theorem Coalesced.join {jobs : List CompileJob} (h : Coalesced jobs) (hash : ContentHash)
    (n : Nat) : Coalesced (jobs.map (CompileJob.accept hash n)) := by
  refine List.pairwise_map.mpr (h.imp fun {j k} apart => ?_)
  simp only [CompileJob.accept_isOpen, CompileJob.accept_hash]
  exact apart

/-- Only one job takes a module in. -/
theorem Coalesced.count_join {jobs : List CompileJob} (h : Coalesced jobs) (hash : ContentHash)
    (n k : Nat) :
    (waiting (jobs.map (CompileJob.accept hash n))).count k ≤
      (waiting jobs).count k + [n].count k := by
  induction jobs with
  | nil => exact Nat.zero_le _
  | cons j jobs ih =>
      obtain ⟨first, rest⟩ := List.pairwise_cons.mp h
      have others := ih rest
      simp only [waiting, List.map_cons, List.flatMap_cons, List.count_append] at others ⊢
      by_cases admits : j.isOpen ∧ j.hash = hash
      · have same : jobs.map (CompileJob.accept hash n) = jobs := by
          refine (List.map_congr_left fun x hx => ?_).trans (List.map_id jobs)
          refine CompileJob.accept_of_not (fun again => ?_) n
          exact first x hx admits.1 again.1 (admits.2.trans again.2.symm)
        rw [same, CompileJob.pending_accept, if_pos admits, List.count_append]
        omega
      · rw [CompileJob.accept_of_not admits]
        omega

theorem Kept.waiting_schedule (h : w.Kept) (n : Nat) (m : LoadedModule (World β) ι) :
    (∀ k, (waiting (w.schedule n m).engine.jobs).count k ≤
      (waiting w.engine.jobs).count k + [n].count k) ∧
    n ∈ waiting (w.schedule n m).engine.jobs ∧
    waiting w.engine.jobs ⊆ waiting (w.schedule n m).engine.jobs := by
  obtain ⟨_, _, ⟨j, hj, open_j, same, jobs, _⟩ | ⟨_, jobs, _⟩⟩ := w.schedule_effect n m
  · rw [jobs]
    refine ⟨h.coalesced.count_join m.hash n, ?_, fun k waits => ?_⟩
    · refine mem_waiting.mpr ⟨_, List.mem_map_of_mem hj, ?_⟩
      exact (CompileJob.mem_pending_accept m.hash n j n).mpr (Or.inr ⟨rfl, open_j, same⟩)
    · obtain ⟨x, hx, pending⟩ := mem_waiting.mp waits
      refine mem_waiting.mpr ⟨_, List.mem_map_of_mem hx, ?_⟩
      exact (CompileJob.mem_pending_accept m.hash n x k).mpr (Or.inl pending)
  · have added : waiting (w.schedule n m).engine.jobs = waiting w.engine.jobs ++ [n] := by
      rw [jobs]
      simp [waiting, CompileJob.pending, CompileJob.begunFor]
    rw [added]
    refine ⟨fun k => Nat.le_of_eq List.count_append, ?_, List.subset_append_left _ _⟩
    exact List.mem_append_right _ (List.mem_singleton.mpr rfl)

theorem Kept.schedule (h : w.Kept) {n : Nat} {m : LoadedModule (World β) ι}
    (loaded : w.engine.modules[n]? = some m) : (w.schedule n m).Kept := by
  obtain ⟨engine, passed, effect⟩ := w.schedule_effect n m
  obtain ⟨counts, waits, still⟩ := h.waiting_schedule n m
  have succeeds := (w.engine.schedule_cases n m).1
  rw [← engine] at succeeds
  have known : (w.schedule n m).engine.Loaded m.hash n :=
    Engine.Loaded.mono ⟨m, loaded, rfl⟩ succeeds
  have awaits : Awaits (w.schedule n m).engine.Loaded w.engine.jobs :=
    h.awaits.mono fun _ _ loaded => loaded.mono succeeds
  have counted : ∀ k, (waiting (w.schedule n m).engine.jobs).count k ≤
      (w.schedule n m).passed.count k := by
    intro k
    have before := h.counted k
    have more := counts k
    rw [passed, List.count_cons, ← List.count_singleton]
    omega
  have decided : ∀ k ∈ (w.schedule n m).passed, k ∉ waiting (w.schedule n m).engine.jobs →
      (w.schedule n m).engine.Decided k := by
    intro k hk gone
    rw [passed] at hk
    rcases List.mem_cons.mp hk with rfl | earlier
    · exact absurd waits gone
    · exact (h.decided k earlier fun before => gone (still before)).mono succeeds
  rcases effect with ⟨j, hj, open_j, same, jobs, serials, begun⟩ | ⟨new, jobs, serials, begun⟩
  · refine ⟨?_, serials ▸ h.distinct, ?_, ?_, ?_, counted, decided⟩
    · rw [serials, jobs, List.length_map]
      exact h.parallel
    · rw [serials, begun]
      exact h.begun
    · rw [jobs]
      exact h.coalesced.join m.hash n
    · rw [jobs, ← Engine.join_eq]
      exact awaits.join known
  · refine ⟨?_, ?_, ?_, ?_, ?_, counted, decided⟩
    · rw [serials, jobs, List.length_append, List.length_append, h.parallel]
      rfl
    · rw [serials]
      refine List.nodup_append.mpr ⟨h.distinct, List.nodup_singleton _, fun s hs t ht same => ?_⟩
      exact Nat.lt_irrefl _ (List.mem_singleton.mp ht ▸ same ▸ h.begun s hs)
    · rw [serials, begun]
      intro s hs
      rcases List.mem_append.mp hs with old | last
      · exact Nat.lt_succ_of_lt (h.begun s old)
      · exact List.mem_singleton.mp last ▸ Nat.lt_succ_self _
    · rw [jobs]
      refine List.pairwise_append.mpr ⟨h.coalesced, List.pairwise_singleton _ _, ?_⟩
      intro x hx y hy open_x _
      rw [List.mem_singleton.mp hy]
      exact new x hx open_x
    · rw [jobs]
      refine awaits.append fun k pending => ?_
      rw [List.mem_singleton.mp pending]
      exact known

/-! ### Steps of jobs -/

/-- A job that advances gives up some modules that wait, and these are decided. -/
theorem waiting_advances {f : Engine β ι} {i : Nat} {j : CompileJob} {next : Option CompileJob}
    (advances : w.engine.Advances f i j next) :
    (waiting f.jobs).Sublist (waiting w.engine.jobs) ∧
      ∀ n ∈ waiting w.engine.jobs, n ∉ waiting f.jobs → f.Decided n := by
  obtain ⟨before, after, jobs, jobs'⟩ := advances.split
  have left : (waiting next.toList).Sublist j.pending := by
    cases next with
    | none => exact List.nil_sublist _
    | some k => simpa [waiting] using (advances.moves k rfl).1.pending
  have parts : waiting w.engine.jobs = waiting before ++ (j.pending ++ waiting after) := by
    simp [waiting, jobs]
  have parts' : waiting f.jobs = waiting before ++ (waiting next.toList ++ waiting after) := by
    simp [waiting, jobs']
  rw [parts, parts']
  refine ⟨(left.append_right _).append_left _, fun n waits gone => ?_⟩
  simp only [List.mem_append, not_or] at waits gone
  obtain ⟨no_front, no_next, no_back⟩ := gone
  refine advances.decided n ((waits.resolve_left no_front).resolve_right no_back) fun k hk => ?_
  cases hk
  exact fun pending => no_next (mem_waiting.mpr ⟨k, by simp, pending⟩)

theorem Coalesced.advances {f : Engine β ι} {i : Nat} {j : CompileJob} {next : Option CompileJob}
    (h : Coalesced w.engine.jobs) (advances : w.engine.Advances f i j next) :
    Coalesced f.jobs := by
  rw [Coalesced, advances.jobs]
  cases next with
  | none => exact h.sublist (List.eraseIdx_sublist _ _)
  | some k =>
      obtain ⟨hash, isOpen, _⟩ := (advances.moves k rfl).1
      refine pairwise_set advances.at_i h (fun x apart open_k open_x => ?_)
        fun x apart open_x open_k => ?_
      · rw [hash]
        exact apart (isOpen open_k) open_x
      · rw [hash]
        exact apart open_x (isOpen open_k)

theorem awaits_advances {f : Engine β ι} {i : Nat} {j : CompileJob} {next : Option CompileJob}
    (h : Awaits w.engine.Loaded w.engine.jobs) (advances : w.engine.Advances f i j next) :
    Awaits f.Loaded f.jobs := by
  have later : Awaits f.Loaded w.engine.jobs :=
    h.mono fun _ _ loaded => loaded.mono advances.modules
  rw [advances.jobs]
  cases next with
  | none => exact later.eraseIdx i
  | some k => exact later.set advances.at_i (advances.moves k rfl).1

theorem Kept.stepJob (h : w.Kept) (i now : Nat) : (w.stepJob i now).Kept := by
  rcases stepJob_effect i now h.awaits with idle | ⟨j, next, advances, serials⟩
  · rwa [idle]
  · obtain ⟨fewer, settled⟩ := waiting_advances advances
    have kept : (w.stepJob i now).serials.Sublist w.serials := by
      rw [serials]
      cases next with
      | some k => exact .refl _
      | none => exact List.eraseIdx_sublist _ _
    refine ⟨?_, h.distinct.sublist kept, fun s hs => h.begun s (kept.subset hs),
      h.coalesced.advances advances, awaits_advances h.awaits advances, fun n => ?_,
      fun n passed gone => ?_⟩
    · rw [serials, advances.jobs]
      cases next with
      | some k => simpa using h.parallel
      | none => simp only [List.length_eraseIdx, h.parallel]
    · exact Nat.le_trans (fewer.count_le n) (h.counted n)
    · by_cases before : n ∈ waiting w.engine.jobs
      · exact settled n before gone
      · exact (h.decided n passed before).mono advances.modules

theorem Step.kept (h : w.Kept) (step : Step w v) : v.Kept := by
  cases step with
  | elsewhere elsewhere => exact h.elsewhere elsewhere
  | schedule loaded => exact h.schedule loaded
  | stepJob i now => exact h.stepJob i now

theorem Kept.runs (h : w.Kept) (runs : Runs w v) : v.Kept := by
  induction runs with
  | refl => exact h
  | tail _ step ih => exact step.kept ih

/-! ## What no step takes back -/

theorem Step.succeeds (h : w.Kept) (step : Step w v) : w.engine.Succeeds v.engine := by
  cases step with
  | elsewhere elsewhere => exact elsewhere.succeeds
  | schedule loaded =>
      rw [(w.schedule_effect _ _).1]
      exact (w.engine.schedule_cases _ _).1
  | stepJob i now =>
      rcases stepJob_effect i now h.awaits with idle | ⟨j, next, advances, _⟩
      · rw [idle]
        exact .refl _
      · exact advances.modules

theorem Kept.succeeds (h : w.Kept) (runs : Runs w v) : w.engine.Succeeds v.engine := by
  induction runs with
  | refl => exact .refl _
  | tail before step ih => exact ih.trans (step.succeeds (h.runs before))

end Workshop

end TieredUdf
