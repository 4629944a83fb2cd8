import Mathlib.Data.List.Nodup
import Mathlib.Logic.Function.Basic
import TieredUdf.Proofs.Module.Teardown

/-! # A drain, step by step

A call enters and leaves in steps, and so does a drain take place; between two of these steps the
others take theirs.  The last call that leaves first gives up its place and looks only then whether
the module drains.  In between another call may be admitted and a drain may begin, and then the
module is torn down under that call.  This is the only way in which it happens.
-/

namespace TieredUdf

variable {ω ι : Type}

/-- How far a call has come. -/
inductive Passage where
  | outside
  /-- It is counted, and it looks whether the module drains. -/
  | arrived
  | admitted
  | refused
  /-- It has left as the only one, and it looks whether the module drains. -/
  | leaving
  | tearing
  | gone
  deriving DecidableEq

/-- Whether the module counts the call as one in flight. -/
def Passage.counted : Passage → Bool
  | .arrived | .admitted | .refused => true
  | _ => false

/-- How far a drain has come. -/
inductive Drainer where
  | idle
  /-- Calls are refused, and it looks whether any are in flight. -/
  | looking
  | tearing
  deriving DecidableEq

inductive Party where
  | call (number : Nat)
  | drainer
  deriving DecidableEq

/-- A module with any number of calls and one that drains it. -/
structure Doorway (ω ι : Type) where
  module : LoadedModule ω ι
  cache : Cache
  stage : Nat → Passage
  drainer : Drainer

namespace Doorway

def ofModule (m : LoadedModule ω ι) (c : Cache) : Doorway ω ι := ⟨m, c, fun _ => .outside, .idle⟩

def move (s : Doorway ω ι) (i : Nat) (stage : Passage) : Doorway ω ι :=
  { s with stage := Function.update s.stage i stage }

def withPair (s : Doorway ω ι) (pair : LoadedModule ω ι × Cache) : Doorway ω ι :=
  { s with module := pair.1, cache := pair.2 }

def withModule (s : Doorway ω ι) (m : LoadedModule ω ι) : Doorway ω ι := s.withPair (m, s.cache)

def finalize (s : Doorway ω ι) : Doorway ω ι := s.withPair (s.module.finalize s.cache).2

def callStep (now : Nat) (s : Doorway ω ι) (i : Nat) : Doorway ω ι :=
  match s.stage i with
  | .outside => (s.withModule s.module.arrive).move i .arrived
  | .arrived =>
      if s.module.draining then
        (s.withModule (s.module.recordRejection (.draining s.module.key) now)).move i .refused
      else s.move i .admitted
  | .admitted | .refused =>
      (s.withModule s.module.leave.1).move i (if s.module.leave.2 then .leaving else .gone)
  | .leaving => s.move i (if s.module.draining then .tearing else .gone)
  | .tearing => s.finalize.move i .gone
  | .gone => s

/-- One step of a drain.  It may be begun again when it is over. -/
def drainStep (s : Doorway ω ι) : Doorway ω ι :=
  match s.drainer with
  | .idle => { s.withModule s.module.startDraining with drainer := .looking }
  | .looking => { s with drainer := if s.module.inFlight = 0 then .tearing else .idle }
  | .tearing => { s.finalize with drainer := .idle }

def step (now : Nat) (s : Doorway ω ι) : Party → Doorway ω ι
  | .call i => s.callStep now i
  | .drainer => s.drainStep

def run (now : Nat) (s : Doorway ω ι) (schedule : List Party) : Doorway ω ι :=
  schedule.foldl (step now) s

variable {s t : Doorway ω ι} {now : Nat}

@[simp] theorem move_stage (s : Doorway ω ι) (i : Nat) (stage : Passage) :
    (s.move i stage).stage i = stage := by simp [move]

theorem move_stage_other {i j : Nat} (other : j ≠ i) (s : Doorway ω ι) (stage : Passage) :
    (s.move i stage).stage j = s.stage j := by simp [move, other]

@[simp] theorem move_move (s : Doorway ω ι) (i : Nat) (first second : Passage) :
    (s.move i first).move i second = s.move i second := by
  simp [move]

@[simp] theorem move_module (s : Doorway ω ι) (i : Nat) (stage : Passage) :
    (s.move i stage).module = s.module := rfl

@[simp] theorem move_cache (s : Doorway ω ι) (i : Nat) (stage : Passage) :
    (s.move i stage).cache = s.cache := rfl

@[simp] theorem move_withPair (s : Doorway ω ι) (i : Nat) (stage : Passage)
    (pair : LoadedModule ω ι × Cache) :
    (s.move i stage).withPair pair = (s.withPair pair).move i stage := rfl

@[simp] theorem withPair_module (s : Doorway ω ι) (pair : LoadedModule ω ι × Cache) :
    (s.withPair pair).module = pair.1 := rfl

@[simp] theorem withPair_cache (s : Doorway ω ι) (pair : LoadedModule ω ι × Cache) :
    (s.withPair pair).cache = pair.2 := rfl

@[simp] theorem withPair_stage (s : Doorway ω ι) (pair : LoadedModule ω ι × Cache) :
    (s.withPair pair).stage = s.stage := rfl

@[simp] theorem withPair_withPair (s : Doorway ω ι) (first second : LoadedModule ω ι × Cache) :
    (s.withPair first).withPair second = s.withPair second := rfl

/-! ### One step at each stage -/

theorem step_outside {i : Nat} (h : s.stage i = .outside) :
    s.step now (.call i) = (s.withModule s.module.arrive).move i .arrived := by
  simp [step, callStep, h]

theorem step_arrived {i : Nat} (h : s.stage i = .arrived) :
    s.step now (.call i) =
      if s.module.draining then
        (s.withModule (s.module.recordRejection (.draining s.module.key) now)).move i .refused
      else s.move i .admitted := by
  simp [step, callStep, h]

theorem step_inside {i : Nat} (h : s.stage i = .admitted ∨ s.stage i = .refused) :
    s.step now (.call i) = (s.withModule s.module.leave.1).move i
      (if s.module.leave.2 then .leaving else .gone) := by
  rcases h with h | h <;> simp [step, callStep, h]

theorem step_leaving {i : Nat} (h : s.stage i = .leaving) :
    s.step now (.call i) = s.move i (if s.module.draining then .tearing else .gone) := by
  simp [step, callStep, h]

theorem step_tearing {i : Nat} (h : s.stage i = .tearing) :
    s.step now (.call i) = s.finalize.move i .gone := by
  simp [step, callStep, h]

theorem step_gone {i : Nat} (h : s.stage i = .gone) : s.step now (.call i) = s := by
  simp [step, callStep, h]

theorem step_idle (h : s.drainer = .idle) :
    s.step now .drainer = { s.withModule s.module.startDraining with drainer := .looking } := by
  simp [step, drainStep, h]

theorem step_looking (h : s.drainer = .looking) :
    s.step now .drainer =
      { s with drainer := if s.module.inFlight = 0 then .tearing else .idle } := by
  simp [step, drainStep, h]

theorem step_drainer_tearing (h : s.drainer = .tearing) :
    s.step now .drainer = { s.finalize with drainer := .idle } := by
  simp [step, drainStep, h]

/-! ## Steps in one go -/

/-- The steps of one party, with nobody in between. -/
def alone (now : Nat) (s : Doorway ω ι) (p : Party) (n : Nat) : Doorway ω ι :=
  s.run now (List.replicate n p)

@[simp] theorem alone_zero (p : Party) : s.alone now p 0 = s := rfl

theorem alone_succ (p : Party) (n : Nat) :
    s.alone now p (n + 1) = (s.step now p).alone now p n := rfl

/-- A call that leaves in one go does what `exit` does. -/
theorem alone_leave {i : Nat} (inside : s.stage i = .admitted ∨ s.stage i = .refused) :
    ∃ n, s.alone now (.call i) n = (s.withPair (s.module.exit s.cache).2).move i .gone := by
  cases last : s.module.leave.2 with
  | false =>
      refine ⟨1, ?_⟩
      rw [alone_succ, step_inside inside, alone_zero]
      simp [LoadedModule.exit, last, withModule]
  | true =>
      let left : Doorway ω ι := (s.withModule s.module.leave.1).move i .leaving
      have looks : left.stage i = .leaving := move_stage _ i .leaving
      have first : s.step now (.call i) = left := by rw [step_inside inside, last, if_pos rfl]
      cases draining : s.module.leave.1.draining with
      | false =>
          refine ⟨2, ?_⟩
          rw [alone_succ, first, alone_succ, step_leaving looks, alone_zero]
          simp [left, draining, LoadedModule.exit, withModule]
      | true =>
          refine ⟨3, ?_⟩
          have second : left.step now (.call i) = left.move i .tearing := by
            rw [step_leaving looks, if_pos]
            exact draining
          rw [alone_succ, first, alone_succ, second, alone_succ, step_tearing (move_stage _ i _),
            alone_zero]
          simp [left, last, draining, finalize, LoadedModule.exit, withModule]

/-- A call that enters in one go does what `enter` does. -/
theorem alone_enter {i : Nat} (outside : s.stage i = .outside) :
    ∃ n, s.alone now (.call i) n = (s.withPair (s.module.enter s.cache now).2.2).move i
      (if (s.module.enter s.cache now).1 then .admitted else .gone) := by
  let arrived : Doorway ω ι := (s.withModule s.module.arrive).move i .arrived
  have looks : arrived.stage i = .arrived := move_stage _ i .arrived
  cases draining : s.module.arrive.draining with
  | false =>
      refine ⟨2, ?_⟩
      rw [alone_succ, step_outside outside, alone_succ, step_arrived looks, alone_zero]
      simp [arrived, LoadedModule.enter, draining, withModule]
  | true =>
      let refused : Doorway ω ι := (arrived.withModule (arrived.module.recordRejection
        (.draining arrived.module.key) now)).move i .refused
      have second : arrived.step now (.call i) = refused := by
        rw [step_arrived looks, if_pos]
        exact draining
      obtain ⟨n, left⟩ : ∃ n, refused.alone now (.call i) n =
          (refused.withPair (refused.module.exit refused.cache).2).move i .gone :=
        alone_leave (Or.inr (move_stage _ i .refused))
      refine ⟨n + 2, ?_⟩
      rw [alone_succ, step_outside outside, alone_succ, second, left]
      simp [LoadedModule.enter, draining, withModule, refused, arrived]

/-- A drain in one go does what `beginDrain` does. -/
theorem alone_drain (idle : s.drainer = .idle) :
    ∃ n, s.alone now .drainer n = s.withPair (s.module.beginDrain s.cache).2 := by
  by_cases empty : s.module.inFlight = 0
  · refine ⟨3, ?_⟩
    simp [alone, run, step, drainStep, idle, empty, withModule, withPair, finalize,
      LoadedModule.beginDrain, LoadedModule.startDraining]
  · refine ⟨2, ?_⟩
    simp [alone, run, step, drainStep, idle, empty, withModule, withPair,
      LoadedModule.beginDrain, LoadedModule.startDraining]

/-! ## What a step leaves alone -/

/-- A call keeps its stage while it takes no step. -/
theorem stage_step_other {i : Nat} {p : Party} (other : p ≠ .call i) :
    (s.step now p).stage i = s.stage i := by
  cases p with
  | drainer =>
      show s.drainStep.stage i = s.stage i
      unfold drainStep
      split <;> rfl
  | call j =>
      have apart : i ≠ j := fun same => other (congrArg Party.call same.symm)
      show (s.callStep now j).stage i = s.stage i
      unfold callStep
      split <;> try split
      all_goals simp [move_stage_other apart, withModule, finalize]

theorem stage_step_drainer (i : Nat) : (s.step now .drainer).stage i = s.stage i :=
  stage_step_other nofun

/-- What a step of a party can do to a module. -/
inductive Touches (now : Nat) (m : LoadedModule ω ι) (c : Cache) : Party → LoadedModule ω ι → Prop
  | nothing (p : Party) : Touches now m c p m
  | arrival (i : Nat) : Touches now m c (.call i) m.arrive
  | refusal (i : Nat) : Touches now m c (.call i) (m.recordRejection (.draining m.key) now)
  | departure (i : Nat) : Touches now m c (.call i) m.leave.1
  | drain : Touches now m c .drainer m.startDraining
  | teardown (p : Party) : Touches now m c p (m.finalize c).2.1

theorem touches_step (s : Doorway ω ι) (p : Party) :
    Touches now s.module s.cache p (s.step now p).module := by
  cases p with
  | drainer =>
      cases h : s.drainer with
      | idle =>
          rw [step_idle h]
          exact .drain
      | looking =>
          rw [step_looking h]
          exact .nothing _
      | tearing =>
          rw [step_drainer_tearing h]
          exact .teardown _
  | call i =>
      cases h : s.stage i with
      | outside =>
          rw [step_outside h]
          exact .arrival i
      | arrived =>
          rw [step_arrived h]
          split
          · exact .refusal i
          · exact .nothing _
      | admitted | refused =>
          rw [step_inside (by rw [h]; decide)]
          exact .departure i
      | leaving =>
          rw [step_leaving h]
          exact .nothing _
      | tearing =>
          rw [step_tearing h]
          exact .teardown _
      | gone =>
          rw [step_gone h]
          exact .nothing _

section Touched

variable {m n : LoadedModule ω ι} {c : Cache} {p : Party}

theorem Touches.draining (touched : Touches now m c p n) (h : m.draining = true) :
    n.draining = true := by
  cases touched with
  | nothing | arrival | refusal | departure => exact h
  | drain => rfl
  | teardown => exact (m.finalize_draining c).trans h

theorem Touches.finalized (touched : Touches now m c p n) (h : m.finalized = true) :
    n.finalized = true := by
  cases touched with
  | nothing | arrival | refusal | departure | drain => exact h
  | teardown => exact m.finalize_finalized c

/-- Only the drain makes a module drain. -/
theorem Touches.drainer (touched : Touches now m c p n) (admits : m.draining = false)
    (drains : n.draining = true) : p = .drainer := by
  cases touched with
  | nothing | arrival | refusal | departure => cases admits.symm.trans drains
  | drain => rfl
  | teardown => cases admits.symm.trans ((m.finalize_draining c).symm.trans drains)

end Touched

/-! ## Who is counted -/

/-- A number of calls that are counted. -/
def Counts (stage : Nat → Passage) (n : Nat) : Prop :=
  ∃ inside : List Nat, inside.Nodup ∧ inside.length = n ∧
    ∀ i, i ∈ inside ↔ (stage i).counted = true

variable {stage : Nat → Passage} {n i : Nat} {next : Passage}

theorem Counts.arrive (h : Counts stage n) (outside : (stage i).counted = false)
    (inside : next.counted = true) : Counts (Function.update stage i next) (n + 1) := by
  obtain ⟨inside, distinct, rfl, mem⟩ := h
  refine ⟨i :: inside, ?_, rfl, ?_⟩
  · apply List.nodup_cons.mpr
    refine ⟨?_, distinct⟩
    rw [mem, outside]
    exact Bool.false_ne_true
  · intro j
    by_cases same : j = i <;> simp_all

theorem Counts.leave (h : Counts stage n) (inside : (stage i).counted = true)
    (outside : next.counted = false) : Counts (Function.update stage i next) (n - 1) := by
  obtain ⟨others, distinct, rfl, mem⟩ := h
  refine ⟨others.erase i, distinct.erase i, ?_, ?_⟩
  · exact List.length_erase_of_mem ((mem i).mpr inside)
  · intro j
    rw [distinct.mem_erase_iff, mem]
    by_cases same : j = i <;> simp_all

theorem Counts.keep (h : Counts stage n) (same : next.counted = (stage i).counted) :
    Counts (Function.update stage i next) n := by
  obtain ⟨inside, distinct, length, mem⟩ := h
  refine ⟨inside, distinct, length, fun j => ?_⟩
  by_cases own : j = i <;> simp_all

theorem Counts.pos (h : Counts stage n) (inside : (stage i).counted = true) : n ≠ 0 := by
  obtain ⟨others, _, rfl, mem⟩ := h
  intro none
  have here := (mem i).mpr inside
  rw [List.length_eq_zero_iff.mp none] at here
  cases here

theorem Counts.unique (h : Counts stage 1) {j : Nat} (inside : (stage i).counted = true)
    (also : (stage j).counted = true) : i = j := by
  obtain ⟨others, _, one, mem⟩ := h
  obtain ⟨k, rfl⟩ := List.length_eq_one_iff.mp one
  have hi := List.mem_singleton.mp ((mem i).mpr inside)
  have hj := List.mem_singleton.mp ((mem j).mpr also)
  exact hi.trans hj.symm

/-! ## What is known at any time -/

/-- Nobody is about to tear down a module that does not drain. -/
structure Quiet (s : Doorway ω ι) : Prop where
  standing : s.module.finalized = false
  idle : s.drainer = .idle
  calls : ∀ i, s.stage i ≠ .tearing

structure Orderly (s : Doorway ω ι) : Prop where
  counts : Counts s.stage s.module.inFlight
  quiet : s.module.draining = false → s.Quiet

theorem Quiet.move (h : s.Quiet) {i : Nat} {next : Passage} (other : next ≠ .tearing) :
    (s.move i next).Quiet where
  standing := h.standing
  idle := h.idle
  calls := by
    intro j
    by_cases own : j = i
    · rw [own, move_stage]
      exact other
    · rw [move_stage_other own]
      exact h.calls j

theorem Quiet.withModule (h : s.Quiet) {m : LoadedModule ω ι} (standing : m.finalized = false) :
    (s.withModule m).Quiet := ⟨standing, h.idle, h.calls⟩

theorem Orderly.step (h : s.Orderly) (p : Party) : (s.step now p).Orderly := by
  cases p with
  | drainer =>
      cases stage : s.drainer with
      | idle =>
          rw [step_idle stage]
          exact ⟨h.counts, nofun⟩
      | looking =>
          rw [step_looking stage]
          refine ⟨h.counts, fun admits => ?_⟩
          cases stage.symm.trans (h.quiet admits).idle
      | tearing =>
          rw [step_drainer_tearing stage]
          refine ⟨?_, fun admits => ?_⟩
          · have same := s.module.finalize_inFlight s.cache
            have counts := h.counts
            rw [← same] at counts
            exact counts
          · have admits : s.module.draining = false :=
              (s.module.finalize_draining s.cache).symm.trans admits
            cases stage.symm.trans (h.quiet admits).idle
  | call i =>
      cases stage : s.stage i with
      | outside =>
          rw [step_outside stage]
          refine ⟨h.counts.arrive (by rw [stage]; rfl) rfl, fun admits => ?_⟩
          have quiet : s.Quiet := h.quiet admits
          have arrived : (s.withModule s.module.arrive).Quiet := quiet.withModule quiet.standing
          exact arrived.move nofun
      | arrived =>
          rw [step_arrived stage]
          split
          · rename_i draining
            refine ⟨h.counts.keep (by rw [stage]; rfl), fun admits => ?_⟩
            cases draining.symm.trans admits
          · refine ⟨h.counts.keep (by rw [stage]; rfl), fun admits => ?_⟩
            exact (h.quiet admits).move nofun
      | admitted | refused =>
          rw [step_inside (by rw [stage]; decide)]
          refine ⟨h.counts.leave (by rw [stage]; rfl) ?_, fun admits => ?_⟩
          · split <;> rfl
          · have quiet : s.Quiet := h.quiet admits
            have left : (s.withModule s.module.leave.1).Quiet := quiet.withModule quiet.standing
            apply left.move
            split <;> decide
      | leaving =>
          rw [step_leaving stage]
          refine ⟨h.counts.keep ?_, fun admits => ?_⟩
          · rw [stage]
            split <;> rfl
          · have admits : s.module.draining = false := admits
            rw [admits]
            exact (h.quiet admits).move nofun
      | tearing =>
          rw [step_tearing stage]
          refine ⟨?_, fun admits => ?_⟩
          · have counts : Counts (Function.update s.stage i .gone) s.module.inFlight :=
              h.counts.keep (by rw [stage]; rfl)
            rw [← s.module.finalize_inFlight s.cache] at counts
            exact counts
          · have admits : s.module.draining = false :=
              (s.module.finalize_draining s.cache).symm.trans admits
            exact absurd stage ((h.quiet admits).calls i)
      | gone =>
          rw [step_gone stage]
          exact h

/-! ## After a drain has begun -/

/-- Nobody is admitted any more. -/
theorem admitted_of_step (draining : s.module.draining = true) {b : Nat} {p : Party}
    (admitted : (s.step now p).stage b = .admitted) : s.stage b = .admitted ∧ p ≠ .call b := by
  by_cases own : p = .call b
  · subst own
    revert admitted
    cases stage : s.stage b with
    | outside => simp [step_outside stage]
    | arrived => simp [step_arrived stage, draining]
    | admitted | refused =>
        rw [step_inside (by rw [stage]; decide), move_stage]
        split <;> nofun
    | leaving => simp [step_leaving stage, draining]
    | tearing => simp [step_tearing stage]
    | gone => simp [step_gone stage, stage]
  · exact ⟨(stage_step_other own).symm.trans admitted, own⟩

/-- Who is about to look or to tear the module down was leaving already when the drain began. -/
def Traced (start : Doorway ω ι) (done : List Party) (stage : Nat → Passage) : Prop :=
  ∀ a, (stage a = .leaving → start.stage a = .leaving) ∧
    (stage a = .tearing → start.stage a = .leaving ∧ 1 ≤ done.count (.call a))

variable {start : Doorway ω ι} {done : List Party}

theorem Traced.more (h : Traced start done stage) (p : Party) :
    Traced start (done ++ [p]) stage := by
  intro a
  refine ⟨(h a).1, fun tearing => ?_⟩
  obtain ⟨before, steps⟩ := (h a).2 tearing
  exact ⟨before, Nat.le_trans steps ((List.sublist_append_left done [p]).count_le _)⟩

theorem Traced.move (h : Traced start done stage)
    (leaving : next = .leaving → start.stage i = .leaving)
    (tearing : next = .tearing → start.stage i = .leaving ∧ 1 ≤ done.count (.call i)) :
    Traced start done (Function.update stage i next) := by
  intro a
  by_cases own : a = i
  · subst own
    rw [Function.update_self]
    exact ⟨leaving, tearing⟩
  · rw [Function.update_of_ne own]
    exact h a

/-- What is known of a module that drains while a call stays inside. -/
structure Watched (start : Doorway ω ι) (b : Nat) (done : List Party) (s : Doorway ω ι) :
    Prop where
  orderly : s.Orderly
  draining : s.module.draining = true
  inside : s.stage b = .admitted
  drainer : s.drainer ≠ .tearing
  traced : Traced start done s.stage
  torn : s.module.finalized = true →
    ∃ a, start.stage a = .leaving ∧ 2 ≤ done.count (.call a)

theorem Watched.step {b : Nat} (h : Watched start b done s) {p : Party} (other : p ≠ .call b) :
    Watched start b (done ++ [p]) (s.step now p) := by
  have torn : s.module.finalized = true →
      ∃ a, start.stage a = .leaving ∧ 2 ≤ (done ++ [p]).count (.call a) := by
    intro finalized
    obtain ⟨a, before, steps⟩ := h.torn finalized
    exact ⟨a, before, Nat.le_trans steps ((List.sublist_append_left done [p]).count_le _)⟩
  have traced := h.traced.more p
  have someone : s.module.inFlight ≠ 0 := h.orderly.counts.pos (by rw [h.inside]; rfl)
  suffices now_known : (s.step now p).drainer ≠ .tearing ∧
      Traced start (done ++ [p]) (s.step now p).stage ∧
      ((s.step now p).module.finalized = true →
        ∃ a, start.stage a = .leaving ∧ 2 ≤ (done ++ [p]).count (.call a)) from
    ⟨h.orderly.step p, (s.touches_step p).draining h.draining,
      (stage_step_other other).trans h.inside, now_known.1, now_known.2.1, now_known.2.2⟩
  cases p with
  | drainer =>
      cases stage : s.drainer with
      | idle =>
          rw [step_idle stage]
          exact ⟨nofun, traced, torn⟩
      | looking =>
          rw [step_looking stage, if_neg someone]
          exact ⟨nofun, traced, torn⟩
      | tearing => exact absurd stage h.drainer
  | call i =>
      cases stage : s.stage i with
      | outside =>
          rw [step_outside stage]
          exact ⟨h.drainer, traced.move nofun nofun, torn⟩
      | arrived =>
          rw [step_arrived stage, if_pos h.draining]
          exact ⟨h.drainer, traced.move nofun nofun, torn⟩
      | admitted | refused =>
          -- the call that stays inside is counted, so nobody leaves as the only one
          have others : s.module.leave.2 = false := by
            apply beq_eq_false_iff_ne.mpr
            intro one
            have counts := h.orderly.counts
            rw [one] at counts
            have same : i = b := counts.unique (by rw [stage]; rfl) (by rw [h.inside]; rfl)
            exact other (congrArg Party.call same)
          rw [step_inside (by rw [stage]; decide), others]
          exact ⟨h.drainer, traced.move nofun nofun, torn⟩
      | leaving =>
          rw [step_leaving stage, if_pos h.draining]
          refine ⟨h.drainer, traced.move nofun fun _ => ?_, torn⟩
          refine ⟨(h.traced i).1 stage, ?_⟩
          simp
      | tearing =>
          rw [step_tearing stage]
          obtain ⟨before, steps⟩ := (h.traced i).2 stage
          refine ⟨h.drainer, traced.move nofun nofun, fun _ => ⟨i, before, ?_⟩⟩
          rw [List.count_append, List.count_singleton_self]
          omega
      | gone =>
          rw [step_gone stage]
          exact ⟨h.drainer, traced, torn⟩

/-! ## Runs -/

theorem run_append (s : Doorway ω ι) (first more : List Party) :
    s.run now (first ++ more) = (s.run now first).run now more := List.foldl_append

theorem run_cons (s : Doorway ω ι) (p : Party) (more : List Party) :
    s.run now (p :: more) = (s.step now p).run now more := rfl

theorem Orderly.run (h : s.Orderly) (schedule : List Party) : (s.run now schedule).Orderly := by
  induction schedule generalizing s with
  | nil => exact h
  | cons p schedule ih => exact ih (h.step p)

theorem finalized_run (h : s.module.finalized = true) (schedule : List Party) :
    (s.run now schedule).module.finalized = true := by
  induction schedule generalizing s with
  | nil => exact h
  | cons p schedule ih => exact ih ((s.touches_step p).finalized h)

theorem stage_run_other {b : Nat} {schedule : List Party} (other : .call b ∉ schedule) :
    (s.run now schedule).stage b = s.stage b := by
  induction schedule generalizing s with
  | nil => rfl
  | cons p schedule ih =>
      have apart : .call b ≠ p := List.ne_of_not_mem_cons other
      have others : .call b ∉ schedule := List.not_mem_of_not_mem_cons other
      exact (ih others).trans (stage_step_other apart.symm)

theorem admitted_of_run (draining : s.module.draining = true) {b : Nat} {schedule : List Party}
    (admitted : (s.run now schedule).stage b = .admitted) :
    s.stage b = .admitted ∧ .call b ∉ schedule := by
  induction schedule generalizing s with
  | nil => exact ⟨admitted, List.not_mem_nil⟩
  | cons p schedule ih =>
      obtain ⟨still, others⟩ := ih ((s.touches_step p).draining draining) admitted
      obtain ⟨before, apart⟩ := admitted_of_step draining still
      exact ⟨before, List.not_mem_cons_of_ne_of_not_mem apart.symm others⟩

theorem Watched.run {b : Nat} (h : Watched start b done s) {schedule : List Party}
    (other : .call b ∉ schedule) : Watched start b (done ++ schedule) (s.run now schedule) := by
  induction schedule generalizing s done with
  | nil =>
      rw [List.append_nil]
      exact h
  | cons p schedule ih =>
      have apart : .call b ≠ p := List.ne_of_not_mem_cons other
      have others : .call b ∉ schedule := List.not_mem_of_not_mem_cons other
      have next : Watched start b (done ++ [p] ++ schedule) ((s.step now p).run now schedule) :=
        ih (h.step apart.symm) others
      rw [List.append_assoc] at next
      exact next

/-- The drain begins. -/
theorem Orderly.watched (h : s.Orderly) (admits : s.module.draining = false) {b : Nat}
    (inside : s.stage b = .admitted) : Watched s b [] (s.step now .drainer) := by
  have quiet := h.quiet admits
  have begun : s.step now .drainer =
      { s.withModule s.module.startDraining with drainer := .looking } := step_idle quiet.idle
  refine ⟨h.step .drainer, ?_, ?_, ?_, ?_, ?_⟩
  · rw [begun]
    rfl
  · rw [begun]
    exact inside
  · rw [begun]
    nofun
  · rw [begun]
    exact fun a => ⟨id, fun tearing => absurd tearing (quiet.calls a)⟩
  · rw [begun]
    intro finalized
    cases quiet.standing.symm.trans finalized

/-- A module that drains was made to by a step of the drain. -/
theorem drain_begun (admits : s.module.draining = false) {schedule : List Party}
    (drains : (s.run now schedule).module.draining = true) :
    ∃ before after, schedule = before ++ .drainer :: after ∧
      (s.run now before).module.draining = false := by
  induction schedule generalizing s with
  | nil => cases admits.symm.trans drains
  | cons p schedule ih =>
      cases next : (s.step now p).module.draining with
      | true =>
          cases (s.touches_step p).drainer admits next
          exact ⟨[], schedule, rfl, admits⟩
      | false =>
          obtain ⟨before, after, rfl, still⟩ := ih next drains
          exact ⟨p :: before, after, rfl, still⟩

theorem finalized_of_tearing {a : Nat} (tearing : s.stage a = .tearing) {schedule : List Party}
    (steps : 1 ≤ schedule.count (.call a)) : (s.run now schedule).module.finalized = true := by
  induction schedule generalizing s with
  | nil => simp at steps
  | cons p schedule ih =>
      by_cases own : p = .call a
      · subst own
        have torn : (s.step now (.call a)).module.finalized = true := by
          rw [step_tearing tearing]
          exact s.module.finalize_finalized s.cache
        exact finalized_run torn schedule
      · rw [List.count_cons_of_ne own] at steps
        exact ih ((stage_step_other own).trans tearing) steps

/-- A call that was leaving when the drain began tears the module down in its next two steps. -/
theorem finalized_of_leaving (draining : s.module.draining = true) {a : Nat}
    (leaving : s.stage a = .leaving) {schedule : List Party}
    (steps : 2 ≤ schedule.count (.call a)) : (s.run now schedule).module.finalized = true := by
  induction schedule generalizing s with
  | nil => simp at steps
  | cons p schedule ih =>
      by_cases own : p = .call a
      · subst own
        have tearing : (s.step now (.call a)).stage a = .tearing := by
          rw [step_leaving leaving, if_pos draining, move_stage]
        rw [List.count_cons_self] at steps
        exact finalized_of_tearing tearing (by omega)
      · rw [List.count_cons_of_ne own] at steps
        exact ih ((s.touches_step p).draining draining) ((stage_step_other own).trans leaving)
          steps

/-- A module is torn down under a call exactly when another call was leaving as a drain began and
has taken its two next steps since, while the call took none. -/
theorem Orderly.torn_under_iff (h : s.Orderly) (admits : s.module.draining = false)
    (schedule : List Party) (b : Nat) :
    (s.run now schedule).module.finalized = true ∧ (s.run now schedule).stage b = .admitted ↔
      ∃ before after, schedule = before ++ .drainer :: after ∧
        (s.run now before).module.draining = false ∧ ∃ a, (s.run now before).stage a = .leaving ∧
        (s.run now before).stage b = .admitted ∧ 2 ≤ after.count (.call a) ∧ .call b ∉ after := by
  constructor
  · rintro ⟨torn, inside⟩
    have drains : (s.run now schedule).module.draining = true := by
      cases draining : (s.run now schedule).module.draining with
      | true => rfl
      | false => cases ((h.run schedule).quiet draining).standing.symm.trans torn
    obtain ⟨before, after, rfl, still⟩ := drain_begun admits drains
    rw [run_append, run_cons] at torn inside
    have orderly : (s.run now before).Orderly := h.run before
    have begun : ((s.run now before).step now .drainer).module.draining = true := by
      rw [step_idle (orderly.quiet still).idle]
      rfl
    obtain ⟨since, others⟩ := admitted_of_run begun inside
    rw [stage_step_drainer] at since
    obtain ⟨a, leaving, steps⟩ := ((orderly.watched still since).run others).torn torn
    exact ⟨before, after, rfl, still, a, leaving, since, steps, others⟩
  · rintro ⟨before, after, rfl, still, a, leaving, inside, steps, others⟩
    have orderly : (s.run now before).Orderly := h.run before
    have watched : Watched (s.run now before) b [] ((s.run now before).step now .drainer) :=
      orderly.watched still inside
    rw [run_append, run_cons]
    refine ⟨?_, ?_⟩
    · apply finalized_of_leaving watched.draining _ steps
      exact (stage_step_drainer a).trans leaving
    · exact (stage_run_other others).trans watched.inside

/-! ## Teardowns -/

/-- A step tears the module down: the mark is set by the teardown itself. -/
def TearsDown (now : Nat) (s : Doorway ω ι) (p : Party) : Prop :=
  s.module.finalized = false ∧ (s.step now p).module.finalized = true

/-- No step of a schedule tears the module down while an admitted call has not begun to leave. -/
def Undisturbed (now : Nat) (s : Doorway ω ι) (schedule : List Party) : Prop :=
  ∀ first p, first ++ [p] <+: schedule → TearsDown now (s.run now first) p →
    ∀ b, (s.run now first).stage b ≠ .admitted

theorem TearsDown.tearing {p : Party} (h : TearsDown now s p) :
    (p = .drainer ∧ s.drainer = .tearing) ∨ ∃ i, p = .call i ∧ s.stage i = .tearing := by
  obtain ⟨standing, torn⟩ := h
  have apart : s.module.finalized ≠ true := Bool.eq_false_iff.mp standing
  cases p with
  | drainer =>
      cases stage : s.drainer with
      | idle =>
          rw [step_idle stage] at torn
          exact absurd torn apart
      | looking =>
          rw [step_looking stage] at torn
          exact absurd torn apart
      | tearing => exact Or.inl ⟨rfl, rfl⟩
  | call i =>
      refine Or.inr ⟨i, rfl, ?_⟩
      cases stage : s.stage i with
      | outside =>
          rw [step_outside stage] at torn
          exact absurd torn apart
      | arrived =>
          rw [step_arrived stage] at torn
          split at torn <;> exact absurd torn apart
      | admitted | refused =>
          rw [step_inside (by rw [stage]; decide)] at torn
          exact absurd torn apart
      | leaving =>
          rw [step_leaving stage] at torn
          exact absurd torn apart
      | tearing => rfl
      | gone =>
          rw [step_gone stage] at torn
          exact absurd torn apart

theorem TearsDown.draining {p : Party} (h : TearsDown now s p) (orderly : s.Orderly) :
    s.module.draining = true := by
  cases draining : s.module.draining with
  | true => rfl
  | false =>
      have quiet := orderly.quiet draining
      rcases h.tearing with ⟨_, tearing⟩ | ⟨i, _, tearing⟩
      · cases quiet.idle.symm.trans tearing
      · exact absurd tearing (quiet.calls i)

/-- A teardown is no step of a call that is inside. -/
theorem TearsDown.other {p : Party} (h : TearsDown now s p) {b : Nat}
    (inside : s.stage b = .admitted) : p ≠ .call b := by
  rintro rfl
  rcases h.tearing with ⟨drainer, _⟩ | ⟨i, own, tearing⟩
  · cases drainer
  · cases own
    cases inside.symm.trans tearing

theorem torn_begun (standing : s.module.finalized = false) {schedule : List Party}
    (torn : (s.run now schedule).module.finalized = true) :
    ∃ before p after, schedule = before ++ p :: after ∧ TearsDown now (s.run now before) p := by
  induction schedule generalizing s with
  | nil => cases standing.symm.trans torn
  | cons p schedule ih =>
      cases next : (s.step now p).module.finalized with
      | true => exact ⟨[], p, schedule, rfl, standing, next⟩
      | false =>
          obtain ⟨before, q, after, rfl, tears⟩ := ih next torn
          exact ⟨p :: before, q, after, rfl, tears⟩

theorem Orderly.undisturbed_iff_never (h : s.Orderly) (admits : s.module.draining = false)
    (schedule : List Party) :
    Undisturbed now s schedule ↔ ∀ first, first <+: schedule → ∀ b,
      (s.run now first).module.finalized = true → (s.run now first).stage b ≠ .admitted := by
  constructor
  · rintro undisturbed first ⟨rest, rfl⟩ b torn inside
    obtain ⟨before, p, after, rfl, tears⟩ := torn_begun (h.quiet admits).standing torn
    have draining := tears.draining (h.run before)
    rw [run_append, run_cons] at inside
    have since := (admitted_of_run (((s.run now before).touches_step p).draining draining)
      inside).1
    have prefixed : before ++ [p] <+: before ++ p :: after ++ rest := ⟨after ++ rest, by simp⟩
    exact undisturbed before p prefixed tears b (admitted_of_step draining since).1
  · intro never first p begins tears b inside
    have after : s.run now (first ++ [p]) = (s.run now first).step now p := run_append s first [p]
    apply never (first ++ [p]) begins b
    · rw [after]
      exact tears.2
    · rw [after]
      exact (stage_step_other (tears.other inside)).trans inside

/-- A new module that calls enter and leave and that one party drains, step by step.  It is never
torn down under an admitted call exactly when, for every call that was leaving as the only one when
the drain began, every call that was inside by then begins to leave before the first one has taken
its next two steps. -/
theorem undisturbed_iff (m : LoadedModule ω ι) (c : Cache) (now : Nat)
    (admits : m.draining = false) (standing : m.finalized = false) (empty : m.inFlight = 0)
    (schedule : List Party) :
    Undisturbed now (ofModule m c) schedule ↔
      ∀ before after, schedule = before ++ .drainer :: after →
        let s := (ofModule m c).run now before
        s.module.draining = false → ∀ a b, s.stage a = .leaving → s.stage b = .admitted →
          ∀ more, more <+: after → 2 ≤ more.count (.call a) → .call b ∈ more := by
  have orderly : (ofModule m c).Orderly := by
    refine ⟨⟨[], List.nodup_nil, empty.symm, ?_⟩, fun _ => ⟨standing, rfl, nofun⟩⟩
    intro i
    simp [ofModule, Passage.counted]
  rw [orderly.undisturbed_iff_never admits]
  constructor
  · rintro never before after rfl s still a b leaving inside more ⟨rest, rfl⟩ steps
    by_contra others
    obtain ⟨torn, still_inside⟩ :=
      (orderly.torn_under_iff admits (before ++ .drainer :: more) b).mpr
        ⟨before, more, rfl, still, a, leaving, inside, steps, others⟩
    have prefixed : before ++ .drainer :: more <+: before ++ .drainer :: (more ++ rest) :=
      ⟨rest, by simp⟩
    exact never _ prefixed b torn still_inside
  · rintro leaves first ⟨rest, rfl⟩ b torn inside
    obtain ⟨before, after, rfl, still, a, leaving, inside_before, steps, others⟩ :=
      (orderly.torn_under_iff admits first b).mp ⟨torn, inside⟩
    have split : before ++ .drainer :: after ++ rest = before ++ .drainer :: (after ++ rest) := by
      simp
    exact others (leaves before (after ++ rest) split still a b leaving inside_before after
      (List.prefix_append after rest) steps)

section Overtaken

def loneModule : LoadedModule Unit Unit :=
  .interpreted (.ofBytecode ⟨"m", "1"⟩ "run" [] [] [] default default)
    (Lifetime.lonePool .interpreter) (.initial .pending none) false 0

/-- A call enters and gives up its place, and a second one is admitted before the first one looks
whether the module drains. -/
def beforeDrain : List Party := [.call 0, .call 0, .call 0, .call 1, .call 1]

/-- The drain begins and finds the second call in flight, but the first one finds that the module
drains. -/
def overtaken : List Party := beforeDrain ++ .drainer :: [.drainer, .call 0, .call 0]

theorem undisturbed_iff_overtaken :
    loneModule.draining = false ∧ loneModule.finalized = false ∧ loneModule.inFlight = 0 ∧
      ¬ Undisturbed 7 (ofModule loneModule (.inMemory 8)) overtaken := by
  refine ⟨rfl, rfl, rfl, fun undisturbed => ?_⟩
  have leaves := (undisturbed_iff loneModule (.inMemory 8) 7 rfl rfl rfl overtaken).mp undisturbed
    beforeDrain [.drainer, .call 0, .call 0] rfl (by decide +kernel) 0 1 (by decide +kernel)
    (by decide +kernel) [.drainer, .call 0, .call 0] (List.prefix_refl _) (by decide)
  exact absurd leaves (by decide)

/-- A module can be torn down under an admitted call. -/
theorem not_always_undisturbed :
    ¬ ∀ (m : LoadedModule Unit Unit) (c : Cache) (now : Nat), m.draining = false →
      m.finalized = false → m.inFlight = 0 →
      ∀ schedule, Undisturbed now (ofModule m c) schedule := by
  intro always
  have undisturbed := always loneModule (.inMemory 8) 7 rfl rfl rfl overtaken
  have tears : TearsDown 7 ((ofModule loneModule (.inMemory 8)).run 7 overtaken.dropLast)
      (.call 0) := by
    constructor
    · decide +kernel
    · decide +kernel
  have inside : ((ofModule loneModule (.inMemory 8)).run 7 overtaken.dropLast).stage 1 =
      .admitted := by
    decide +kernel
  exact undisturbed overtaken.dropLast (.call 0) (List.prefix_refl _) tears 1 inside

end Overtaken

end Doorway

end TieredUdf
