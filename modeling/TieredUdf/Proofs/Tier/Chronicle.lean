import Mathlib.Logic.Relation
import TieredUdf.Proofs.Tier.LendingRun

/-! # What happens to the instances of a pool

A chronicle is a pool with its borrowers that also notes what happens to the instances: which are
handed out, queued and destroyed, in which order, and through which leases a call trapped.  Every
action of a borrower comes down to a few events, so what is to be shown of a run is shown of each
event.
-/

namespace TieredUdf

variable {ω ι : Type}

/-- Nothing is idle, a new instance may be made, and the attempt to make it fails. -/
def Pool.attemptFails (p : Pool ω ι) (surroundings : ω) : Bool :=
  p.idle.isEmpty && !p.closed && decide (p.live < p.maxLive) && !(p.factory surroundings).1.isOk

/-- A pool with its borrowers and the notes on what they have seen.  Instances and leases are
noted by their numbers. -/
structure Chronicle (ω ι : Type) extends Lending ω ι where
  /-- How many requests for an instance have not been answered. -/
  waiting : Nat
  /-- How many requests failed because no instance could be made. -/
  failed : Nat
  /-- The instances that were handed out, each at the number of its lease. -/
  borrowed : List Nat
  /-- The instances that joined the queue, as often as they did. -/
  queued : List Nat
  /-- Those that were handed out again after they had joined it. -/
  served : List Nat
  /-- The instances that were destroyed when they came back. -/
  discarded : List Nat
  /-- The instances that were destroyed when the pool was closed. -/
  cleared : List Nat
  /-- The leases through which a call trapped, as often as one did. -/
  trapped : List Nat

namespace Chronicle

def ofPool (p : Pool ω ι) (surroundings : ω) : Chronicle ω ι :=
  ⟨.ofPool p surroundings, 0, 0, [], [], [], [], [], []⟩

def destroyed (c : Chronicle ω ι) : List Nat := c.discarded ++ c.cleared

def ask (c : Chronicle ω ι) : Chronicle ω ι :=
  { c with pool := c.pool.asked, waiting := c.waiting + 1 }

/-- A request is answered.  An instance that was there before comes from the queue. -/
def answer (c : Chronicle ω ι) (result : Except ExecError (Member ι)) (p : Pool ω ι)
    (surroundings : ω) : Chronicle ω ι :=
  let told := { c with
    toLending := c.toLending.answered result p surroundings
    waiting := c.waiting - 1 }
  match result with
  | .ok m =>
      { told with
        borrowed := c.borrowed ++ [m.number]
        served :=
          if m.number < c.pool.instantiations then c.served ++ [m.number] else c.served }
  | .error _ =>
      { told with failed := c.failed + if c.pool.attemptFails c.surroundings then 1 else 0 }

/-- One action.  A call or a drop through a lease that has ended does nothing, and neither does
taking up a wait when nobody waits. -/
def step (c : Chronicle ω ι) : Lending.Action ι → Chronicle ω ι
  | .prefill n =>
      let l := (c.toLending.prefill n).2
      let made := l.pool.instantiations - c.pool.instantiations
      { c with
        toLending := l
        queued := c.queued ++ List.range' c.pool.instantiations made }
  | .checkout =>
      let (result, p, surroundings) := c.pool.checkout c.surroundings
      c.ask.answer result p surroundings
  | .beginCheckout =>
      match c.pool.beginCheckout c.surroundings with
      | .decided result p surroundings => c.ask.answer result p surroundings
      | .waiting p => { c.ask with pool := p }
  | .endCheckout =>
      if c.waiting = 0 then c
      else
        let (result, p, surroundings) := c.pool.endCheckout c.surroundings
        c.answer result p surroundings
  | .call number behaviour =>
      match c.toLending.call? number behaviour with
      | none => c
      | some (result, l) =>
          { c with
            toLending := l
            trapped := if Lease.isTrap result then c.trapped ++ [number] else c.trapped }
  | .drop number =>
      match c.toLending.drop? number with
      | none => c
      | some (some m, l) => { c with toLending := l, discarded := c.discarded ++ [m.number] }
      | some (none, l) =>
          { c with toLending := l, queued := c.queued ++ (c.borrowed[number]?).toList }
  | .close =>
      let (destroyed, l) := c.toLending.close
      { c with toLending := l, cleared := c.cleared ++ destroyed.map Member.number }

def run (c : Chronicle ω ι) (actions : List (Lending.Action ι)) : Chronicle ω ι :=
  actions.foldl step c

@[simp] theorem run_cons (c : Chronicle ω ι) (a : Lending.Action ι)
    (actions : List (Lending.Action ι)) : c.run (a :: actions) = (c.step a).run actions := rfl

theorem run_append (c : Chronicle ω ι) (first more : List (Lending.Action ι)) :
    c.run (first ++ more) = (c.run first).run more := List.foldl_append

/-! ## Events -/

/-- What can happen to a pool and its borrowers. -/
inductive Happens (c : Chronicle ω ι) : Chronicle ω ι → Prop where
  /-- An instance is made ahead of requests. -/
  | filled {body : ι} {after : ω} (isOpen : c.pool.closed = false)
      (room : c.pool.live < c.pool.capacity)
      (attempt : c.pool.factory c.surroundings = (.ok body, after)) :
      Happens c { c with
        pool := c.pool.grown.queued ⟨c.pool.instantiations, body⟩
        surroundings := after
        queued := c.queued ++ [c.pool.instantiations] }
  /-- An attempt to make one ahead of requests fails. -/
  | strayed {e : ExecError} {after : ω}
      (attempt : c.pool.factory c.surroundings = (.error e, after)) :
      Happens c { c with surroundings := after }
  | asked : Happens c c.ask
  | answered {result : Except ExecError (Member ι)} {p : Pool ω ι} {after : ω}
      (waits : 0 < c.waiting) (answers : c.pool.Answers c.surroundings result p after) :
      Happens c (c.answer result p after)
  | called {number : Nat} {lease : Lease ι} (held : c.lease? number = some lease)
      (result : Except ExecError (List Scalar)) (body : ι) :
      Happens c { c with
        leases := c.leases.set number (some (lease.afterCall result body))
        trapped := if Lease.isTrap result then c.trapped ++ [number] else c.trapped }
  /-- A sound instance comes back to an open pool that has room for it. -/
  | returned {number : Nat} {lease : Lease ι} (held : c.lease? number = some lease)
      (sound : lease.poisoned = false) (isOpen : c.pool.closed = false)
      (room : c.pool.idle.length < c.pool.capacity) :
      Happens c { c with
        pool := c.pool.queued lease.member
        leases := c.leases.set number none
        queued := c.queued ++ (c.borrowed[number]?).toList }
  | discarded {number : Nat} {lease : Lease ι} (held : c.lease? number = some lease) :
      Happens c { c with
        pool := c.pool.discard
        leases := c.leases.set number none
        discarded := c.discarded ++ [lease.member.number] }
  | closed :
      Happens c { c with
        pool := c.pool.close.1
        cleared := c.cleared ++ c.pool.idleNumbers }

abbrev Events (c d : Chronicle ω ι) : Prop := Relation.ReflTransGen Happens c d

/-- The rounds of a prefill.  Since a place below the capacity is free in each of them, the queue
is never full. -/
theorem events_fill (n : Nat) {c : Chronicle ω ι} (balanced : c.toLending.Balanced) :
    Events c { c with
      pool := (c.pool.fill n c.surroundings).2.1
      surroundings := (c.pool.fill n c.surroundings).2.2
      queued := c.queued ++ List.range' c.pool.instantiations
        ((c.pool.fill n c.surroundings).2.1.instantiations - c.pool.instantiations) } := by
  induction n generalizing c with
  | zero =>
      have same : c.queued ++ List.range' c.pool.instantiations
          (c.pool.instantiations - c.pool.instantiations) = c.queued := by simp
      simp only [Pool.fill, same]
      exact .refl
  | succ n ih =>
      rcases Pool.fill_succ n c.pool c.surroundings with ⟨_, h⟩ | ⟨e, after, attempt, h⟩ |
        ⟨body, after, attempt, isOpen, below, ⟨room, h⟩ | ⟨full, h⟩⟩
      · rw [h]
        simpa using Relation.ReflTransGen.refl
      · rw [h]
        simpa using Relation.ReflTransGen.single (Happens.strayed attempt)
      · let p := c.pool.grown.queued ⟨c.pool.instantiations, body⟩
        have grown := Pool.Balanced.grow balanced (by have := balanced.capacity_le; omega)
        have rest := ih (c := { c with
          pool := p
          surroundings := after
          queued := c.queued ++ [c.pool.instantiations] })
          (grown.queue (m := ⟨c.pool.instantiations, body⟩) isOpen room)
        have one : p.instantiations = c.pool.instantiations + 1 := rfl
        obtain ⟨k, total⟩ := Nat.exists_eq_add_of_le (Pool.instantiations_le_fill n p after)
        rw [h, total, one, Nat.add_assoc, Nat.add_sub_cancel_left, Nat.add_comm 1 k,
          List.range'_succ]
        refine .head (.filled isOpen below attempt) ?_
        rw [total] at rest
        simpa [one] using rest
      · have := balanced.live_eq
        omega

/-- Every action comes down to events. -/
theorem step_events {c : Chronicle ω ι} (balanced : c.toLending.Balanced)
    (a : Lending.Action ι) : Events c (c.step a) := by
  cases a with
  | prefill n => exact events_fill (min n c.pool.capacity) balanced
  | checkout =>
      have answers := c.pool.checkout_answers c.surroundings
      exact .head .asked (.single (.answered (Nat.succ_pos _) answers))
  | beginCheckout =>
      rcases c.pool.beginCheckout_cases c.surroundings with
        ⟨result, p, after, begun, answers⟩ | ⟨begun, _, _⟩
      · simp only [step, begun]
        exact .head .asked (.single (.answered (Nat.succ_pos _) answers))
      · simp only [step, begun]
        exact .single .asked
  | endCheckout =>
      by_cases nobody : c.waiting = 0
      · simp only [step, nobody, if_pos]
        exact .refl
      · simp only [step, nobody, if_false]
        exact .single (.answered (Nat.pos_of_ne_zero nobody)
          (c.pool.endCheckout_answers c.surroundings))
  | call number behaviour =>
      cases held : c.lease? number with
      | none =>
          simp only [step, Lending.call?, held]
          exact .refl
      | some lease =>
          simp only [step, Lending.call?_of_held held]
          exact .single (.called held _ _)
  | drop number =>
      cases held : c.lease? number with
      | none =>
          simp only [step, Lending.drop?, held]
          exact .refl
      | some lease =>
          simp only [step, Lending.drop?_of_held held]
          rcases c.pool.release_cases lease.member lease.poisoned with
            ⟨sound, isOpen, room, back⟩ | ⟨_, back⟩
          · simp only [back]
            exact .single (.returned held sound isOpen room)
          · simp only [back]
            exact .single (.discarded held)
  | close => exact .single .closed

/-! ## Runs -/

variable {c d : Chronicle ω ι}

theorem Happens.balanced (h : c.toLending.Balanced) (happens : Happens c d) :
    d.toLending.Balanced := by
  cases happens with
  | filled isOpen room attempt =>
      have grown := Pool.Balanced.grow h (by have := h.capacity_le; omega)
      have below : c.pool.idle.length < c.pool.capacity := by have := h.live_eq; omega
      exact grown.queue (m := ⟨c.pool.instantiations, _⟩) isOpen below
  | strayed after => exact h
  | asked => exact Pool.Balanced.recounted h (c.pool.checkouts + 1) c.pool.exhausted
  | @answered result p after waits answers =>
      have answered := Lending.Balanced.answered (Pool.Balanced.answers h answers) after
      cases result <;> exact answered
  | @called number lease held result body =>
      exact h.perm (.of_eq (Lending.lentNumbers_kept held (lease.afterCall result body) rfl).symm)
  | returned held sound isOpen room =>
      exact (h.perm (Lending.lentNumbers_ended held c.pool)).queue isOpen room
  | discarded held => exact (h.perm (Lending.lentNumbers_ended held c.pool)).discard
  | closed => exact Pool.Balanced.close h

theorem Happens.follows (happens : Happens c d) : c.pool.Follows d.pool := by
  cases happens with
  | filled isOpen room attempt => exact ⟨rfl, rfl, rfl, rfl, rfl, rfl, id⟩
  | answered waits answers => cases answers <;> exact ⟨rfl, rfl, rfl, rfl, rfl, rfl, id⟩
  | asked => exact c.pool.follows_asked
  | returned held sound isOpen room => exact c.pool.follows_queued _
  | discarded held => exact ⟨rfl, rfl, rfl, rfl, rfl, rfl, id⟩
  | closed => exact c.pool.close_follows
  | strayed attempt => exact .refl _
  | called held result body => exact .refl _

theorem Events.follows (events : Events c d) : c.pool.Follows d.pool := by
  induction events with
  | refl => exact .refl _
  | tail _ happens ih => exact ih.trans happens.follows

theorem Events.balanced (h : c.toLending.Balanced) (events : Events c d) :
    d.toLending.Balanced := by
  induction events with
  | refl => exact h
  | tail _ happens ih => exact happens.balanced ih

/-- So does every run. -/
theorem run_events (balanced : c.toLending.Balanced) (actions : List (Lending.Action ι)) :
    Events c (c.run actions) := by
  induction actions generalizing c with
  | nil => exact .refl
  | cons a actions ih =>
      have first := step_events balanced a
      exact first.trans (ih (first.balanced balanced))

/-- A run with a closing in it ends with a closed pool. -/
theorem closed_of_mem (balanced : c.toLending.Balanced) {actions : List (Lending.Action ι)}
    (closing : .close ∈ actions) : (c.run actions).pool.closed = true := by
  obtain ⟨before, after, rfl⟩ := List.append_of_mem closing
  rw [run_append, run_cons]
  have first := (run_events balanced before).balanced balanced
  have closed : Events (c.run before) ((c.run before).step .close) := step_events first .close
  exact (run_events (closed.balanced first) after).follows.closed rfl

/-! ## The pool behind the notes -/

/-- The notes change nothing: a chronicle does what its pool and the borrowers do. -/
theorem step_toLending (c : Chronicle ω ι) (a : Lending.Action ι)
    (taken : a = .endCheckout → c.waiting ≠ 0) :
    (c.step a).toLending = c.toLending.step a := by
  cases a with
  | prefill n => rfl
  | checkout =>
      rw [Lending.step, Lending.checkout_eq_answered]
      simp only [step, answer, ask]
      rcases (c.pool.checkout c.surroundings).1 with e | m <;> rfl
  | beginCheckout =>
      cases begun : c.pool.beginCheckout c.surroundings with
      | decided result p after =>
          simp only [step, Lending.step, begun]
          cases result <;> rfl
      | waiting p => simp only [step, Lending.step, begun, ask]
  | endCheckout =>
      simp only [step, Lending.step, taken rfl, if_false, answer]
      rcases (c.pool.endCheckout c.surroundings).1 with e | m <;> rfl
  | call number behaviour =>
      cases held : c.lease? number with
      | none => simp [step, Lending.step, Lending.call?, held]
      | some lease => simp [step, Lending.step, Lending.call?_of_held held]
  | drop number =>
      cases held : c.lease? number with
      | none => simp [step, Lending.step, Lending.drop?, held]
      | some lease =>
          simp only [step, Lending.step, Lending.drop?_of_held held]
          cases (c.pool.release lease.member lease.poisoned).2 <;> rfl
  | close => rfl

theorem run_toLending (c : Chronicle ω ι) {actions : List (Lending.Action ι)}
    (unparted : .endCheckout ∉ actions) : (c.run actions).toLending = c.toLending.run actions := by
  induction actions generalizing c with
  | nil => rfl
  | cons a actions ih =>
      obtain ⟨first, rest⟩ := not_or.mp (List.mem_cons.not.mp unparted)
      have here := step_toLending c a fun taken => absurd taken.symm first
      rw [Lending.run_cons, ← here]
      exact ih (c.step a) rest

end Chronicle

end TieredUdf
