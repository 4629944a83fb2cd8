import TieredUdf.Proofs.Tier.LendingRun

/-! # What a prefill adds

A prefill makes instances one after the other, as many as were asked for and as there are places
free below the capacity, and queues each of them.  It stops early only where an attempt fails; what
was made before that stays.  Its queue is never full, since every idle instance holds one of the
places.
-/

namespace TieredUdf

variable {ω ι : Type}

/-! ## Attempts one after the other -/

/-- What came of some attempts to make an instance: the bodies that were made, and the failure
that ended the attempts, if one did. -/
structure Attempts (ω ι : Type) where
  made : List ι
  failure : Option ExecError
  after : ω

namespace Attempts

def result (t : Attempts ω ι) : Except ExecError Unit :=
  match t.failure with
  | none => .ok ()
  | some e => .error e

end Attempts

namespace Factory

/-- Attempt to make so many instances, until an attempt fails. -/
def attempts (factory : Factory ω ι) : Nat → ω → Attempts ω ι
  | 0, w => ⟨[], none, w⟩
  | n + 1, w =>
      match factory w with
      | (.error e, after) => ⟨[], some e, after⟩
      | (.ok body, after) =>
          let rest := attempts factory n after
          { rest with made := body :: rest.made }

theorem length_attempts_le (factory : Factory ω ι) (n : Nat) (w : ω) :
    (factory.attempts n w).made.length ≤ n := by
  induction n generalizing w with
  | zero => simp [attempts]
  | succ n ih =>
      unfold attempts
      rcases factory w with ⟨e | body, after⟩
      · simp
      · simpa using ih after

/-- Without a failure all the attempts made an instance, and with one fewer of them did. -/
theorem length_attempts_eq_iff (factory : Factory ω ι) (n : Nat) (w : ω) :
    (factory.attempts n w).made.length = n ↔ (factory.attempts n w).failure = none := by
  induction n generalizing w with
  | zero => simp [attempts]
  | succ n ih =>
      unfold attempts
      rcases factory w with ⟨e | body, after⟩
      · simp
      · simpa using ih after

end Factory

namespace Pool

/-! ## A pool with more instances -/

def numbered (first : Nat) : List ι → List (Member ι)
  | [] => []
  | body :: rest => ⟨first, body⟩ :: numbered (first + 1) rest

/-- The pool with new instances at the end of its queue. -/
def stocked (p : Pool ω ι) (bodies : List ι) : Pool ω ι :=
  { p with
    idle := p.idle ++ numbered p.instantiations bodies
    live := p.live + bodies.length
    instantiations := p.instantiations + bodies.length }

theorem length_numbered (first : Nat) (bodies : List ι) :
    (numbered first bodies).length = bodies.length := by
  induction bodies generalizing first with
  | nil => rfl
  | cons body bodies ih => simp [numbered, ih]

theorem stocked_nil (p : Pool ω ι) : p.stocked [] = p := by
  simp [stocked, numbered]

theorem stocked_cons (p : Pool ω ι) (body : ι) (rest : List ι) :
    p.stocked (body :: rest) = (p.grown.queued ⟨p.instantiations, body⟩).stocked rest := by
  simp [stocked, grown, queued, numbered]
  omega

/-! ## The rounds of a prefill -/

theorem fill_closed {p : Pool ω ι} (closed : p.closed = true) (n : Nat) (w : ω) :
    fill n p w = (.ok (), p, w) := by
  cases n <;> simp [fill, reserve?, closed]

theorem fill_noRoom {p : Pool ω ι} (full : p.capacity ≤ p.live) (n : Nat) (w : ω) :
    fill n p w = (.ok (), p, w) := by
  have never : ¬ p.live < p.capacity := by omega
  cases n <;> simp [fill, reserve?, never]

/-- A round of an open pool with a free place: the queue has room for what is made. -/
theorem fill_round {p : Pool ω ι} (isOpen : p.closed = false) (free : p.live < p.capacity)
    (held : p.idle.length ≤ p.live) (n : Nat) (w : ω) :
    fill (n + 1) p w =
      match p.factory w with
      | (.error e, after) => (.error e, p, after)
      | (.ok body, after) => fill n (p.grown.queued ⟨p.instantiations, body⟩) after := by
  have room : p.idle.length < p.capacity := by omega
  have kept : p.reserve? p.capacity = some { p with live := p.live + 1 } := by
    simp [reserve?, isOpen, free]
  rcases instantiate_reserved kept w with ⟨body, after, hf, hq⟩ | ⟨e, after, hf, hq⟩
  · simp [fill, kept, hf, hq, room, grown, queued]
  · simp [fill, kept, hf, hq]

theorem fill_eq {p : Pool ω ι} (isOpen : p.closed = false) (held : p.idle.length ≤ p.live)
    (n : Nat) (w : ω) :
    let tries := p.factory.attempts (min n (p.capacity - p.live)) w
    fill n p w = (tries.result, p.stocked tries.made, tries.after) := by
  induction n generalizing p w with
  | zero => simp [fill, Factory.attempts, Attempts.result, stocked_nil]
  | succ n ih =>
      by_cases free : p.live < p.capacity
      · have places : min (n + 1) (p.capacity - p.live) =
            min n (p.capacity - (p.live + 1)) + 1 := by omega
        rw [places, fill_round isOpen free held, Factory.attempts]
        rcases p.factory w with ⟨e | body, after⟩
        · simp [Attempts.result, stocked_nil]
        · have grown : (p.grown.queued ⟨p.instantiations, body⟩).idle.length ≤ p.live + 1 := by
            simp [queued, Pool.grown]
            omega
          have next := ih (p := p.grown.queued ⟨p.instantiations, body⟩) isOpen grown after
          exact next.trans (by rw [stocked_cons]; rfl)
      · have none : p.capacity - p.live = 0 := by omega
        rw [fill_noRoom (by omega), none, Nat.min_zero]
        simp [Factory.attempts, Attempts.result, stocked_nil]

theorem Balanced.held {p : Pool ω ι} {lent : List Nat} (h : p.Balanced lent) :
    p.idle.length ≤ p.live := by
  have := h.live_eq
  omega

/-- Instances for free places fit into the queue. -/
theorem Balanced.stocked_fits {p : Pool ω ι} {lent : List Nat} (h : p.Balanced lent)
    {bodies : List ι} (places : bodies.length ≤ p.capacity - p.live) :
    (p.stocked bodies).idle.length ≤ p.capacity := by
  have := h.held
  have := h.idle_le
  rw [stocked, List.length_append, length_numbered]
  omega

theorem Balanced.prefill_eq {p : Pool ω ι} {lent : List Nat} (h : p.Balanced lent)
    (isOpen : p.closed = false) (n : Nat) (w : ω) :
    let tries := p.factory.attempts (min n (p.capacity - p.live)) w
    p.prefill n w = (tries.result, p.stocked tries.made, tries.after) := by
  have places : min (min n p.capacity) (p.capacity - p.live) = min n (p.capacity - p.live) := by
    omega
  have filled := fill_eq isOpen h.held (min n p.capacity) w
  rw [places] at filled
  exact filled

end Pool

namespace Lending

theorem run_concat (l : Lending ω ι) (actions : List (Action ι)) (n : Nat) :
    ((l.run actions).prefill n).2 = l.run (actions ++ [.prefill n]) := by
  rw [run_append]
  rfl

/-- In every state that a run of a pool reaches, a prefill of a closed pool does nothing.  One of an
open pool makes attempts for as many places as were asked for and are free, ends as they do, and
changes nothing but that it queues what they made; the queue has room for all of it.  The books
agree afterwards, however the prefill ended. -/
theorem prefill_exactly (key : ModuleKey) (tier : Tier) (factory : Factory ω ι)
    (capacity maxLive : Nat) (timeout : Text.Duration) (surroundings : ω)
    (actions : List (Action ι)) (n : Nat) :
    let start := ofPool (Pool.create key tier factory capacity maxLive timeout) surroundings
    let l := start.run actions
    let room := min n (max capacity 1 - l.pool.live)
    let tries := factory.attempts room l.surroundings
    (l.pool.closed = true → l.prefill n = (.ok (), l)) ∧
    (l.pool.closed = false →
      l.prefill n = (tries.result,
        { l with pool := l.pool.stocked tries.made, surroundings := tries.after }) ∧
      (tries.failure = none → tries.result = .ok () ∧ tries.made.length = room) ∧
      (∀ e, tries.failure = some e → tries.result = .error e ∧ tries.made.length < room) ∧
      (l.pool.stocked tries.made).idle.length ≤ max capacity 1) ∧
    (l.prefill n).2.Books capacity maxLive := by
  intro start l room tries
  have balanced : ∀ actions, (start.run actions).Balanced := fun actions =>
    Balanced.run (l := start)
      (Pool.balanced_create key tier factory capacity maxLive timeout) actions
  have settings := start.run_follows actions
  have size : l.pool.capacity = max capacity 1 := settings.capacity
  have maker : l.pool.factory = factory := settings.factory
  have few : tries.made.length ≤ room := factory.length_attempts_le room l.surroundings
  have all : tries.made.length = room ↔ tries.failure = none :=
    factory.length_attempts_eq_iff room l.surroundings
  have books : (l.prefill n).2.Books capacity maxLive := by
    have later := start.run_follows (actions ++ [.prefill n])
    rw [run_concat]
    exact (balanced (actions ++ [.prefill n])).books later.capacity later.maxLive
  refine ⟨fun closed => ?_, fun isOpen => ⟨?_, fun none => ?_, fun e failed => ?_, ?_⟩, books⟩
  · simp [prefill, Pool.prefill, Pool.fill_closed closed]
  · have filled : l.pool.prefill n l.surroundings =
        (tries.result, l.pool.stocked tries.made, tries.after) := by
      have filled := Pool.Balanced.prefill_eq (balanced actions) isOpen n l.surroundings
      rw [maker, size] at filled
      exact filled
    simp only [prefill, filled]
  · exact ⟨by simp [Attempts.result, none], all.mpr none⟩
  · have fewer : tries.made.length ≠ room := by
      rw [ne_eq, all, failed]
      exact Option.some_ne_none e
    exact ⟨by simp [Attempts.result, failed], by omega⟩
  · have places : tries.made.length ≤ l.pool.capacity - l.pool.live := by
      rw [size]
      exact Nat.le_trans few (Nat.min_le_right _ _)
    have fits := Pool.Balanced.stocked_fits (balanced actions) places
    rwa [size] at fits

/-- The second of three attempts fails. -/
example :
    let factory : Factory Nat Unit := fun attempt =>
      (if attempt = 1 then .error (.instantiation "refused") else .ok (), attempt + 1)
    let l := ofPool (Pool.create ⟨"m", "1"⟩ .interpreter factory 3 3 (.ofMilliseconds 1)) 0
    (l.prefill 3).1 = .error (.instantiation "refused") ∧ (l.prefill 3).2.pool.live = 1 :=
  ⟨rfl, rfl⟩

end Lending

end TieredUdf
