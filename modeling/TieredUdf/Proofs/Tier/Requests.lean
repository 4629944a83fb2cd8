import TieredUdf.Proofs.Tier.LendingRun

/-! # Requests for an instance

What a request is answered while nobody brings an instance back follows from the pool alone: an
idle instance is lent; without one, an open pool that is not full makes one attempt; otherwise the
pool is exhausted.  A request is tried under the capacity first and under the upper bound after a
wait, but there is one rule for both, since in no pool the capacity is above that bound.  A request
that is refused changes nothing but what it counts.
-/

namespace TieredUdf

variable {ω ι : Type}

namespace Pool

variable {p q r : Pool ω ι} {w after other : ω} {result second : Except ExecError (Member ι)}

/-! ## One answer -/

theorem not_full (bounds : p.capacity ≤ p.maxLive) (isOpen : p.closed = false)
    (room : p.live < max p.maxLive p.capacity) : ¬ (p.closed = true ∨ p.maxLive ≤ p.live) := by
  rintro (closed | full)
  · cases isOpen.symm.trans closed
  · omega

/-- The pool and its surroundings leave a request no choice. -/
theorem Answers.unique (bounds : p.capacity ≤ p.maxLive) (h : Answers p w result q after)
    (k : Answers p w second r other) : (result, q, after) = (second, r, other) := by
  cases h with
  | lent idle =>
      cases k with
      | lent same =>
          cases idle.symm.trans same
          rfl
      | made empty _ _ _ | failed empty _ _ _ | exhausted empty _ => cases idle.symm.trans empty
  | made idle isOpen room attempt =>
      cases k with
      | lent same => cases idle.symm.trans same
      | made _ _ _ again =>
          cases attempt.symm.trans again
          rfl
      | failed _ _ _ again => cases attempt.symm.trans again
      | exhausted _ full => exact absurd full (not_full bounds isOpen room)
  | failed idle isOpen room attempt =>
      cases k with
      | lent same => cases idle.symm.trans same
      | made _ _ _ again => cases attempt.symm.trans again
      | failed _ _ _ again =>
          cases attempt.symm.trans again
          rfl
      | exhausted _ full => exact absurd full (not_full bounds isOpen room)
  | exhausted idle full =>
      cases k with
      | lent same => cases idle.symm.trans same
      | made _ isOpen room _ | failed _ isOpen room _ =>
          exact absurd full (not_full bounds isOpen room)
      | exhausted _ _ => rfl

theorem checkout_eq (bounds : p.capacity ≤ p.maxLive) (h : Answers p.asked w result q after) :
    p.checkout w = (result, q, after) :=
  Answers.unique (p := p.asked) bounds (p.checkout_answers w) h

/-! ## The capacity -/

def resized (p : Pool ω ι) (capacity : Nat) : Pool ω ι := { p with capacity := capacity }

theorem Answers.resized {capacity : Nat} (bounds : p.capacity ≤ p.maxLive)
    (within : capacity ≤ p.maxLive) (h : Answers p w result q after) :
    Answers (p.resized capacity) w result (q.resized capacity) after := by
  have same : max p.maxLive p.capacity = max p.maxLive capacity := by omega
  cases h with
  | lent idle => exact .lent idle
  | made idle isOpen room attempt => exact .made idle isOpen (same ▸ room) attempt
  | failed idle isOpen room attempt => exact .failed idle isOpen (same ▸ room) attempt
  | exhausted idle full => exact .exhausted idle full

/-- What the capacity decides is whether a request has to wait. -/
theorem beginCheckout_eq_waiting_iff (p : Pool ω ι) (w : ω) :
    p.beginCheckout w = .waiting p.asked ↔
      p.idle = [] ∧ (p.closed = true ∨ p.capacity ≤ p.live) := by
  constructor
  · intro waits
    rcases p.beginCheckout_cases w with ⟨result, q, after, decided, _⟩ | ⟨_, idle, full⟩
    · cases decided.symm.trans waits
    · exact ⟨idle, reserve?_eq_none (p := p.asked) full⟩
  · rintro ⟨idle, full⟩
    rw [beginCheckout_eq, idle]
    dsimp only
    cases kept : p.asked.reserve? p.capacity with
    | none => rfl
    | some q =>
        obtain ⟨isOpen, below, _⟩ := reserve?_eq_some kept
        rcases full with closed | full
        · cases isOpen.symm.trans closed
        · exact absurd below (Nat.not_lt_of_le full)

end Pool

namespace Lending

/-! ## Requests of a borrower -/

theorem checkout_ok {l : Lending ω ι} {m : Member ι} {q : Pool ω ι} {after : ω}
    (h : l.pool.checkout l.surroundings = (.ok m, q, after)) :
    l.checkout = (.ok l.leases.length, ⟨q, after, l.leases ++ [some (.ofMember m)]⟩) := by
  simp [checkout, h]

theorem checkout_error {l : Lending ω ι} {e : ExecError} {q : Pool ω ι} {after : ω}
    (h : l.pool.checkout l.surroundings = (.error e, q, after)) :
    l.checkout = (.error e, ⟨q, after, l.leases⟩) := by
  simp [checkout, h]

/-- How a request ends, in every case. -/
structure Requests (l : Lending ω ι) : Prop where
  /-- The first idle instance is lent. -/
  lent : ∀ m rest, l.pool.idle = m :: rest →
    l.checkout = (.ok l.leases.length,
      ⟨{ l.pool.asked with idle := rest }, l.surroundings, l.leases ++ [some (.ofMember m)]⟩)
  /-- A new instance is lent after one attempt, and one more is alive. -/
  made : ∀ body after, l.pool.idle = [] → l.pool.closed = false →
    l.pool.live < max l.pool.maxLive l.pool.capacity →
    l.pool.factory l.surroundings = (.ok body, after) →
    l.checkout = (.ok l.leases.length, ⟨l.pool.asked.grown, after,
      l.leases ++ [some (.ofMember ⟨l.pool.instantiations, body⟩)]⟩)
  /-- The attempt fails, and its error is the answer. -/
  failed : ∀ e after, l.pool.idle = [] → l.pool.closed = false →
    l.pool.live < max l.pool.maxLive l.pool.capacity →
    l.pool.factory l.surroundings = (.error e, after) →
    l.checkout = (.error e, ⟨l.pool.asked, after, l.leases⟩)
  exhausted : l.pool.idle = [] →
    (l.pool.closed = true ∨ max l.pool.maxLive l.pool.capacity ≤ l.pool.live) →
    l.checkout = (.error (.poolExhausted l.pool.key l.pool.timeout),
      { l with pool := { l.pool.asked with exhausted := l.pool.exhausted + 1 } })
  /-- Whatever the error, no lease is given out, and the pool is the same but for its counts of
  requests and of exhausted ones. -/
  refused : ∀ e, l.checkout.1 = .error e → l.checkout.2.leases = l.leases ∧
    ∃ exhausted, l.checkout.2.pool = { l.pool.asked with exhausted := exhausted }
  /-- The capacity decides which requests have to wait … -/
  waits_iff : l.pool.beginCheckout l.surroundings = .waiting l.pool.asked ↔
    l.pool.idle = [] ∧ (l.pool.closed = true ∨ l.pool.capacity ≤ l.pool.live)
  /-- … and nothing else. -/
  resized : ∀ capacity ≤ l.pool.maxLive,
    checkout { l with pool := l.pool.resized capacity } =
      (l.checkout.1, { l.checkout.2 with pool := l.checkout.2.pool.resized capacity })

theorem requests_of_bounds {l : Lending ω ι} (bounds : l.pool.capacity ≤ l.pool.maxLive) :
    l.Requests where
  lent := fun m rest idle => checkout_ok (Pool.checkout_eq bounds (.lent idle))
  made := fun body after idle isOpen room attempt =>
    checkout_ok (Pool.checkout_eq bounds (.made (p := l.pool.asked) idle isOpen room attempt))
  failed := fun e after idle isOpen room attempt =>
    checkout_error (Pool.checkout_eq bounds (.failed (p := l.pool.asked) idle isOpen room attempt))
  exhausted := fun idle full =>
    checkout_error (Pool.checkout_eq bounds
      (.exhausted (p := l.pool.asked) idle (full.imp_right (Nat.le_trans (Nat.le_max_left _ _)))))
  refused := by
    intro e error
    have answer := l.pool.checkout_answers l.surroundings
    rcases found : l.pool.checkout l.surroundings with ⟨result, q, after⟩
    rw [found] at answer
    cases answer with
    | lent idle => rw [checkout_ok found] at error; cases error
    | made idle isOpen room attempt => rw [checkout_ok found] at error; cases error
    | failed idle isOpen room attempt =>
        rw [checkout_error found]
        exact ⟨rfl, l.pool.exhausted, rfl⟩
    | exhausted idle full =>
        rw [checkout_error found]
        exact ⟨rfl, l.pool.exhausted + 1, rfl⟩
  waits_iff := l.pool.beginCheckout_eq_waiting_iff l.surroundings
  resized := by
    intro capacity within
    have answer := Pool.Answers.resized (p := l.pool.asked) bounds within
      (l.pool.checkout_answers l.surroundings)
    rcases found : l.pool.checkout l.surroundings with ⟨result, q, after⟩
    rw [found] at answer
    have same := Pool.checkout_eq (p := l.pool.resized capacity) within answer
    cases result with
    | ok m => rw [checkout_ok found, checkout_ok same]
    | error e => rw [checkout_error found, checkout_error same]

/-- In every state that a run of a pool reaches, with requests that wait and with attempts that
fail among its actions, a request ends as the state of the pool says. -/
theorem checkout_outcome (key : ModuleKey) (tier : Tier) (factory : Factory ω ι)
    (capacity maxLive : Nat) (timeout : Text.Duration) (surroundings : ω)
    (actions : List (Action ι)) :
    ((ofPool (Pool.create key tier factory capacity maxLive timeout) surroundings).run
      actions).Requests := by
  let start := ofPool (Pool.create key tier factory capacity maxLive timeout) surroundings
  have balanced : start.Balanced :=
    Pool.balanced_create key tier factory capacity maxLive timeout
  exact requests_of_bounds (balanced.run actions).capacity_le

/-- The capacity is reached, so that the attempt is made after a wait; it fails. -/
theorem checkout_outcome_unsteady :
    let l := (ofPool (Pool.create ⟨"m", "1"⟩ .interpreter unsteady 1 2 (.ofMilliseconds 1)) 0).run
      [.checkout]
    l.pool.beginCheckout l.surroundings = .waiting l.pool.asked ∧
      l.checkout = (.error (.instantiation "refused"), ⟨l.pool.asked, 2, l.leases⟩) := by
  intro l
  have requests := checkout_outcome ⟨"m", "1"⟩ .interpreter unsteady 1 2 (.ofMilliseconds 1) 0
    [.checkout]
  exact ⟨requests.waits_iff.mpr ⟨rfl, Or.inr (Nat.le_refl 1)⟩,
    requests.failed (.instantiation "refused") 2 rfl rfl (by decide) rfl⟩

end Lending

end TieredUdf
