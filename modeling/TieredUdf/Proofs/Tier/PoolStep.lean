import TieredUdf.Tier.Pool

/-! # What one operation does to a pool

Every operation of a pool is described once: which pool it leaves behind, what it answers and
under which conditions.  Statements about pools cite these descriptions and do not open the
operations again.
-/

namespace TieredUdf.Pool

variable {ω ι : Type}

/-! ## Settings -/

/-- One pool comes after another: its settings are the same, and it is open only if the other
one was. -/
structure Follows (p q : Pool ω ι) : Prop where
  key : q.key = p.key
  tier : q.tier = p.tier
  factory : q.factory = p.factory
  capacity : q.capacity = p.capacity
  maxLive : q.maxLive = p.maxLive
  timeout : q.timeout = p.timeout
  closed : p.closed = true → q.closed = true

theorem Follows.refl (p : Pool ω ι) : p.Follows p := ⟨rfl, rfl, rfl, rfl, rfl, rfl, id⟩

theorem Follows.trans {p q r : Pool ω ι} (h : p.Follows q) (k : q.Follows r) : p.Follows r :=
  ⟨k.key.trans h.key, k.tier.trans h.tier, k.factory.trans h.factory,
    k.capacity.trans h.capacity, k.maxLive.trans h.maxLive, k.timeout.trans h.timeout,
    fun c => k.closed (h.closed c)⟩

/-! ## Making an instance -/

/-- The pool with one more living instance, which it has made itself. -/
def grown (p : Pool ω ι) : Pool ω ι :=
  { p with live := p.live + 1, instantiations := p.instantiations + 1 }

/-- The pool with one more instance at the end of its queue. -/
def queued (p : Pool ω ι) (m : Member ι) : Pool ω ι := { p with idle := p.idle ++ [m] }

theorem follows_grown (p : Pool ω ι) : p.Follows p.grown := ⟨rfl, rfl, rfl, rfl, rfl, rfl, id⟩

theorem follows_queued (p : Pool ω ι) (m : Member ι) : p.Follows (p.queued m) :=
  ⟨rfl, rfl, rfl, rfl, rfl, rfl, id⟩

theorem reserve?_eq_some {p q : Pool ω ι} {limit : Nat} (h : p.reserve? limit = some q) :
    p.closed = false ∧ p.live < limit ∧ q = { p with live := p.live + 1 } := by
  unfold reserve? at h
  by_cases hc : p.closed = true
  · simp [hc] at h
  · by_cases hl : p.live < limit
    · rw [if_neg hc, if_pos hl] at h
      exact ⟨by simpa using hc, hl, (Option.some.inj h).symm⟩
    · simp [hc, hl] at h

theorem reserve?_eq_none {p : Pool ω ι} {limit : Nat} (h : p.reserve? limit = none) :
    p.closed = true ∨ limit ≤ p.live := by
  unfold reserve? at h
  by_cases hc : p.closed = true
  · exact Or.inl hc
  · by_cases hl : p.live < limit
    · simp [hc, hl] at h
    · exact Or.inr (by omega)

/-- An attempt for a place that was kept: the new instance has the next number, and a failure
leaves the pool as it was before the place was kept. -/
theorem instantiate_reserved {p q : Pool ω ι} {limit : Nat} (h : p.reserve? limit = some q)
    (w : ω) :
    (∃ body after, p.factory w = (.ok body, after) ∧
      q.instantiate w = (.ok ⟨p.instantiations, body⟩, p.grown, after)) ∨
    (∃ e after, p.factory w = (.error e, after) ∧ q.instantiate w = (.error e, p, after)) := by
  obtain ⟨_, _, rfl⟩ := reserve?_eq_some h
  obtain ⟨result, after, hf⟩ : ∃ result after, p.factory w = (result, after) := ⟨_, _, rfl⟩
  cases result with
  | ok body => exact Or.inl ⟨body, after, hf, by simp [instantiate, hf, grown]⟩
  | error e => exact Or.inr ⟨e, after, hf, by simp [instantiate, hf]⟩

/-! ## Checkout -/

/-- What a request for an instance may lead to, with the reason for each answer. -/
inductive Answers (p : Pool ω ι) (w : ω) :
    Except ExecError (Member ι) → Pool ω ι → ω → Prop where
  /-- The first idle instance is lent. -/
  | lent {m : Member ι} {rest : List (Member ι)} (idle : p.idle = m :: rest) :
      Answers p w (.ok m) { p with idle := rest } w
  /-- A new instance is lent. -/
  | made {body : ι} {after : ω} (idle : p.idle = []) (isOpen : p.closed = false)
      (room : p.live < max p.maxLive p.capacity) (attempt : p.factory w = (.ok body, after)) :
      Answers p w (.ok ⟨p.instantiations, body⟩) p.grown after
  /-- The attempt to make one fails. -/
  | failed {e : ExecError} {after : ω} (idle : p.idle = []) (isOpen : p.closed = false)
      (room : p.live < max p.maxLive p.capacity) (attempt : p.factory w = (.error e, after)) :
      Answers p w (.error e) p after
  /-- Nothing is idle and nothing more may be made. -/
  | exhausted (idle : p.idle = []) (full : p.closed = true ∨ p.maxLive ≤ p.live) :
      Answers p w (.error (.poolExhausted p.key p.timeout))
        { p with exhausted := p.exhausted + 1 } w

theorem Answers.follows {p q : Pool ω ι} {w after : ω} {result : Except ExecError (Member ι)}
    (h : Answers p w result q after) : p.Follows q := by
  cases h <;> exact ⟨rfl, rfl, rfl, rfl, rfl, rfl, id⟩

/-- An attempt below the bound that the rules set for any attempt. -/
theorem answers_of_reserved {p q : Pool ω ι} {limit : Nat} (idle : p.idle = [])
    (bound : limit ≤ max p.maxLive p.capacity) (h : p.reserve? limit = some q) (w : ω) :
    Answers p w (q.instantiate w).1 (q.instantiate w).2.1 (q.instantiate w).2.2 := by
  obtain ⟨isOpen, below, _⟩ := reserve?_eq_some h
  have room : p.live < max p.maxLive p.capacity := by omega
  rcases instantiate_reserved h w with ⟨body, after, hf, hq⟩ | ⟨e, after, hf, hq⟩
  · rw [hq]
    exact .made idle isOpen room hf
  · rw [hq]
    exact .failed idle isOpen room hf

/-- The pool after a request has been counted. -/
def asked (p : Pool ω ι) : Pool ω ι := { p with checkouts := p.checkouts + 1 }

theorem follows_asked (p : Pool ω ι) : p.Follows p.asked := ⟨rfl, rfl, rfl, rfl, rfl, rfl, id⟩

theorem beginCheckout_eq (p : Pool ω ι) (w : ω) :
    p.beginCheckout w =
      match p.idle with
      | m :: rest => .decided (.ok m) { p.asked with idle := rest } w
      | [] =>
          match p.asked.reserve? p.capacity with
          | some q => .decided (q.instantiate w).1 (q.instantiate w).2.1 (q.instantiate w).2.2
          | none => .waiting p.asked := rfl

/-- A request is answered at once, or it waits: nothing is idle, and the capacity is reached or
the pool is closed. -/
theorem beginCheckout_cases (p : Pool ω ι) (w : ω) :
    (∃ result q after, p.beginCheckout w = .decided result q after ∧
      Answers p.asked w result q after) ∨
    (p.beginCheckout w = .waiting p.asked ∧ p.idle = [] ∧ p.asked.reserve? p.capacity = none) := by
  rw [beginCheckout_eq]
  rcases hi : p.idle with _ | ⟨m, rest⟩
  · cases hr : p.asked.reserve? p.capacity with
    | none => exact Or.inr ⟨rfl, rfl, rfl⟩
    | some q =>
        exact Or.inl ⟨_, _, _, rfl,
          answers_of_reserved (p := p.asked) hi (Nat.le_max_right _ _) hr w⟩
  · exact Or.inl ⟨_, _, _, rfl, .lent hi⟩

theorem endCheckout_answers (p : Pool ω ι) (w : ω) :
    Answers p w (p.endCheckout w).1 (p.endCheckout w).2.1 (p.endCheckout w).2.2 := by
  unfold endCheckout
  split
  · exact .lent ‹_›
  · cases hr : p.reserve? p.maxLive with
    | none => exact .exhausted ‹_› (reserve?_eq_none hr)
    | some q => exact answers_of_reserved ‹_› (Nat.le_max_left _ _) hr w

theorem checkout_answers (p : Pool ω ι) (w : ω) :
    Answers p.asked w (p.checkout w).1 (p.checkout w).2.1 (p.checkout w).2.2 := by
  unfold checkout
  rcases beginCheckout_cases p w with ⟨result, q, after, hb, ha⟩ | ⟨hb, _, _⟩
  · rw [hb]
    exact ha
  · rw [hb]
    exact endCheckout_answers p.asked w

/-- A request for an instance changes the surroundings as an attempt of the factory does, or not
at all. -/
theorem checkout_surroundings (p : Pool ω ι) (w : ω) :
    (p.checkout w).2.2 = w ∨ (p.checkout w).2.2 = (p.factory w).2 := by
  have answer := p.checkout_answers w
  revert answer
  generalize p.checkout w = c
  obtain ⟨result, q, after⟩ := c
  intro answer
  cases answer with
  | lent idle => exact Or.inl rfl
  | made idle isOpen room attempt => exact Or.inr (congrArg Prod.snd attempt).symm
  | failed idle isOpen room attempt => exact Or.inr (congrArg Prod.snd attempt).symm
  | exhausted idle full => exact Or.inl rfl

/-! ## Related surroundings -/

section Related

variable {R : ω → ω → Prop}

/-- Two answers are the same and leave related surroundings behind. -/
def Agree {α β : Type} (R : ω → ω → Prop) (x y : α × β × ω) : Prop :=
  x.1 = y.1 ∧ x.2.1 = y.2.1 ∧ R x.2.2 y.2.2

/-- A factory that cannot tell related surroundings apart. -/
def Blind (R : ω → ω → Prop) (factory : Factory ω ι) : Prop :=
  ∀ v w, R v w → (factory v).1 = (factory w).1 ∧ R (factory v).2 (factory w).2

theorem instantiate_agree {p : Pool ω ι} (blind : Blind R p.factory) {v w : ω} (h : R v w) :
    Agree R (p.instantiate v) (p.instantiate w) := by
  obtain ⟨results, after⟩ := blind v w h
  unfold instantiate
  revert results after
  rcases p.factory v with ⟨body | e, v⟩ <;> rcases p.factory w with ⟨other | f, w⟩ <;>
    intro results after <;> cases results
  · exact ⟨rfl, rfl, after⟩
  · exact ⟨rfl, rfl, after⟩

theorem endCheckout_agree {p : Pool ω ι} (blind : Blind R p.factory) {v w : ω} (h : R v w) :
    Agree R (p.endCheckout v) (p.endCheckout w) := by
  unfold endCheckout
  cases p.idle with
  | cons m rest => exact ⟨rfl, rfl, h⟩
  | nil =>
      dsimp only
      cases kept : p.reserve? p.maxLive with
      | none => exact ⟨rfl, rfl, h⟩
      | some q =>
          obtain ⟨_, _, rfl⟩ := reserve?_eq_some kept
          exact instantiate_agree (p := { p with live := p.live + 1 }) blind h

/-- What a request for an instance leads to depends on the surroundings only as the factory
does. -/
theorem checkout_agree {p : Pool ω ι} (blind : Blind R p.factory) {v w : ω} (h : R v w) :
    Agree R (p.checkout v) (p.checkout w) := by
  unfold checkout
  rw [beginCheckout_eq, beginCheckout_eq]
  cases p.idle with
  | cons m rest => exact ⟨rfl, rfl, h⟩
  | nil =>
      dsimp only
      cases kept : p.asked.reserve? p.capacity with
      | none => exact endCheckout_agree (p := p.asked) blind h
      | some q =>
          obtain ⟨_, _, rfl⟩ := reserve?_eq_some kept
          exact instantiate_agree (p := { p.asked with live := p.live + 1 }) blind h

end Related

/-! ## Prefill -/

/-- One round of a prefill: it stops because no place is free, because the attempt fails or
because the queue is full, or it goes on with the new instance queued. -/
theorem fill_succ (n : Nat) (p : Pool ω ι) (w : ω) :
    (p.reserve? p.capacity = none ∧ fill (n + 1) p w = (.ok (), p, w)) ∨
    (∃ e after, p.factory w = (.error e, after) ∧ fill (n + 1) p w = (.error e, p, after)) ∨
    (∃ body after, p.factory w = (.ok body, after) ∧ p.closed = false ∧ p.live < p.capacity ∧
      (p.idle.length < p.capacity ∧
          fill (n + 1) p w = fill n (p.grown.queued ⟨p.instantiations, body⟩) after ∨
        p.capacity ≤ p.idle.length ∧
          fill (n + 1) p w =
            (.ok (), { p with instantiations := p.instantiations + 1 }, after))) := by
  cases hr : p.reserve? p.capacity with
  | none => exact Or.inl ⟨rfl, by simp [fill, hr]⟩
  | some q =>
      obtain ⟨isOpen, below, _⟩ := reserve?_eq_some hr
      rcases instantiate_reserved hr w with ⟨body, after, hf, hq⟩ | ⟨e, after, hf, hq⟩
      · refine Or.inr (Or.inr ⟨body, after, hf, isOpen, below, ?_⟩)
        by_cases hl : p.idle.length < p.capacity
        · exact Or.inl ⟨hl, by simp [fill, hr, hq, grown, queued, hl]⟩
        · exact Or.inr ⟨by omega, by simp [fill, hr, hq, grown, hl]⟩
      · exact Or.inr (Or.inl ⟨e, after, hf, by simp [fill, hr, hq]⟩)

theorem fill_follows (n : Nat) (p : Pool ω ι) (w : ω) : p.Follows (fill n p w).2.1 := by
  induction n generalizing p w with
  | zero => exact .refl p
  | succ n ih =>
      rcases fill_succ n p w with ⟨_, h⟩ | ⟨e, after, _, h⟩ |
        ⟨body, after, _, _, _, ⟨_, h⟩ | ⟨_, h⟩⟩
      · rw [h]; exact .refl p
      · rw [h]; exact .refl p
      · rw [h]; exact ((follows_grown p).trans (follows_queued _ _)).trans (ih _ _)
      · rw [h]; exact ⟨rfl, rfl, rfl, rfl, rfl, rfl, id⟩

theorem instantiations_le_fill (n : Nat) (p : Pool ω ι) (w : ω) :
    p.instantiations ≤ (fill n p w).2.1.instantiations := by
  induction n generalizing p w with
  | zero => exact Nat.le_refl _
  | succ n ih =>
      rcases fill_succ n p w with ⟨_, h⟩ | ⟨e, after, _, h⟩ |
        ⟨body, after, _, _, _, ⟨_, h⟩ | ⟨_, h⟩⟩
      · exact Nat.le_of_eq (by rw [h])
      · exact Nat.le_of_eq (by rw [h])
      · rw [h]
        have next := ih (p.grown.queued ⟨p.instantiations, body⟩) after
        exact Nat.le_of_succ_le next
      · rw [h]; exact Nat.le_succ _

/-! ## Giving back and closing -/

/-- An instance that comes back is queued when it is sound and there is room in an open pool,
and destroyed otherwise. -/
theorem release_cases (p : Pool ω ι) (m : Member ι) (poisoned : Bool) :
    (poisoned = false ∧ p.closed = false ∧ p.idle.length < p.capacity ∧
      p.release m poisoned = (p.queued m, false)) ∨
    ((poisoned = true ∨ p.closed = true ∨ p.capacity ≤ p.idle.length) ∧
      p.release m poisoned = (p.discard, true)) := by
  unfold release
  cases poisoned with
  | true => exact Or.inr ⟨Or.inl rfl, by simp⟩
  | false =>
      by_cases hc : p.closed = true
      · exact Or.inr ⟨Or.inr (Or.inl hc), by simp [hc]⟩
      · by_cases hl : p.idle.length < p.capacity
        · exact Or.inl ⟨rfl, by simpa using hc, hl, by simp [hc, hl, queued]⟩
        · exact Or.inr ⟨Or.inr (Or.inr (by omega)), by simp [hc, hl]⟩

theorem release_follows (p : Pool ω ι) (m : Member ι) (poisoned : Bool) :
    p.Follows (p.release m poisoned).1 := by
  rcases release_cases p m poisoned with ⟨_, _, _, h⟩ | ⟨_, h⟩
  · rw [h]; exact follows_queued p m
  · rw [h]; exact ⟨rfl, rfl, rfl, rfl, rfl, rfl, id⟩

theorem close_follows (p : Pool ω ι) : p.Follows p.close.1 :=
  ⟨rfl, rfl, rfl, rfl, rfl, rfl, fun _ => rfl⟩

end TieredUdf.Pool
