import Mathlib.Data.List.Nodup
import TieredUdf.Proofs.Tier.PoolStep
import TieredUdf.Tier.Lending

/-! # The books of a pool

Whatever is done to a pool, and whichever attempts to make an instance fail, the number of living
instances is the number of the idle ones and the lent ones together, both stay within their
bounds, no instance is in two places, and a closed pool keeps nothing.
-/

namespace TieredUdf

variable {ω ι : Type}

/-! ## The invariant of a pool -/

namespace Pool

def idleNumbers (p : Pool ω ι) : List Nat := p.idle.map Member.number

/-- The books of a pool agree with the numbers of the instances that are lent. -/
structure Balanced (p : Pool ω ι) (lent : List Nat) : Prop where
  live_eq : p.live = p.idle.length + lent.length
  idle_le : p.idle.length ≤ p.capacity
  live_le : p.live ≤ p.maxLive
  capacity_le : p.capacity ≤ p.maxLive
  closed_idle : p.closed = true → p.idle = []
  distinct : (p.idleNumbers ++ lent).Nodup
  number_lt : ∀ n ∈ p.idleNumbers ++ lent, n < p.instantiations

/-- The numbers of the lent instances after a request with a given answer. -/
def lentAfter (lent : List Nat) : Except ExecError (Member ι) → List Nat
  | .ok m => m.number :: lent
  | .error _ => lent

theorem balanced_create (key : ModuleKey) (tier : Tier) (factory : Factory ω ι)
    (capacity maxLive : Nat) (timeout : Text.Duration) :
    (create key tier factory capacity maxLive timeout).Balanced [] where
  live_eq := rfl
  idle_le := Nat.zero_le _
  live_le := Nat.zero_le _
  capacity_le := Nat.le_max_right _ _
  closed_idle := fun h => Bool.noConfusion h
  distinct := List.nodup_nil
  number_lt := by simp [create, idleNumbers]

namespace Balanced

variable {p : Pool ω ι} {lent : List Nat}

/-- The order in which instances were lent does not matter. -/
theorem perm {other : List Nat} (h : p.Balanced lent) (same : lent.Perm other) :
    p.Balanced other where
  live_eq := by rw [h.live_eq, same.length_eq]
  idle_le := h.idle_le
  live_le := h.live_le
  capacity_le := h.capacity_le
  closed_idle := h.closed_idle
  distinct := ((same.append_left p.idleNumbers).nodup_iff).mp h.distinct
  number_lt := fun n hn => h.number_lt n ((same.append_left p.idleNumbers).mem_iff.mpr hn)

/-- The counters of requests play no part. -/
theorem recounted (h : p.Balanced lent) (checkouts exhausted : Nat) :
    Balanced { p with checkouts := checkouts, exhausted := exhausted } lent :=
  ⟨h.live_eq, h.idle_le, h.live_le, h.capacity_le, h.closed_idle, h.distinct, h.number_lt⟩

/-- The number of the next instance is in use nowhere. -/
theorem next_not_mem (h : p.Balanced lent) : p.instantiations ∉ p.idleNumbers ++ lent :=
  fun hn => Nat.lt_irrefl _ (h.number_lt _ hn)

/-- The first idle instance is lent. -/
theorem lend {m : Member ι} {rest : List (Member ι)} (h : p.Balanced lent)
    (idle : p.idle = m :: rest) : Balanced { p with idle := rest } (m.number :: lent) := by
  have moved : (rest.map Member.number ++ m.number :: lent).Perm (p.idleNumbers ++ lent) := by
    rw [idleNumbers, idle]
    exact List.perm_middle
  refine ⟨?_, ?_, h.live_le, h.capacity_le, ?_, moved.nodup_iff.mpr h.distinct,
    fun n hn => h.number_lt n (moved.mem_iff.mp hn)⟩
  · have := h.live_eq
    simp only [idle, List.length_cons] at this ⊢
    omega
  · have := h.idle_le
    simp only [idle, List.length_cons] at this ⊢
    omega
  · intro c
    have := h.closed_idle c
    simp [idle] at this

/-- A new instance is lent, of which the bounds allowed one more. -/
theorem grow (h : p.Balanced lent) (room : p.live < p.maxLive) :
    p.grown.Balanced (p.instantiations :: lent) := by
  have moved : (p.idleNumbers ++ p.instantiations :: lent).Perm
      (p.instantiations :: (p.idleNumbers ++ lent)) := List.perm_middle
  refine ⟨?_, h.idle_le, room, h.capacity_le, h.closed_idle, ?_, ?_⟩
  · have := h.live_eq
    simp only [grown, List.length_cons]
    omega
  · exact moved.nodup_iff.mpr (List.nodup_cons.mpr ⟨h.next_not_mem, h.distinct⟩)
  · intro n hn
    rcases List.mem_cons.mp (moved.mem_iff.mp hn) with rfl | hn
    · exact Nat.lt_succ_self _
    · exact Nat.lt_succ_of_lt (h.number_lt n hn)

/-- A lent instance joins the queue of an open pool. -/
theorem queue {m : Member ι} (h : p.Balanced (m.number :: lent)) (isOpen : p.closed = false)
    (room : p.idle.length < p.capacity) : (p.queued m).Balanced lent := by
  have same : (p.queued m).idleNumbers ++ lent = p.idleNumbers ++ m.number :: lent := by
    simp [queued, idleNumbers]
  refine ⟨?_, ?_, h.live_le, h.capacity_le, ?_, same ▸ h.distinct, same ▸ h.number_lt⟩
  · have := h.live_eq
    simp only [queued, List.length_append, List.length_cons, List.length_nil] at this ⊢
    omega
  · simp only [queued, List.length_append, List.length_cons, List.length_nil]
    omega
  · intro c
    rw [show p.closed = true from c] at isOpen
    exact Bool.noConfusion isOpen

/-- A lent instance is destroyed. -/
theorem discard {n : Nat} (h : p.Balanced (n :: lent)) : p.discard.Balanced lent := by
  have sub : (p.idleNumbers ++ lent).Sublist (p.idleNumbers ++ n :: lent) :=
    (List.sublist_cons_self n lent).append_left _
  refine ⟨?_, h.idle_le, ?_, h.capacity_le, h.closed_idle, h.distinct.sublist sub,
    fun k hk => h.number_lt k (sub.subset hk)⟩
  · have := h.live_eq
    simp only [Pool.discard, List.length_cons] at this ⊢
    omega
  · exact Nat.le_trans (Nat.sub_le _ _) h.live_le

/-! ## What operations preserve -/

theorem answers {q : Pool ω ι} {w after : ω} {result : Except ExecError (Member ι)}
    (h : p.Balanced lent) (answer : Answers p w result q after) :
    q.Balanced (lentAfter lent result) := by
  cases answer with
  | lent idle => exact h.lend idle
  | made _ _ room _ => exact h.grow (by have := h.capacity_le; omega)
  | failed _ _ _ _ => exact h
  | exhausted _ _ => exact h.recounted p.checkouts (p.exhausted + 1)

theorem checkout (h : p.Balanced lent) (w : ω) :
    (p.checkout w).2.1.Balanced (lentAfter lent (p.checkout w).1) :=
  (h.recounted (p.checkouts + 1) p.exhausted).answers (checkout_answers p w)

theorem endCheckout (h : p.Balanced lent) (w : ω) :
    (p.endCheckout w).2.1.Balanced (lentAfter lent (p.endCheckout w).1) :=
  h.answers (endCheckout_answers p w)

/-- Each round of a prefill queues what it makes: since a place below the capacity was free,
the queue is not full. -/
theorem fill (n : Nat) (w : ω) (h : p.Balanced lent) : (fill n p w).2.1.Balanced lent := by
  induction n generalizing p w with
  | zero => exact h
  | succ n ih =>
      rcases fill_succ n p w with ⟨_, hf⟩ | ⟨e, after, _, hf⟩ |
        ⟨body, after, _, isOpen, below, ⟨room, hf⟩ | ⟨full, hf⟩⟩
      · rw [hf]; exact h
      · rw [hf]; exact h
      · rw [hf]
        have grown := h.grow (by have := h.capacity_le; omega)
        exact ih after (grown.queue (m := ⟨p.instantiations, body⟩) isOpen room)
      · have := h.live_eq
        omega

theorem release {m : Member ι} (h : p.Balanced (m.number :: lent)) (poisoned : Bool) :
    (p.release m poisoned).1.Balanced lent := by
  rcases release_cases p m poisoned with ⟨_, isOpen, room, hr⟩ | ⟨_, hr⟩
  · rw [hr]; exact h.queue isOpen room
  · rw [hr]; exact h.discard

theorem close (h : p.Balanced lent) : p.close.1.Balanced lent := by
  have sub : lent.Sublist (p.idleNumbers ++ lent) := List.sublist_append_right _ _
  refine ⟨?_, Nat.zero_le _, ?_, h.capacity_le, fun _ => rfl, h.distinct.sublist sub,
    fun k hk => h.number_lt k (sub.subset hk)⟩
  · have := h.live_eq
    simp only [Pool.close, List.length_nil]
    omega
  · exact Nat.le_trans (Nat.sub_le _ _) h.live_le

end Balanced

end Pool

end TieredUdf
