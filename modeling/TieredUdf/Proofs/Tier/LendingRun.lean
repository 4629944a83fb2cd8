import TieredUdf.Proofs.Tier.Balance

/-! # Runs of a pool with its borrowers

A run is any sequence of the actions that users of a pool can take.  A checkout that has to wait
is taken in two parts, so that every other action may come between them; nothing requires that
the parts are paired.  The main statement is that the books of the pool agree in every state that
a run reaches.
-/

namespace TieredUdf.Lending

variable {ω ι : Type}

inductive Action (ι : Type) where
  | prefill (n : Nat)
  | checkout
  /-- Ask for an instance and stay waiting when there is none. -/
  | beginCheckout
  /-- Take up a wait. -/
  | endCheckout
  /-- Call the instance of a lease, which answers and changes in any way. -/
  | call (number : Nat) (behaviour : ι → Except ExecError (List Scalar) × ι)
  | drop (number : Nat)
  | close

/-- What an answered request leaves behind: an instance that is handed out is a new lease. -/
def answered (l : Lending ω ι) (result : Except ExecError (Member ι)) (p : Pool ω ι)
    (surroundings : ω) : Lending ω ι :=
  match result with
  | .ok m => { pool := p, surroundings := surroundings, leases := l.leases ++ [some (.ofMember m)] }
  | .error _ => { l with pool := p, surroundings := surroundings }

/-- One action.  A call or a drop through a lease that has ended does nothing. -/
def step (l : Lending ω ι) : Action ι → Lending ω ι
  | .prefill n => (l.prefill n).2
  | .checkout => l.checkout.2
  | .beginCheckout =>
      match l.pool.beginCheckout l.surroundings with
      | .decided result p surroundings => l.answered result p surroundings
      | .waiting p => { l with pool := p }
  | .endCheckout =>
      let (result, p, surroundings) := l.pool.endCheckout l.surroundings
      l.answered result p surroundings
  | .call number behaviour => ((l.call? number behaviour).map Prod.snd).getD l
  | .drop number => ((l.drop? number).map Prod.snd).getD l
  | .close => l.close.2

def run (l : Lending ω ι) (actions : List (Action ι)) : Lending ω ι := actions.foldl step l

@[simp] theorem run_cons (l : Lending ω ι) (a : Action ι) (actions : List (Action ι)) :
    l.run (a :: actions) = (l.step a).run actions := rfl

theorem run_append (l : Lending ω ι) (first more : List (Action ι)) :
    l.run (first ++ more) = (l.run first).run more := List.foldl_append

theorem checkout_eq_answered (l : Lending ω ι) :
    l.checkout.2 = l.answered (l.pool.checkout l.surroundings).1
      (l.pool.checkout l.surroundings).2.1 (l.pool.checkout l.surroundings).2.2 := by
  rcases hc : l.pool.checkout l.surroundings with ⟨result, p, after⟩
  cases result <;> simp [checkout, answered, hc]

/-! ## Leases by number -/

def lentNumbers (l : Lending ω ι) : List Nat := l.lent.map Member.number

private def numbersOf (leases : List (Option (Lease ι))) : List Nat :=
  (leases.filterMap fun r => r.map Lease.member).map Member.number

private theorem lease?_eq_some {l : Lending ω ι} {number : Nat} {lease : Lease ι}
    (h : l.lease? number = some lease) : l.leases[number]? = some (some lease) :=
  Option.join_eq_some_iff.mp h

/-- The lease of a number may change its state but not its instance. -/
private theorem numbersOf_set_some {leases : List (Option (Lease ι))} {number : Nat}
    {lease : Lease ι} (h : leases[number]? = some (some lease)) (after : Lease ι)
    (same : after.member.number = lease.member.number) :
    numbersOf (leases.set number (some after)) = numbersOf leases := by
  induction leases generalizing number with
  | nil => simp at h
  | cons r leases ih =>
      cases number with
      | zero =>
          rw [List.getElem?_cons_zero, Option.some.injEq] at h
          subst h
          simp [numbersOf, same]
      | succ number =>
          rw [List.getElem?_cons_succ] at h
          have := ih h
          cases r with
          | none => simpa [numbersOf] using this
          | some r => simpa [numbersOf] using this

/-- A lease that ends takes its instance away from the others. -/
private theorem numbersOf_set_none {leases : List (Option (Lease ι))} {number : Nat}
    {lease : Lease ι} (h : leases[number]? = some (some lease)) :
    (numbersOf leases).Perm (lease.member.number :: numbersOf (leases.set number none)) := by
  induction leases generalizing number with
  | nil => simp at h
  | cons r leases ih =>
      cases number with
      | zero =>
          rw [List.getElem?_cons_zero, Option.some.injEq] at h
          subst h
          simp [numbersOf]
      | succ number =>
          rw [List.getElem?_cons_succ] at h
          have rest := ih h
          cases r with
          | none => simpa [numbersOf] using rest
          | some r =>
              have front := (rest.cons r.member.number).trans (List.Perm.swap _ _ _)
              simpa [numbersOf] using front

theorem lentNumbers_answered (l : Lending ω ι) (result : Except ExecError (Member ι))
    (p : Pool ω ι) (surroundings : ω) :
    (Pool.lentAfter l.lentNumbers result).Perm (l.answered result p surroundings).lentNumbers := by
  cases result with
  | error e => exact .refl _
  | ok m =>
      have added :
          (l.answered (.ok m) p surroundings).lentNumbers = l.lentNumbers ++ [m.number] := by
        simp [answered, lentNumbers, lent, Lease.ofMember]
      rw [added]
      exact (List.perm_append_singleton _ _).symm

/-- Whoever has a lease holds one of the lent instances. -/
theorem lentNumbers_pos {l : Lending ω ι} {number : Nat} {lease : Lease ι}
    (h : l.lease? number = some lease) : 1 ≤ l.lentNumbers.length := by
  have := (numbersOf_set_none (lease?_eq_some h)).length_eq
  rw [List.length_cons] at this
  change 1 ≤ (numbersOf l.leases).length
  omega

/-- A lease that stays with its instance. -/
theorem lentNumbers_kept {l : Lending ω ι} {number : Nat} {lease : Lease ι}
    (held : l.lease? number = some lease) (after : Lease ι)
    (same : after.member.number = lease.member.number) :
    Lending.lentNumbers { l with leases := l.leases.set number (some after) } = l.lentNumbers :=
  numbersOf_set_some (lease?_eq_some held) after same

/-- A lease that ends, whatever becomes of the pool. -/
theorem lentNumbers_ended {l : Lending ω ι} {number : Nat} {lease : Lease ι}
    (held : l.lease? number = some lease) (p : Pool ω ι) :
    l.lentNumbers.Perm (lease.member.number ::
      Lending.lentNumbers { l with pool := p, leases := l.leases.set number none }) :=
  numbersOf_set_none (lease?_eq_some held)

/-- The leases after one of them has changed or ended, whatever becomes of the pool. -/
theorem lease?_set {l : Lending ω ι} {number : Nat} {lease : Lease ι}
    (held : l.lease? number = some lease) (after : Option (Lease ι)) (p : Pool ω ι) (k : Nat) :
    Lending.lease? { l with pool := p, leases := l.leases.set number after } k =
      if k = number then after else l.lease? k := by
  obtain ⟨small, _⟩ := List.getElem?_eq_some_iff.mp (lease?_eq_some held)
  unfold lease?
  dsimp only
  by_cases own : k = number
  · subst own
    rw [List.getElem?_set_self small, if_pos rfl]
    rfl
  · rw [List.getElem?_set_ne (Ne.symm own), if_neg own]

/-- The leases after one more has been given out. -/
theorem lease?_answered (l : Lending ω ι) (m : Member ι) (p : Pool ω ι) (surroundings : ω)
    (k : Nat) : (l.answered (.ok m) p surroundings).lease? k =
      if k = l.leases.length then some (.ofMember m) else l.lease? k := by
  unfold lease? answered
  dsimp only
  by_cases last : k = l.leases.length
  · rw [last, List.getElem?_concat_length, if_pos rfl]
    rfl
  · rw [if_neg last]
    rcases Nat.lt_or_gt_of_ne last with before | after
    · rw [List.getElem?_append_left before]
    · rw [List.getElem?_eq_none (by simp; omega), List.getElem?_eq_none (Nat.le_of_lt after)]

theorem call?_of_held {l : Lending ω ι} {number : Nat} {lease : Lease ι}
    (held : l.lease? number = some lease) {α : Type} (behaviour : ι → Except ExecError α × ι) :
    l.call? number behaviour = some ((behaviour lease.member.body).1,
      { l with leases := l.leases.set number (some
          (lease.afterCall (behaviour lease.member.body).1 (behaviour lease.member.body).2)) }) := by
  simp [call?, held]

theorem drop?_of_held {l : Lending ω ι} {number : Nat} {lease : Lease ι}
    (held : l.lease? number = some lease) :
    l.drop? number = some
      (if (l.pool.release lease.member lease.poisoned).2 then some lease.member else none,
        { l with
          pool := (l.pool.release lease.member lease.poisoned).1
          leases := l.leases.set number none }) := by
  simp [drop?, held]

/-! ## What every action preserves -/

/-- The books of the pool agree with the leases that it has given out. -/
def Balanced (l : Lending ω ι) : Prop := l.pool.Balanced l.lentNumbers

theorem Balanced.answered {l : Lending ω ι} {result : Except ExecError (Member ι)} {p : Pool ω ι}
    (h : p.Balanced (Pool.lentAfter l.lentNumbers result)) (surroundings : ω) :
    (l.answered result p surroundings).Balanced := by
  have moved := h.perm (lentNumbers_answered l result p surroundings)
  cases result <;> exact moved

theorem Balanced.call {l : Lending ω ι} (h : l.Balanced) {number : Nat} {lease : Lease ι}
    (held : l.lease? number = some lease) (behaviour : ι → Except ExecError (List Scalar) × ι) :
    (l.step (.call number behaviour)).Balanced := by
  rw [step, call?_of_held held]
  have kept := lentNumbers_kept held
    (lease.afterCall (behaviour lease.member.body).1 (behaviour lease.member.body).2) rfl
  exact h.perm (.of_eq kept.symm)

theorem Balanced.drop {l : Lending ω ι} (h : l.Balanced) {number : Nat} {lease : Lease ι}
    (held : l.lease? number = some lease) : (l.step (.drop number)).Balanced := by
  rw [step, drop?_of_held held]
  exact (h.perm (lentNumbers_ended held _)).release lease.poisoned

theorem Balanced.step {l : Lending ω ι} (h : l.Balanced) (a : Action ι) :
    (l.step a).Balanced := by
  cases a with
  | prefill n => exact Pool.Balanced.fill (min n l.pool.capacity) l.surroundings h
  | checkout =>
      rw [show l.step .checkout = l.checkout.2 from rfl, checkout_eq_answered]
      exact .answered (Pool.Balanced.checkout h l.surroundings) _
  | beginCheckout =>
      have counted := Pool.Balanced.recounted h (l.pool.checkouts + 1) l.pool.exhausted
      rcases l.pool.beginCheckout_cases l.surroundings with
        ⟨result, q, after, hb, answer⟩ | ⟨hb, _, _⟩
      · simp only [Lending.step, hb]
        exact .answered (counted.answers answer) after
      · simp only [Lending.step, hb]
        exact counted
  | endCheckout => exact .answered (Pool.Balanced.endCheckout h l.surroundings) _
  | call number behaviour =>
      cases held : l.lease? number with
      | none => simpa [Lending.step, call?, held] using h
      | some lease => exact h.call held behaviour
  | drop number =>
      cases held : l.lease? number with
      | none => simpa [Lending.step, drop?, held] using h
      | some lease => exact h.drop held
  | close => exact Pool.Balanced.close h

theorem Balanced.run {l : Lending ω ι} (h : l.Balanced) (actions : List (Action ι)) :
    (l.run actions).Balanced := by
  induction actions generalizing l with
  | nil => exact h
  | cons a actions ih => exact ih (h.step a)

/-! ## Settings along a run -/

theorem answered_pool (l : Lending ω ι) (result : Except ExecError (Member ι)) (p : Pool ω ι)
    (surroundings : ω) : (l.answered result p surroundings).pool = p := by
  cases result <;> rfl

theorem step_follows (l : Lending ω ι) (a : Action ι) : l.pool.Follows (l.step a).pool := by
  cases a with
  | prefill n => exact Pool.fill_follows _ _ _
  | checkout =>
      rw [show l.step .checkout = l.checkout.2 from rfl, checkout_eq_answered, answered_pool]
      exact l.pool.follows_asked.trans (l.pool.checkout_answers l.surroundings).follows
  | beginCheckout =>
      rcases l.pool.beginCheckout_cases l.surroundings with
        ⟨result, q, after, hb, answer⟩ | ⟨hb, _, _⟩
      · simp only [step, hb, answered_pool]
        exact l.pool.follows_asked.trans answer.follows
      · simp only [step, hb]
        exact l.pool.follows_asked
  | endCheckout =>
      simp only [step, answered_pool]
      exact (l.pool.endCheckout_answers l.surroundings).follows
  | call number behaviour =>
      cases held : l.lease? number with
      | none => simpa [step, call?, held] using .refl _
      | some lease => simpa [step, call?, held] using .refl _
  | drop number =>
      cases held : l.lease? number with
      | none => simpa [step, drop?, held] using .refl _
      | some lease => simpa [step, drop?, held] using l.pool.release_follows _ _
  | close => exact l.pool.close_follows

theorem run_follows (l : Lending ω ι) (actions : List (Action ι)) :
    l.pool.Follows (l.run actions).pool := by
  induction actions generalizing l with
  | nil => exact .refl _
  | cons a actions ih => exact (l.step_follows a).trans (ih _)

/-- A run with a closing in it ends with a closed pool. -/
theorem closed_of_mem {l : Lending ω ι} {actions : List (Action ι)} (h : .close ∈ actions) :
    (l.run actions).pool.closed = true := by
  obtain ⟨before, after, rfl⟩ := List.append_of_mem h
  rw [run_append, run_cons]
  exact (run_follows _ after).closed rfl

/-! ## The books of a pool along a run -/

/-- What holds of a pool with its borrowers, given the sizes that were asked for.  The last three
parts are about the places that lower the number of living instances: each finds as many as it
takes away. -/
structure Books (capacity maxLive : Nat) (l : Lending ω ι) : Prop where
  live_eq : l.pool.live = l.pool.idle.length + l.lent.length
  idle_le : l.pool.idle.length ≤ max capacity 1
  live_le : l.pool.live ≤ max maxLive (max capacity 1)
  /-- No instance is idle twice, lent twice, or both. -/
  distinct : ((l.pool.idle ++ l.lent).map Member.number).Nodup
  closed_idle : l.pool.closed = true → l.pool.idle = []
  close_covered : l.pool.idle.length ≤ l.pool.live
  drop_covered : ∀ number lease, l.lease? number = some lease → 1 ≤ l.pool.live
  /-- Giving a place back after an attempt, whatever the pool looked like when it was kept. -/
  attempt_covered : ∀ (p q : Pool ω ι) (limit : Nat), p.reserve? limit = some q → 1 ≤ q.live

theorem Balanced.books {l : Lending ω ι} {capacity maxLive : Nat} (h : l.Balanced)
    (hc : l.pool.capacity = max capacity 1) (hl : l.pool.maxLive = max maxLive (max capacity 1)) :
    l.Books capacity maxLive where
  live_eq := by rw [h.live_eq, lentNumbers, List.length_map]
  idle_le := hc ▸ h.idle_le
  live_le := hl ▸ h.live_le
  distinct := by
    rw [List.map_append]
    exact h.distinct
  closed_idle := h.closed_idle
  close_covered := by
    have := h.live_eq
    omega
  drop_covered := fun number lease held => by
    have := h.live_eq
    have := lentNumbers_pos held
    omega
  attempt_covered := fun p q limit kept => by
    obtain ⟨_, _, rfl⟩ := Pool.reserve?_eq_some kept
    exact Nat.le_add_left _ _

/-- A fresh pool, whatever its sizes and its factory, keeps its books in every state that a run
reaches; and once it is closed, nothing that follows puts an instance into its queue again. -/
theorem run_books (key : ModuleKey) (tier : Tier) (factory : Factory ω ι) (capacity maxLive : Nat)
    (timeout : Text.Duration) (surroundings : ω) (actions : List (Action ι)) :
    let start := ofPool (Pool.create key tier factory capacity maxLive timeout) surroundings
    (start.run actions).Books capacity maxLive ∧
      (.close ∈ actions → ∀ more,
        (start.run (actions ++ more)).pool.closed = true ∧
        (start.run (actions ++ more)).pool.idle = []) := by
  intro start
  have balanced : ∀ actions, (start.run actions).Balanced := fun actions =>
    Balanced.run (l := start)
      (Pool.balanced_create key tier factory capacity maxLive timeout) actions
  have settings := start.run_follows actions
  refine ⟨(balanced actions).books settings.capacity settings.maxLive, fun closed more => ?_⟩
  have closed : (start.run (actions ++ more)).pool.closed = true :=
    closed_of_mem (List.mem_append_left more closed)
  exact ⟨closed, (balanced (actions ++ more)).closed_idle closed⟩

/-- A factory that counts its attempts and fails in every second one. -/
def unsteady : Factory Nat Unit := fun attempt =>
  (if attempt % 2 = 1 then .error (.instantiation "refused") else .ok (), attempt + 1)

/-- Two instances are lent, one attempt has failed and the pool is closed; the instance that is
dropped after that is not queued. -/
theorem run_books_unsteady :
    let start := ofPool (Pool.create ⟨"m", "1"⟩ .interpreter unsteady 0 2 (.ofMilliseconds 1)) 0
    (start.run [.prefill 2, .checkout, .checkout, .checkout, .close]).Books 0 2 ∧
      Action.close ∈ [.prefill 2, .checkout, .checkout, .checkout, Action.close (ι := Unit)] ∧
      (start.run ([.prefill 2, .checkout, .checkout, .checkout, .close] ++ [.drop 0])).pool.idle
        = [] := by
  have books := run_books ⟨"m", "1"⟩ .interpreter unsteady 0 2 (.ofMilliseconds 1) 0
    [.prefill 2, .checkout, .checkout, .checkout, .close]
  exact ⟨books.1, by simp, (books.2 (by simp) [.drop 0]).2⟩

end TieredUdf.Lending
