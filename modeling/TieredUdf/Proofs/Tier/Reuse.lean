import TieredUdf.Proofs.Tier.Conservation

/-! # Which instance is lent next

An instance that trapped is destroyed when its lease ends and lent to nobody after that.  A sound
one that comes back to an open pool with room for it joins the queue, and instances are lent again
in the order in which they joined.
-/

namespace TieredUdf.Chronicle

variable {ω ι : Type} {c d : Chronicle ω ι}

/-! ## Leases -/

/-- The notes on a lease are right, and an instance that trapped is destroyed when its lease
ends. -/
structure Tracked (c : Chronicle ω ι) : Prop where
  lease : ∀ k lease, c.lease? k = some lease →
    c.borrowed[k]? = some lease.member.number ∧ (lease.poisoned = true ↔ k ∈ c.trapped)
  trapped : ∀ k ∈ c.trapped, ∃ n, c.borrowed[k]? = some n ∧ (c.lease? k = none → n ∈ c.discarded)

theorem getElem?_append_kept {numbers : List Nat} {k n : Nat} (known : numbers[k]? = some n)
    (later : List Nat) : (numbers ++ later)[k]? = some n := by
  obtain ⟨small, _⟩ := List.getElem?_eq_some_iff.mp known
  rw [List.getElem?_append_left small, known]

/-- The end of one lease leaves the notes on the others right. -/
theorem Tracked.ended (h : c.Tracked) {number : Nat} {lease : Lease ι}
    (held : c.lease? number = some lease) (p : Pool ω ι) :
    let lease? := Lending.lease? { c.toLending with pool := p, leases := c.leases.set number none }
    (∀ k other, lease? k = some other →
      c.borrowed[k]? = some other.member.number ∧ (other.poisoned = true ↔ k ∈ c.trapped)) ∧
    ∀ k ∈ c.trapped, k ≠ number →
      ∃ n, c.borrowed[k]? = some n ∧ (lease? k = none → n ∈ c.discarded) := by
  intro lease?
  have leases : ∀ k, lease? k = if k = number then none else c.lease? k :=
    Lending.lease?_set held none p
  refine ⟨fun k other at_k => ?_, fun k trapped other => ?_⟩
  · rw [leases k] at at_k
    by_cases own : k = number
    · simp [own] at at_k
    · rw [if_neg own] at at_k
      exact h.lease k other at_k
  · rw [leases k, if_neg other]
    exact h.trapped k trapped

theorem Happens.tracked (counted : c.Counted) (h : c.Tracked) (happens : Happens c d) :
    d.Tracked := by
  cases happens with
  | filled isOpen room attempt => exact ⟨h.lease, h.trapped⟩
  | strayed after => exact ⟨h.lease, h.trapped⟩
  | asked => exact ⟨h.lease, h.trapped⟩
  | closed => exact ⟨h.lease, h.trapped⟩
  | @answered result p after waits answers =>
      cases result with
      | error e => exact ⟨h.lease, h.trapped⟩
      | ok m =>
          have leases := Lending.lease?_answered c.toLending m p after
          have last : c.leases.length = c.borrowed.length := counted.leases_eq
          constructor
          · intro k lease held
            rw [show (c.answer (.ok m) p after).lease? k = _ from leases k] at held
            change (c.borrowed ++ [m.number])[k]? = _ ∧ (_ ↔ k ∈ c.trapped)
            by_cases new : k = c.leases.length
            · -- no call has gone through the new lease
              rw [if_pos new, Option.some.injEq] at held
              subst held
              refine ⟨by rw [new, last, List.getElem?_concat_length]; rfl, ?_⟩
              have untouched : k ∉ c.trapped := by
                intro trapped
                obtain ⟨n, known, _⟩ := h.trapped k trapped
                obtain ⟨small, _⟩ := List.getElem?_eq_some_iff.mp known
                omega
              simp [Lease.ofMember, untouched]
            · rw [if_neg new] at held
              obtain ⟨known, poisoned⟩ := h.lease k lease held
              exact ⟨getElem?_append_kept known _, poisoned⟩
          · intro k trapped
            obtain ⟨n, known, ended⟩ := h.trapped k trapped
            refine ⟨n, getElem?_append_kept known _, fun gone => ended ?_⟩
            rw [show (c.answer (.ok m) p after).lease? k = _ from leases k] at gone
            by_cases new : k = c.leases.length
            · simp [new] at gone
            · rwa [if_neg new] at gone
  | @called number lease held result body =>
      have leases := Lending.lease?_set held (some (lease.afterCall result body)) c.pool
      obtain ⟨known, poisoned⟩ := h.lease number lease held
      constructor
      · intro k other at_k
        rw [show Lending.lease? _ k = _ from leases k] at at_k
        by_cases own : k = number
        · rw [if_pos own, Option.some.injEq] at at_k
          subst own at_k
          refine ⟨known, ?_⟩
          cases trap : Lease.isTrap result <;> simp [Lease.afterCall, trap, poisoned]
        · rw [if_neg own] at at_k
          refine ⟨(h.lease k other at_k).1, ?_⟩
          rw [(h.lease k other at_k).2]
          cases Lease.isTrap result <;> simp [own]
      · intro k trapped
        have earlier : k = number ∨ k ∈ c.trapped := by
          cases trap : Lease.isTrap result <;> simp [trap] at trapped <;> tauto
        by_cases own : k = number
        · subst own
          exact ⟨_, known, fun gone => by
            rw [show Lending.lease? _ k = _ from leases k, if_pos rfl] at gone
            cases gone⟩
        · obtain ⟨n, known, ended⟩ := h.trapped k (earlier.resolve_left own)
          refine ⟨n, known, fun gone => ended ?_⟩
          rwa [show Lending.lease? _ k = _ from leases k, if_neg own] at gone
  | @returned number lease held sound isOpen room =>
      obtain ⟨others, kept⟩ := h.ended held (c.pool.queued lease.member)
      have untrapped : number ∉ c.trapped := fun trapped => by
        have poisoned := (h.lease number lease held).2.mpr trapped
        rw [sound] at poisoned
        cases poisoned
      exact ⟨others, fun k trapped => kept k trapped fun own => untrapped (own ▸ trapped)⟩
  | @discarded number lease held =>
      obtain ⟨others, kept⟩ := h.ended held c.pool.discard
      refine ⟨others, fun k trapped => ?_⟩
      by_cases own : k = number
      · subst own
        exact ⟨_, (h.lease k lease held).1, fun _ => by simp⟩
      · obtain ⟨n, known, gone⟩ := kept k trapped own
        exact ⟨n, known, fun ended => List.mem_append_left _ (gone ended)⟩

/-! ## The queue -/

/-- Instances leave the queue in the order in which they joined it, until the pool is closed. -/
structure InTurn (c : Chronicle ω ι) : Prop where
  queue : c.queued = c.served ++ c.cleared ++ c.pool.idleNumbers
  open_uncleared : c.pool.closed = false → c.cleared = []
  served_sub : c.served.Sublist c.borrowed

theorem Happens.inTurn (balanced : c.toLending.Balanced) (tracked : c.Tracked) (h : c.InTurn)
    (happens : Happens c d) : d.InTurn := by
  obtain ⟨queue, uncleared, sub⟩ := h
  cases happens with
  | filled isOpen room attempt =>
      refine ⟨?_, uncleared, sub⟩
      simp [queue, Pool.queued, Pool.grown, Pool.idleNumbers]
  | strayed after => exact ⟨queue, uncleared, sub⟩
  | asked => exact ⟨queue, uncleared, sub⟩
  | @answered result p after waits answers =>
      cases answers with
      | @lent m rest idle =>
          have first : c.pool.idleNumbers = m.number :: rest.map Member.number := by
            simp [Pool.idleNumbers, idle]
          have old : m.number < c.pool.instantiations :=
            balanced.number_lt m.number (by simp [first])
          -- nothing is idle in a closed pool, so nothing has been cleared
          have isOpen : c.pool.closed = false := by
            by_contra closed
            have empty := balanced.closed_idle (by simpa using closed)
            simp [idle] at empty
          refine ⟨?_, uncleared, ?_⟩
          · simp only [answer, Lending.answered, old, if_true, Pool.idleNumbers]
            rw [queue, first, uncleared isOpen]
            simp
          · simp only [answer, old, if_true]
            exact sub.append (.refl _)
      | made idle isOpen room attempt =>
          refine ⟨?_, uncleared, ?_⟩
          · simpa [answer, Lending.answered, Pool.grown, Pool.idleNumbers] using queue
          · simp only [answer, Nat.lt_irrefl, if_false]
            exact sub.trans (List.sublist_append_left _ _)
      | failed idle isOpen room attempt => exact ⟨queue, uncleared, sub⟩
      | exhausted idle full => exact ⟨queue, uncleared, sub⟩
  | called held result body => exact ⟨queue, uncleared, sub⟩
  | @returned number lease held sound isOpen room =>
      refine ⟨?_, uncleared, sub⟩
      simp [queue, (tracked.lease number lease held).1, Pool.queued, Pool.idleNumbers]
  | discarded held => exact ⟨queue, uncleared, sub⟩
  | closed =>
      refine ⟨?_, fun isOpen => by simp [Pool.close] at isOpen, sub⟩
      simp [queue, Pool.close, Pool.idleNumbers]

/-! ## Runs -/

/-- The notes of a chronicle fit its pool. -/
structure Faithful (c : Chronicle ω ι) : Prop extends c.Accounted where
  tracked : c.Tracked
  inTurn : c.InTurn

theorem Happens.faithful (h : c.Faithful) (happens : Happens c d) : d.Faithful where
  toAccounted := happens.accounted h.toAccounted
  tracked := happens.tracked h.counted h.tracked
  inTurn := happens.inTurn h.balanced h.tracked h.inTurn

theorem Faithful.events (h : c.Faithful) (events : Events c d) : d.Faithful := by
  induction events with
  | refl => exact h
  | tail _ happens ih => exact happens.faithful ih

theorem faithful_create (key : ModuleKey) (tier : Tier) (factory : Factory ω ι)
    (capacity maxLive : Nat) (timeout : Text.Duration) (surroundings : ω) :
    (ofPool (Pool.create key tier factory capacity maxLive timeout) surroundings).Faithful where
  toAccounted := accounted_create key tier factory capacity maxLive timeout surroundings
  tracked := ⟨fun k lease held => by simp [Lending.lease?, ofPool, Lending.ofPool] at held,
    fun k trapped => by simp [ofPool] at trapped⟩
  inTurn := ⟨rfl, fun _ => rfl, .refl []⟩

/-- The instance of a lease through which no call trapped, given back to an open pool with room
for it, is queued. -/
theorem Tracked.drop_queued (h : c.Tracked) {number : Nat} {lease : Lease ι}
    (held : c.lease? number = some lease) (untrapped : number ∉ c.trapped)
    (isOpen : c.pool.closed = false) (room : c.pool.idle.length < c.pool.capacity) :
    c.step (.drop number) =
      { c with
        pool := c.pool.queued lease.member
        leases := c.leases.set number none
        queued := c.queued ++ [lease.member.number] } := by
  obtain ⟨known, poisoned⟩ := h.lease number lease held
  have sound : lease.poisoned = false := by simpa [untrapped] using poisoned
  simp [step, Lending.drop?_of_held held, Pool.release, sound, isOpen, room, Pool.queued, known]

/-- What holds of a chronicle about the instances that come back. -/
structure Reuses (c : Chronicle ω ι) : Prop where
  /-- When a lease has ended through which a call trapped, no later request is answered with its
  instance. -/
  trapped : ∀ k ∈ c.trapped, c.lease? k = none → ∃ n, c.borrowed[k]? = some n ∧
    ∀ more, ∃ later, (c.run more).borrowed = c.borrowed ++ later ∧ n ∉ later
  /-- A sound instance that comes back to an open pool with room for it is queued. -/
  sound : ∀ k lease, c.lease? k = some lease → k ∉ c.trapped → c.pool.closed = false →
    c.pool.idle.length < c.pool.capacity →
    (c.step (.drop k)).pool.idle = c.pool.idle ++ [lease.member] ∧
      (c.step (.drop k)).queued = c.queued ++ [lease.member.number] ∧
      (c.step (.drop k)).destroyed = c.destroyed
  /-- The queue is served first in, first out. -/
  inTurn : c.InTurn

/-- However a pool is used, an instance that trapped is never lent again, and the sound ones are
lent again in turn. -/
theorem run_reuses (key : ModuleKey) (tier : Tier) (factory : Factory ω ι)
    (capacity maxLive : Nat) (timeout : Text.Duration) (surroundings : ω)
    (actions : List (Lending.Action ι)) :
    ((ofPool (Pool.create key tier factory capacity maxLive timeout) surroundings).run
      actions).Reuses := by
  have created := faithful_create key tier factory capacity maxLive timeout surroundings
  have faithful := created.events (run_events created.balanced actions)
  refine ⟨fun k trapped ended => ?_, fun k lease held untrapped isOpen room => ?_,
    faithful.inTurn⟩
  · obtain ⟨n, known, destroyed⟩ := faithful.tracked.trapped k trapped
    refine ⟨n, known, fun more => ?_⟩
    obtain ⟨_, _, later, borrowed, spared⟩ := faithful.toAccounted.run more
    exact ⟨later, borrowed, fun again => spared n again (List.mem_append_left _ (destroyed ended))⟩
  · rw [faithful.tracked.drop_queued held untrapped isOpen room]
    exact ⟨rfl, rfl, rfl⟩

/-- Two instances are lent; a call through the first lease traps, and one after that does not. -/
def trappingUse : List (Lending.Action Unit) :=
  [.checkout, .checkout, .checkout, .call 0 fun _ => (.error (.trap .unreachable "trap"), ()),
    .call 0 fun _ => (.ok [], ()), .drop 0]

theorem run_reuses_trapping :
    let pool := Pool.create ⟨"m", "1"⟩ .interpreter Lending.unsteady 2 2 (.ofMilliseconds 1)
    let c := (ofPool pool 0).run trappingUse
    (0 ∈ c.trapped ∧ c.lease? 0 = none ∧ ∃ n, c.borrowed[0]? = some n ∧
      ∀ more, ∃ later, (c.run more).borrowed = c.borrowed ++ later ∧ n ∉ later) ∧
    (c.lease? 1 = some ⟨⟨1, ()⟩, false⟩ ∧ 1 ∉ c.trapped ∧ c.pool.closed = false ∧
      c.pool.idle.length < c.pool.capacity ∧
      (c.step (.drop 1)).pool.idle = c.pool.idle ++ [⟨1, ()⟩] ∧
      (c.step (.drop 1)).queued = c.queued ++ [1] ∧
      (c.step (.drop 1)).destroyed = c.destroyed) ∧
    c.InTurn := by
  have reuses := run_reuses ⟨"m", "1"⟩ .interpreter Lending.unsteady 2 2 (.ofMilliseconds 1) 0
    trappingUse
  dsimp only
  have sound := reuses.sound 1 ⟨⟨1, ()⟩, false⟩ (by rfl) (by decide +kernel) (by decide +kernel)
    (by decide +kernel)
  have trapped := reuses.trapped 0 (by decide +kernel) (by rfl)
  exact ⟨⟨by decide +kernel, by rfl, trapped⟩,
    ⟨by rfl, by decide +kernel, by decide +kernel, by decide +kernel, sound⟩, reuses.inTurn⟩

end TieredUdf.Chronicle
