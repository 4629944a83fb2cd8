import TieredUdf.Proofs.Tier.Chronicle

/-! # No instance is lost

Every instance that a pool makes is idle, lent or destroyed, and stays destroyed once it is.  The
counters of the pool agree with that history.
-/

namespace TieredUdf.Chronicle

variable {ω ι : Type} {c d : Chronicle ω ι}

/-! ## Where an instance is -/

/-- Every instance that was made is idle, lent or destroyed, and in one place only. -/
def Placed (c : Chronicle ω ι) : Prop :=
  (c.pool.idleNumbers ++ c.lentNumbers ++ c.destroyed).Perm (List.range c.pool.instantiations)

theorem Happens.placed (h : c.Placed) (happens : Happens c d) : d.Placed := by
  unfold Placed destroyed at h ⊢
  -- every number is counted in the three places
  rw [List.perm_iff_count] at h ⊢
  intro n
  have before := h n
  simp only [List.count_append] at before ⊢
  cases happens with
  | @filled body after isOpen room attempt =>
      have idle : (c.pool.grown.queued ⟨c.pool.instantiations, body⟩).idleNumbers =
          c.pool.idleNumbers ++ [c.pool.instantiations] := by
        simp [Pool.queued, Pool.grown, Pool.idleNumbers]
      have made : (c.pool.grown.queued ⟨c.pool.instantiations, body⟩).instantiations =
          c.pool.instantiations + 1 := rfl
      have lent : Lending.lentNumbers { c.toLending with
          pool := c.pool.grown.queued ⟨c.pool.instantiations, body⟩
          surroundings := after } = c.lentNumbers := rfl
      simp only [idle, made, lent, List.range_succ, List.count_append]
      omega
  | strayed after => exact before
  | asked => exact before
  | @answered result p after waits answers =>
      have lent := (Lending.lentNumbers_answered c.toLending result p after).count_eq n
      cases answers with
      | @lent m rest idle =>
          have first : c.pool.idleNumbers = m.number :: rest.map Member.number := by
            simp [Pool.idleNumbers, idle]
          simp only [first, Pool.lentAfter, List.count_cons] at before lent
          simp only [answer, Lending.answered, Pool.idleNumbers] at lent ⊢
          omega
      | made _ _ _ _ =>
          simp only [Pool.lentAfter, List.count_cons] at lent
          simp only [answer, Lending.answered, Pool.grown, Pool.idleNumbers, List.range_succ,
            List.count_append, List.count_cons, List.count_nil] at before lent ⊢
          omega
      | failed _ _ _ _ => exact before
      | exhausted _ _ => exact before
  | @called number lease held result body =>
      have lent := Lending.lentNumbers_kept held (lease.afterCall result body) rfl
      rw [← lent] at before
      exact before
  | @returned number lease held sound isOpen room =>
      have lent := (Lending.lentNumbers_ended held (c.pool.queued lease.member)).count_eq n
      have idle : (c.pool.queued lease.member).idleNumbers =
          c.pool.idleNumbers ++ [lease.member.number] := by
        simp [Pool.queued, Pool.idleNumbers]
      have made : (c.pool.queued lease.member).instantiations = c.pool.instantiations := rfl
      simp only [idle, made, List.count_append, List.count_cons, List.count_nil] at lent ⊢
      omega
  | @discarded number lease held =>
      have lent := (Lending.lentNumbers_ended held c.pool.discard).count_eq n
      have idle : c.pool.discard.idleNumbers = c.pool.idleNumbers := rfl
      have made : c.pool.discard.instantiations = c.pool.instantiations := rfl
      simp only [idle, made, List.count_append, List.count_cons, List.count_nil] at lent ⊢
      omega
  | closed =>
      have idle : c.pool.close.1.idleNumbers = [] := rfl
      have made : c.pool.close.1.instantiations = c.pool.instantiations := rfl
      have lent : Lending.lentNumbers { c.toLending with pool := c.pool.close.1 } =
        c.lentNumbers := rfl
      simp only [idle, made, lent, List.count_append, List.count_nil]
      omega

/-! ## Counters -/

/-- The counters of the pool agree with what its borrowers have seen. -/
structure Counted (c : Chronicle ω ι) : Prop where
  discarded_eq : c.pool.discarded = c.discarded.length
  leases_eq : c.leases.length = c.borrowed.length
  checkouts_eq :
    c.pool.checkouts = c.borrowed.length + c.pool.exhausted + c.failed + c.waiting

theorem Happens.counted (balanced : c.toLending.Balanced) (h : c.Counted)
    (happens : Happens c d) : d.Counted := by
  obtain ⟨discarded, leases, checkouts⟩ := h
  cases happens with
  | filled isOpen room attempt => exact ⟨discarded, leases, checkouts⟩
  | strayed after => exact ⟨discarded, leases, checkouts⟩
  | asked =>
      refine ⟨discarded, leases, ?_⟩
      simp only [ask, Pool.asked]
      omega
  | @answered result p after waits answers =>
      cases answers with
      | lent idle =>
          refine ⟨discarded, ?_, ?_⟩ <;>
            simp only [answer, Lending.answered, List.length_append, List.length_cons,
              List.length_nil] <;> omega
      | made idle isOpen room attempt =>
          refine ⟨discarded, ?_, ?_⟩ <;>
            simp only [answer, Lending.answered, Pool.grown, List.length_append, List.length_cons,
              List.length_nil] <;> omega
      | failed idle isOpen room attempt =>
          have below : c.pool.live < c.pool.maxLive := by
            have := balanced.capacity_le
            omega
          have fails : c.pool.attemptFails c.surroundings = true := by
            simp [Pool.attemptFails, idle, isOpen, below, attempt, Except.isOk, Except.toBool]
          refine ⟨discarded, leases, ?_⟩
          simp only [answer, Lending.answered, fails, if_true]
          omega
      | exhausted idle full =>
          have refused : c.pool.attemptFails c.surroundings = false := by
            rcases full with closed | full
            · simp [Pool.attemptFails, closed]
            · simp [Pool.attemptFails, Nat.not_lt_of_le full]
          refine ⟨discarded, leases, ?_⟩
          simp only [answer, Lending.answered, refused]
          simp
          omega
  | called held result body => exact ⟨discarded, by simpa using leases, checkouts⟩
  | returned held sound isOpen room => exact ⟨discarded, by simpa using leases, checkouts⟩
  | discarded held =>
      refine ⟨?_, by simpa using leases, checkouts⟩
      simp only [Pool.discard, List.length_append, List.length_cons, List.length_nil, discarded]
  | closed => exact ⟨discarded, leases, checkouts⟩

/-! ## Later requests -/

/-- What was destroyed stays so, and no request from then on is answered with it. -/
def Later (c d : Chronicle ω ι) : Prop :=
  c.destroyed ⊆ d.destroyed ∧
    ∃ later, d.borrowed = c.borrowed ++ later ∧ ∀ n ∈ later, n ∉ c.destroyed

theorem Later.of_borrowed (grows : c.destroyed ⊆ d.destroyed) (same : d.borrowed = c.borrowed) :
    c.Later d := ⟨grows, [], by simp [same], by simp⟩

theorem Later.trans {e : Chronicle ω ι} (h : c.Later d) (k : d.Later e) : c.Later e := by
  obtain ⟨grows, first, borrowed, spared⟩ := h
  obtain ⟨grows', more, borrowed', spared'⟩ := k
  refine ⟨List.Subset.trans grows grows', first ++ more, ?_, fun n later destroyed => ?_⟩
  · rw [borrowed', borrowed, List.append_assoc]
  · rcases List.mem_append.mp later with early | late
    · exact spared n early destroyed
    · exact spared' n late (grows destroyed)

theorem Placed.destroyed_lt (h : c.Placed) {n : Nat} (destroyed : n ∈ c.destroyed) :
    n < c.pool.instantiations :=
  List.mem_range.mp (h.subset (List.mem_append_right _ destroyed))

theorem Placed.nodup (h : c.Placed) :
    (c.pool.idleNumbers ++ c.lentNumbers ++ c.destroyed).Nodup :=
  h.nodup_iff.mpr List.nodup_range

theorem Happens.later (placed : c.Placed) (happens : Happens c d) : c.Later d := by
  cases happens with
  | filled isOpen room attempt => exact .of_borrowed (List.Subset.refl _) rfl
  | strayed after => exact .of_borrowed (List.Subset.refl _) rfl
  | asked => exact .of_borrowed (List.Subset.refl _) rfl
  | called held result body => exact .of_borrowed (List.Subset.refl _) rfl
  | returned held sound isOpen room => exact .of_borrowed (List.Subset.refl _) rfl
  | discarded held => exact .of_borrowed (fun n => by simp [destroyed]; tauto) rfl
  | closed => exact .of_borrowed (fun n => by simp [destroyed]; tauto) rfl
  | @answered result p after waits answers =>
      cases answers with
      | @lent m rest idle =>
          refine ⟨List.Subset.refl _, [m.number], rfl, fun n own destroyed => ?_⟩
          rw [List.mem_singleton.mp own] at destroyed
          have first : m.number ∈ c.pool.idleNumbers := by simp [Pool.idleNumbers, idle]
          exact List.disjoint_of_nodup_append placed.nodup (List.mem_append_left _ first) destroyed
      | made idle isOpen room attempt =>
          refine ⟨List.Subset.refl _, [c.pool.instantiations], rfl, fun n own destroyed => ?_⟩
          rw [List.mem_singleton.mp own] at destroyed
          exact Nat.lt_irrefl _ (placed.destroyed_lt destroyed)
      | failed idle isOpen room attempt => exact .of_borrowed (List.Subset.refl _) rfl
      | exhausted idle full => exact .of_borrowed (List.Subset.refl _) rfl

/-! ## Attempts of the factory -/

/-- A measure of the surroundings that counts the instances a factory has made. -/
def Counts (factory : Factory ω ι) (made : ω → Nat) : Prop :=
  ∀ w, made (factory w).2 = made w + if (factory w).1.isOk then 1 else 0

theorem Happens.made (made : ω → Nat) (counts : Counts c.pool.factory made)
    (happens : Happens c d) :
    made d.surroundings + c.pool.instantiations = made c.surroundings + d.pool.instantiations := by
  have attempted := counts c.surroundings
  cases happens with
  | filled isOpen room attempt =>
      simp only [attempt, Except.isOk, Except.toBool, if_true] at attempted
      simp only [Pool.queued, Pool.grown]
      omega
  | strayed attempt =>
      simp only [attempt, Except.isOk, Except.toBool] at attempted
      simpa using attempted
  | asked => rfl
  | answered waits answers =>
      cases answers with
      | lent idle => rfl
      | made idle isOpen room attempt =>
          simp only [attempt, Except.isOk, Except.toBool, if_true] at attempted
          simp only [answer, Lending.answered, Pool.grown]
          omega
      | failed idle isOpen room attempt =>
          simp only [attempt, Except.isOk, Except.toBool] at attempted
          simpa [answer, Lending.answered] using attempted
      | exhausted idle full => rfl
  | called held result body => rfl
  | returned held sound isOpen room => rfl
  | discarded held => rfl
  | closed => rfl

theorem Events.made (made : ω → Nat) (counts : Counts c.pool.factory made) (events : Events c d) :
    made d.surroundings + c.pool.instantiations = made c.surroundings + d.pool.instantiations := by
  induction events with
  | refl => rfl
  | tail before happens ih =>
      have next := happens.made made ((Events.follows before).factory ▸ counts)
      omega

/-! ## Runs -/

/-- What is kept by every event. -/
structure Accounted (c : Chronicle ω ι) : Prop where
  balanced : c.toLending.Balanced
  placed : c.Placed
  counted : c.Counted

theorem Happens.accounted (h : c.Accounted) (happens : Happens c d) : d.Accounted where
  balanced := happens.balanced h.balanced
  placed := happens.placed h.placed
  counted := happens.counted h.balanced h.counted

theorem Accounted.events (h : c.Accounted) (events : Events c d) : d.Accounted ∧ c.Later d := by
  induction events with
  | refl => exact ⟨h, .of_borrowed (List.Subset.refl _) rfl⟩
  | tail _ happens ih =>
      obtain ⟨accounted, later⟩ := ih
      exact ⟨happens.accounted accounted, later.trans (happens.later accounted.placed)⟩

theorem Accounted.run (h : c.Accounted) (actions : List (Lending.Action ι)) :
    (c.run actions).Accounted ∧ c.Later (c.run actions) :=
  h.events (run_events h.balanced actions)

theorem accounted_create (key : ModuleKey) (tier : Tier) (factory : Factory ω ι)
    (capacity maxLive : Nat) (timeout : Text.Duration) (surroundings : ω) :
    (ofPool (Pool.create key tier factory capacity maxLive timeout) surroundings).Accounted where
  balanced := Pool.balanced_create key tier factory capacity maxLive timeout
  placed := .refl []
  counted := ⟨rfl, rfl, rfl⟩

/-- What holds of a chronicle whose factory began in given surroundings. -/
structure Conserved (factory : Factory ω ι) (surroundings : ω) (c : Chronicle ω ι) : Prop where
  /-- Each instance that was made is idle, lent through one lease or destroyed. -/
  places :
    (c.pool.idleNumbers ++ c.lentNumbers ++ c.destroyed).Perm (List.range c.pool.instantiations)
  made_eq : ∀ made, Counts factory made →
    made c.surroundings = made surroundings + c.pool.instantiations
  /-- Whatever follows, an instance stays destroyed and answers no request. -/
  never_lent : ∀ n ∈ c.destroyed, ∀ more, n ∈ (c.run more).destroyed ∧
    ∃ later, (c.run more).borrowed = c.borrowed ++ later ∧ n ∉ later
  instantiations_eq : c.pool.instantiations = c.pool.live + c.pool.discarded + c.cleared.length
  checkouts_eq :
    c.pool.checkouts = c.leases.length + c.pool.exhausted + c.failed + c.waiting

theorem Accounted.instantiations_eq (h : c.Accounted) :
    c.pool.instantiations = c.pool.live + c.pool.discarded + c.cleared.length := by
  have places := h.placed.length_eq
  have live := h.balanced.live_eq
  have discarded := h.counted.discarded_eq
  simp only [destroyed, Pool.idleNumbers, List.length_append, List.length_map,
    List.length_range] at places
  omega

/-- Nobody waits when every request is answered at once. -/
theorem run_waiting (nobody : c.waiting = 0) {actions : List (Lending.Action ι)}
    (unparted : .beginCheckout ∉ actions) : (c.run actions).waiting = 0 := by
  induction actions generalizing c with
  | nil => exact nobody
  | cons a actions ih =>
      obtain ⟨first, rest⟩ := not_or.mp (List.mem_cons.not.mp unparted)
      refine ih ?_ rest
      cases a with
      | prefill n => exact nobody
      | checkout =>
          simp only [step, answer, ask]
          rcases (c.pool.checkout c.surroundings).1 with e | m <;> simp [nobody]
      | beginCheckout => exact absurd rfl first
      | endCheckout => simp [step, nobody]
      | call number behaviour =>
          cases called : c.toLending.call? number behaviour <;> simp [step, called, nobody]
      | drop number =>
          rcases ended : c.toLending.drop? number with _ | ⟨_ | m, l⟩ <;>
            simp [step, ended, nobody]
      | close => exact nobody

theorem Accounted.empty_of_closed (h : c.Accounted) (closed : c.pool.closed = true)
    (none_lent : c.lentNumbers = []) :
    c.pool.live = 0 ∧ c.destroyed.Perm (List.range c.pool.instantiations) := by
  have idle := h.balanced.closed_idle closed
  have live := h.balanced.live_eq
  have places := h.placed
  simp only [Placed, Pool.idleNumbers, idle, none_lent, List.map_nil, List.nil_append] at places
  exact ⟨by simpa [idle, none_lent] using live, places⟩

/-- A pool loses no instance, whatever its factory does and in whatever order it is used; and once
it is closed and every lease has ended, it has destroyed all that it made. -/
theorem run_conserves (key : ModuleKey) (tier : Tier) (factory : Factory ω ι)
    (capacity maxLive : Nat) (timeout : Text.Duration) (surroundings : ω)
    (actions : List (Lending.Action ι)) :
    let pool := Pool.create key tier factory capacity maxLive timeout
    let c := (ofPool pool surroundings).run actions
    c.Conserved factory surroundings ∧
      (.close ∈ actions → c.lentNumbers = [] →
        c.pool.live = 0 ∧ c.destroyed.Perm (List.range c.pool.instantiations)) ∧
      (.beginCheckout ∉ actions → c.waiting = 0) ∧
      (.endCheckout ∉ actions →
        c.toLending = (Lending.ofPool pool surroundings).run actions) := by
  intro pool c
  have created := accounted_create key tier factory capacity maxLive timeout surroundings
  have events : Events (ofPool pool surroundings) c := run_events created.balanced actions
  have accounted : c.Accounted := (created.events events).1
  refine ⟨⟨accounted.placed, fun made counts => ?_, fun n destroyed more => ?_,
    accounted.instantiations_eq, ?_⟩, fun closed => ?_, run_waiting rfl, run_toLending _⟩
  · exact events.made made counts
  · obtain ⟨_, kept, later, borrowed, spared⟩ := accounted.run more
    exact ⟨kept destroyed, later, borrowed, fun again => spared n again destroyed⟩
  · rw [accounted.counted.checkouts_eq, accounted.counted.leases_eq]
  · exact accounted.empty_of_closed (closed_of_mem created.balanced closed)

private theorem counts_unsteady :
    Counts Lending.unsteady fun attempts => (attempts + 1) / 2 := by
  intro attempts
  unfold Lending.unsteady
  by_cases odd : attempts % 2 = 1
  · simp only [odd, if_true, Except.isOk, Except.toBool]
    change (attempts + 1 + 1) / 2 = (attempts + 1) / 2 + 0
    omega
  · simp only [odd, if_false, Except.isOk, Except.toBool]
    change (attempts + 1 + 1) / 2 = (attempts + 1) / 2 + 1
    omega

/-- A use in which one attempt fails; the closing destroys one instance, and its return the other
one. -/
def unsteadyUse : List (Lending.Action Unit) :=
  [.prefill 2, .checkout, .checkout, .checkout, .drop 0, .close, .drop 1]

theorem run_conserves_unsteady :
    let pool := Pool.create ⟨"m", "1"⟩ .interpreter Lending.unsteady 0 2 (.ofMilliseconds 1)
    let c := (ofPool pool 0).run unsteadyUse
    c.Conserved Lending.unsteady 0 ∧
      (Counts Lending.unsteady fun attempts => (attempts + 1) / 2) ∧
      0 ∈ c.destroyed ∧ 0 ∈ (c.run [.checkout]).destroyed ∧
      .close ∈ unsteadyUse ∧ c.lentNumbers = [] ∧
      (c.pool.live = 0 ∧ c.destroyed.Perm (List.range c.pool.instantiations)) ∧
      .beginCheckout ∉ unsteadyUse ∧ c.waiting = 0 ∧
      .endCheckout ∉ unsteadyUse ∧ c.toLending = (Lending.ofPool pool 0).run unsteadyUse ∧
      (c.pool.instantiations, c.failed) = (2, 1) := by
  have conserves := run_conserves ⟨"m", "1"⟩ .interpreter Lending.unsteady 0 2
    (.ofMilliseconds 1) 0 unsteadyUse
  dsimp only at conserves ⊢
  obtain ⟨conserved, emptied, unwaiting, same⟩ := conserves
  have closing : .close ∈ unsteadyUse := by simp [unsteadyUse]
  have unparted : .beginCheckout ∉ unsteadyUse ∧ .endCheckout ∉ unsteadyUse := by
    simp [unsteadyUse]
  refine ⟨conserved, counts_unsteady, ?destroyed, (conserved.never_lent 0 ?destroyed _).1,
    closing, ?ended, emptied closing ?ended, unparted.1, unwaiting unparted.1, unparted.2,
    same unparted.2, ?counters⟩
  case destroyed => decide +kernel
  case ended => decide +kernel
  case counters => decide +kernel

end TieredUdf.Chronicle
