import Mathlib.Algebra.Order.BigOperators.Group.List
import Mathlib.Algebra.Order.Group.Nat
import TieredUdf.Proofs.Module.History

/-! # Averages between the extremes

The mean times of a report are floors of quotients of sums that are kept apart from the least and
the greatest time.  They stay between those two all the same, and the mean over both tiers stays
between the means of the tiers.  The lower bounds hold however many executions there were; the upper
ones need fewer than `2 ^ 64` of them, since the counters of the calls wrap around there and the
divisor would be too small.
-/

namespace TieredUdf

open CallRecord (times timesOn)
open Numeric (Double)

/-! ## Floors of means -/

section Means

variable {ts us : List Nat} {least greatest m n : Nat}

theorem le_mean (low : ∀ t ∈ ts, least ≤ t) (given : 0 < n) (few : n ≤ ts.length) :
    least ≤ ts.sum / n := by
  have whole : ts.length * least ≤ ts.sum := by
    simpa using List.card_nsmul_le_sum ts least low
  rw [Nat.le_div_iff_mul_le given, Nat.mul_comm]
  exact Nat.le_trans (Nat.mul_le_mul_right least few) whole

theorem mean_le (high : ∀ t ∈ ts, t ≤ greatest) : ts.sum / ts.length ≤ greatest := by
  have whole : ts.sum ≤ ts.length * greatest := by
    simpa using List.sum_le_card_nsmul ts greatest high
  exact Nat.div_le_of_le_mul whole

/-- What two quotients reach, the quotient of the sums reaches as well. -/
theorem min_le_mediant (a b : Nat) (hm : 0 < m) (hn : 0 < n) :
    min (a / m) (b / n) * (m + n) ≤ a + b := by
  have first : min (a / m) (b / n) * m ≤ a :=
    (Nat.le_div_iff_mul_le hm).mp (Nat.min_le_left _ _)
  have second : min (a / m) (b / n) * n ≤ b :=
    (Nat.le_div_iff_mul_le hn).mp (Nat.min_le_right _ _)
  rw [Nat.mul_add]
  omega

/-- What two quotients do not exceed, the quotient of the sums does not exceed either. -/
theorem mediant_le_max (a b : Nat) (hm : 0 < m) (hn : 0 < n) :
    (a + b) / (m + n) ≤ max (a / m) (b / n) := by
  have first : a < (max (a / m) (b / n) + 1) * m :=
    (Nat.div_lt_iff_lt_mul hm).mp (Nat.lt_succ_of_le (Nat.le_max_left _ _))
  have second : b < (max (a / m) (b / n) + 1) * n :=
    (Nat.div_lt_iff_lt_mul hn).mp (Nat.lt_succ_of_le (Nat.le_max_right _ _))
  have whole : a + b < (max (a / m) (b / n) + 1) * (m + n) := by
    rw [Nat.mul_add]
    omega
  exact Nat.le_of_lt_succ ((Nat.div_lt_iff_lt_mul (by omega)).mpr whole)

end Means

/-! ## Divisions -/

/-- A division that is as it should be where the divisor is not zero, whatever it does there. -/
structure Division.Regular (d : Division) : Prop where
  mean : ∀ nanoseconds calls, calls ≠ 0 → d.mean nanoseconds calls = nanoseconds / calls
  rate : ∀ n calls, calls ≠ 0 → d.rate n calls = .quotient n.toNat calls.toNat

theorem Division.Regular.average {d : Division} (h : d.Regular) (nanoseconds calls : UInt64) :
    d.average nanoseconds calls = nanoseconds / calls := by
  unfold Division.average
  split
  · simp [*]
  · exact h.mean nanoseconds calls ‹_›

theorem Division.average_standard (nanoseconds calls : UInt64) :
    standard.average nanoseconds calls = nanoseconds / calls :=
  Regular.average ⟨fun _ _ _ => rfl, fun _ _ _ => rfl⟩ nanoseconds calls

/-- No division of a report is by zero. -/
theorem ModuleStats.reportBy_eq {d : Division} (h : d.Regular) (s : ModuleStats) (key : ModuleKey)
    (hash : ContentHash) (mode : Mode) (interpreterPool nativePool : Option PoolStats) :
    s.reportBy d key hash mode interpreterPool nativePool =
      s.report key hash mode interpreterPool nativePool := by
  have rate : (if s.calls = 0 then .zero else d.rate s.errors s.calls) =
      if s.calls = 0 then .zero else Division.standard.rate s.errors s.calls := by
    split
    · rfl
    · exact h.rate s.errors s.calls ‹_›
  unfold report reportBy
  simp only [h.average, Division.average_standard, rate]

/-! ## Bounds of a report -/

namespace ModuleReport

def onTier (p : ModuleReport) : Tier → TierReport
  | .interpreter => p.interpreter
  | .native => p.native

/-- No mean is less than the least time, and the mean over both tiers is not less than the smaller
one of theirs. -/
structure BoundedBelow (p : ModuleReport) : Prop where
  average : p.least ≤ p.average
  tiers : ∀ tier, (p.onTier tier).calls ≠ 0 → p.least ≤ (p.onTier tier).average
  both : p.interpreter.calls ≠ 0 → p.native.calls ≠ 0 →
    min p.interpreter.average p.native.average ≤ p.average

/-- No mean exceeds the greatest time, and the mean over both tiers does not exceed the larger one
of theirs. -/
structure BoundedAbove (p : ModuleReport) : Prop where
  average : p.average ≤ p.greatest
  tiers : ∀ tier, (p.onTier tier).calls ≠ 0 → (p.onTier tier).average ≤ p.greatest
  both : p.interpreter.calls ≠ 0 → p.native.calls ≠ 0 →
    p.average ≤ max p.interpreter.average p.native.average

end ModuleReport

namespace TierCounters

theorem toNat_pos {count : UInt64} (given : count ≠ 0) : 0 < count.toNat := by
  rw [Nat.pos_iff_ne_zero, ne_eq, ← UInt64.toNat_zero, UInt64.toNat_inj]
  exact given

def average (c : TierCounters) : UInt64 := c.nanoseconds / c.calls

def both (c d : TierCounters) : TierCounters :=
  ⟨c.calls + d.calls, c.nanoseconds + d.nanoseconds⟩

theorem ofTimes_append (ts us : List Nat) : ofTimes (ts ++ us) = (ofTimes ts).both (ofTimes us) := by
  simp [ofTimes, both, UInt64.ofNat_add]

theorem ofTimes_perm {ts us : List Nat} (same : ts.Perm us) : ofTimes ts = ofTimes us := by
  rw [ofTimes, same.length_eq, same.sum_nat, ofTimes]

variable {ts us : List Nat} {least greatest : Nat}

/-- The counters wrap around, so they may count fewer executions than there were. -/
theorem calls_ofTimes_le (ts : List Nat) : (ofTimes ts).calls.toNat ≤ ts.length := by
  simpa [ofTimes] using Nat.mod_le ts.length _

theorem calls_ofTimes (few : ts.length < 2 ^ 64) : (ofTimes ts).calls.toNat = ts.length := by
  rw [ofTimes, UInt64.toNat_ofNat', Nat.mod_eq_of_lt few]

theorem nanoseconds_ofTimes (total : ts.sum < 2 ^ 64) : (ofTimes ts).nanoseconds.toNat = ts.sum := by
  rw [ofTimes, UInt64.toNat_ofNat', Nat.mod_eq_of_lt total]

theorem le_average_ofTimes (low : ∀ t ∈ ts, least ≤ t) (total : ts.sum < 2 ^ 64)
    (called : (ofTimes ts).calls ≠ 0) : least ≤ (ofTimes ts).average.toNat := by
  rw [average, UInt64.toNat_div, nanoseconds_ofTimes total]
  exact le_mean low (toNat_pos called) (calls_ofTimes_le ts)

theorem average_ofTimes_le (high : ∀ t ∈ ts, t ≤ greatest) (total : ts.sum < 2 ^ 64)
    (few : ts.length < 2 ^ 64) : (ofTimes ts).average.toNat ≤ greatest := by
  rw [average, UInt64.toNat_div, nanoseconds_ofTimes total, calls_ofTimes few]
  exact mean_le high

/-- Where the calls of both tiers wrap around, one of the two means is zero. -/
theorem min_average_le {c d : TierCounters} (hc : c.calls ≠ 0) (hd : d.calls ≠ 0)
    (total : c.nanoseconds.toNat + d.nanoseconds.toNat < 2 ^ 64) :
    min c.average d.average ≤ (c.both d).average := by
  have mediant := min_le_mediant c.nanoseconds.toNat d.nanoseconds.toNat (toNat_pos hc)
    (toNat_pos hd)
  rw [UInt64.le_iff_toNat_le, UInt64.toNat_min, average, average, average, both, UInt64.toNat_div,
    UInt64.toNat_div, UInt64.toNat_div, UInt64.toNat_add, UInt64.toNat_add, Nat.mod_eq_of_lt total]
  revert mediant
  generalize min (c.nanoseconds.toNat / c.calls.toNat) (d.nanoseconds.toNat / d.calls.toNat) = q
  intro mediant
  by_cases few : c.calls.toNat + d.calls.toNat < 2 ^ 64
  · have pos : 0 < c.calls.toNat + d.calls.toNat := Nat.add_pos_left (toNat_pos hc) _
    rwa [Nat.mod_eq_of_lt few, Nat.le_div_iff_mul_le pos]
  · have zero : q = 0 := by
      by_contra positive
      have := Nat.mul_le_mul_right (c.calls.toNat + d.calls.toNat) (Nat.pos_of_ne_zero positive)
      omega
    rw [zero]
    exact Nat.zero_le _

theorem average_le_max {c d : TierCounters} (hc : c.calls ≠ 0) (hd : d.calls ≠ 0)
    (total : c.nanoseconds.toNat + d.nanoseconds.toNat < 2 ^ 64)
    (few : c.calls.toNat + d.calls.toNat < 2 ^ 64) :
    (c.both d).average ≤ max c.average d.average := by
  rw [UInt64.le_iff_toNat_le, UInt64.toNat_max, average, average, average, both, UInt64.toNat_div,
    UInt64.toNat_div, UInt64.toNat_div, UInt64.toNat_add, UInt64.toNat_add, Nat.mod_eq_of_lt total,
    Nat.mod_eq_of_lt few]
  exact mediant_le_max _ _ (toNat_pos hc) (toNat_pos hd)

end TierCounters

namespace ModuleStats

theorem average_report (s : ModuleStats) (key : ModuleKey) (hash : ContentHash) (mode : Mode)
    (interpreterPool nativePool : Option PoolStats) :
    (s.report key hash mode interpreterPool nativePool).average = s.nanoseconds / s.executions :=
  Division.average_standard _ _

theorem interpreter_report (s : ModuleStats) (key : ModuleKey) (hash : ContentHash) (mode : Mode)
    (interpreterPool nativePool : Option PoolStats) :
    (s.report key hash mode interpreterPool nativePool).interpreter =
      ⟨s.interpreter.calls, s.interpreter.average⟩ :=
  congrArg (TierReport.mk _) (Division.average_standard _ _)

theorem native_report (s : ModuleStats) (key : ModuleKey) (hash : ContentHash) (mode : Mode)
    (interpreterPool nativePool : Option PoolStats) :
    (s.report key hash mode interpreterPool nativePool).native =
      ⟨s.native.calls, s.native.average⟩ :=
  congrArg (TierReport.mk _) (Division.average_standard _ _)

/-! ## Bounds of the counters -/

section Tallied

variable {s : ModuleStats} {records : List CallRecord} {moments : List Nat}
  {failures : List LastError}

theorem Tallied.least_le (h : s.Tallied records moments failures) {t : Nat}
    (timed : t ∈ times records) : s.least.toNat ≤ t := by
  rw [h.least, foldl_min_eq (fun _ => CallRecord.time_le) (List.ne_nil_of_mem timed)]
  exact List.min?_getD_le_of_mem timed

theorem Tallied.le_greatest (h : s.Tallied records moments failures) {t : Nat}
    (timed : t ∈ times records) : t ≤ s.greatest.toNat := by
  rw [h.greatest, foldl_max_eq]
  exact List.le_max?_getD_of_mem timed

theorem Tallied.both (h : s.Tallied records moments failures) :
    s.interpreter.both s.native = .ofTimes (times records) := by
  rw [h.interpreter, h.native, ← TierCounters.ofTimes_append]
  exact (TierCounters.ofTimes_perm (CallRecord.times_perm records)).symm

theorem Tallied.executions_eq (h : s.Tallied records moments failures) :
    s.executions = (TierCounters.ofTimes (times records)).calls :=
  congrArg TierCounters.calls h.both

/-- The mean of a report is that of the calls of both tiers. -/
theorem Tallied.average (h : s.Tallied records moments failures) :
    s.nanoseconds / s.executions = (TierCounters.ofTimes (times records)).average := by
  rw [TierCounters.average, ← h.executions_eq, h.nanoseconds]
  rfl

theorem mem_times {tier : Tier} {t : Nat} (timed : t ∈ timesOn tier records) :
    t ∈ times records := by
  rw [(CallRecord.times_perm records).mem_iff, List.mem_append]
  cases tier
  · exact Or.inl timed
  · exact Or.inr timed

theorem sum_times (records : List CallRecord) :
    (times records).sum = (timesOn .interpreter records).sum + (timesOn .native records).sum := by
  rw [(CallRecord.times_perm records).sum_nat, List.sum_append]

theorem length_times (records : List CallRecord) : (times records).length =
    (timesOn .interpreter records).length + (timesOn .native records).length := by
  rw [(CallRecord.times_perm records).length_eq, List.length_append]

theorem sum_timesOn_le (tier : Tier) (records : List CallRecord) :
    (timesOn tier records).sum ≤ (times records).sum := by
  have := sum_times records
  cases tier <;> omega

theorem length_timesOn_le (tier : Tier) (records : List CallRecord) :
    (timesOn tier records).length ≤ (times records).length := by
  have := length_times records
  cases tier <;> omega

/-- The share of a tier in a report. -/
theorem Tallied.onTier (h : s.Tallied records moments failures) (key : ModuleKey)
    (hash : ContentHash) (mode : Mode) (interpreterPool nativePool : Option PoolStats)
    (tier : Tier) :
    (s.report key hash mode interpreterPool nativePool).onTier tier =
      ⟨(TierCounters.ofTimes (timesOn tier records)).calls,
        (TierCounters.ofTimes (timesOn tier records)).average⟩ := by
  cases tier
  · rw [← h.interpreter]
    exact s.interpreter_report key hash mode interpreterPool nativePool
  · rw [← h.native]
    exact s.native_report key hash mode interpreterPool nativePool

theorem Tallied.both_sum (h : s.Tallied records moments failures)
    (total : (times records).sum < 2 ^ 64) :
    s.interpreter.nanoseconds.toNat + s.native.nanoseconds.toNat < 2 ^ 64 := by
  have first := sum_timesOn_le .interpreter records
  have second := sum_timesOn_le .native records
  rw [h.interpreter, h.native, TierCounters.nanoseconds_ofTimes (by omega),
    TierCounters.nanoseconds_ofTimes (by omega), ← sum_times]
  exact total

theorem Tallied.both_calls (h : s.Tallied records moments failures)
    (few : (times records).length < 2 ^ 64) :
    s.interpreter.calls.toNat + s.native.calls.toNat < 2 ^ 64 := by
  have first := TierCounters.calls_ofTimes_le (timesOn .interpreter records)
  have second := TierCounters.calls_ofTimes_le (timesOn .native records)
  have whole := length_times records
  rw [h.interpreter, h.native]
  omega

theorem Tallied.boundedBelow (h : s.Tallied records moments failures)
    (total : (times records).sum < 2 ^ 64) (key : ModuleKey) (hash : ContentHash) (mode : Mode)
    (interpreterPool nativePool : Option PoolStats) :
    (s.report key hash mode interpreterPool nativePool).BoundedBelow := by
  have least : (s.report key hash mode interpreterPool nativePool).least ≤ s.least := by
    change (if s.executions = 0 then 0 else s.least) ≤ s.least
    rw [UInt64.le_iff_toNat_le]
    split
    · exact Nat.zero_le _
    · exact Nat.le_refl _
  constructor
  case average =>
    rw [average_report, UInt64.le_iff_toNat_le]
    change (if s.executions = 0 then 0 else s.least).toNat ≤ _
    split
    · exact Nat.zero_le _
    · rename_i called
      rw [h.average]
      rw [h.executions_eq] at called
      exact TierCounters.le_average_ofTimes (fun _ => h.least_le) total called
  case tiers =>
    intro tier called
    have fits := Nat.lt_of_le_of_lt (sum_timesOn_le tier records) total
    rw [h.onTier] at called ⊢
    refine UInt64.le_trans least ?_
    rw [UInt64.le_iff_toNat_le]
    exact TierCounters.le_average_ofTimes (fun _ timed => h.least_le (mem_times timed)) fits called
  case both =>
    intro first second
    rw [average_report, interpreter_report, native_report, h.average, ← h.both]
    exact TierCounters.min_average_le first second (h.both_sum total)

theorem Tallied.boundedAbove (h : s.Tallied records moments failures)
    (total : (times records).sum < 2 ^ 64) (few : (times records).length < 2 ^ 64) (key : ModuleKey)
    (hash : ContentHash) (mode : Mode) (interpreterPool nativePool : Option PoolStats) :
    (s.report key hash mode interpreterPool nativePool).BoundedAbove := by
  constructor
  case average =>
    rw [average_report, h.average, UInt64.le_iff_toNat_le]
    exact TierCounters.average_ofTimes_le (fun _ => h.le_greatest) total few
  case tiers =>
    intro tier _
    have fits := Nat.lt_of_le_of_lt (sum_timesOn_le tier records) total
    have fewer := Nat.lt_of_le_of_lt (length_timesOn_le tier records) few
    rw [h.onTier, UInt64.le_iff_toNat_le]
    exact TierCounters.average_ofTimes_le (fun _ timed => h.le_greatest (mem_times timed)) fits fewer
  case both =>
    intro first second
    rw [average_report, interpreter_report, native_report, h.average, ← h.both]
    exact TierCounters.average_le_max first second (h.both_sum total) (h.both_calls few)

end Tallied

/-- However a module records its calls, its report divides by no count that is zero.  As long as the
times of its executions fit 64 bits together, no mean is less than the least time, and no mean
exceeds the greatest one before there are more executions than can be counted; in the same way the
mean of all executions lies between the means of the tiers. -/
theorem averages_between (compile : CompileDiagnostics) (registeredAt : Nat)
    (history : List (CallRecord × Nat)) (key : ModuleKey) (hash : ContentHash) (mode : Mode)
    (interpreterPool nativePool : Option PoolStats) :
    let records := history.map Prod.fst
    let s := (initial compile registeredAt).recordAll history
    let report := s.report key hash mode interpreterPool nativePool
    (∀ d : Division, d.Regular →
      s.reportBy d key hash mode interpreterPool nativePool = report) ∧
    ((times records).sum < 2 ^ 64 →
      report.BoundedBelow ∧ ((times records).length < 2 ^ 64 → report.BoundedAbove)) := by
  intro records s report
  have tallied : s.Tallied records (history.map Prod.snd) _ :=
    tallied_recordAll compile registeredAt history
  refine ⟨fun d regular => reportBy_eq regular s key hash mode interpreterPool nativePool,
    fun total => ⟨?_, fun few => ?_⟩⟩
  · exact tallied.boundedBelow total key hash mode interpreterPool nativePool
  · exact tallied.boundedAbove total few key hash mode interpreterPool nativePool

/-- One slow call on the interpreter and two fast native ones, with a rejection between them. -/
def uneven : List (CallRecord × Nat) :=
  [(.execution .interpreter ⟨10⟩ 0 none, 1), (.rejection "busy", 2),
    (.execution .native ⟨3⟩ 0 none, 3), (.execution .native ⟨4⟩ 0 none, 4)]

theorem averages_between_uneven :
    (times (uneven.map Prod.fst)).sum < 2 ^ 64 ∧ (times (uneven.map Prod.fst)).length < 2 ^ 64 ∧
    (reportOn uneven).BoundedBelow ∧ (reportOn uneven).BoundedAbove ∧
    (reportOn uneven).least = 3 ∧ (reportOn uneven).native.average = 3 ∧
    (reportOn uneven).average = 5 ∧ (reportOn uneven).interpreter.average = 10 ∧
    (reportOn uneven).greatest = 10 := by
  obtain ⟨_, bounds⟩ := averages_between (.initial .disabled none) 0 uneven ⟨"boost", "1"⟩ ⟨[]⟩
    .native none none
  obtain ⟨below, above⟩ := bounds (by decide)
  exact ⟨by decide, by decide, below, above (by decide), by decide, by decide, by decide, by decide,
    by decide⟩

/-! ## More executions than can be counted -/

/-- Some executions that take no time, and two of one nanosecond. -/
def instants (n : Nat) : List (CallRecord × Nat) :=
  List.replicate n (.execution .interpreter ⟨0⟩ 0 none, 1) ++
    [(.execution .interpreter ⟨1⟩ 0 none, 2), (.execution .interpreter ⟨1⟩ 0 none, 2)]

theorem times_instants (n : Nat) :
    times ((instants n).map Prod.fst) = List.replicate n 0 ++ [1, 1] := by
  unfold instants times
  rw [List.map_append, List.filterMap_append, List.map_replicate]
  exact congrArg (· ++ [1, 1]) (List.filterMap_replicate_of_some rfl)

theorem foldl_max_instants (n : Nat) : (List.replicate n 0 ++ [1, 1]).foldl max 0 = 1 := by
  induction n with
  | zero => rfl
  | succ n ih => exact ih

theorem average_reportOn (history : List (CallRecord × Nat)) :
    (reportOn history).average = (TierCounters.ofTimes (times (history.map Prod.fst))).average := by
  rw [reportOn, average_report]
  exact (tallied_recordAll _ _ _).average

theorem sum_times_instants (n : Nat) : (times ((instants n).map Prod.fst)).sum = 2 := by
  rw [times_instants, List.sum_append, List.sum_replicate_nat, Nat.mul_zero]
  rfl

theorem greatest_reportOn_instants (n : Nat) : (reportOn (instants n)).greatest = 1 := by
  have most := (tallied_recordAll (.initial .disabled none) 0 (instants n)).greatest
  rw [times_instants, foldl_max_instants] at most
  exact UInt64.toNat_inj.mp most

theorem average_reportOn_instants {n : Nat} (overflown : n + 2 = 2 ^ 64 + 1) :
    (reportOn (instants n)).average = 2 := by
  have length : (times ((instants n).map Prod.fst)).length = 2 ^ 64 + 1 := by
    rw [times_instants, List.length_append, List.length_replicate]
    exact overflown
  rw [average_reportOn, TierCounters.average, TierCounters.ofTimes, sum_times_instants, length]
  decide

theorem boundedAbove_instants_false {n : Nat} (overflown : n + 2 = 2 ^ 64 + 1) :
    ¬ (reportOn (instants n)).BoundedAbove := by
  intro bounded
  have above := bounded.average
  rw [greatest_reportOn_instants, average_reportOn_instants overflown] at above
  exact absurd above (by decide)

/-- After so many executions their counter has come round to one, and the mean is more than any of
the times. -/
theorem not_averages_between_overflown :
    (times ((instants (2 ^ 64 - 1)).map Prod.fst)).sum = 2 ∧
    (reportOn (instants (2 ^ 64 - 1))).greatest = 1 ∧
    (reportOn (instants (2 ^ 64 - 1))).average = 2 ∧
    ¬ (reportOn (instants (2 ^ 64 - 1))).BoundedAbove := by
  have overflown : 2 ^ 64 - 1 + 2 = 2 ^ 64 + 1 := by decide
  exact ⟨sum_times_instants _, greatest_reportOn_instants _, average_reportOn_instants overflown,
    boundedAbove_instants_false overflown⟩

end ModuleStats

end TieredUdf
