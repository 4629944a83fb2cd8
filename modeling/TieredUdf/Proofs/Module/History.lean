import Mathlib.Algebra.GroupWithZero.Nat
import Mathlib.Data.List.Induction
import Mathlib.Data.List.Perm.Basic
import TieredUdf.Module.Statistics

/-! # Statistics as a summary of what was recorded

A module records each of its calls as an execution or as a rejection.  The counters are the sums,
the least and the greatest of what was recorded, each kept within 64 bits, so the order in which
calls were recorded shows in nothing but the latest failure.
-/

namespace TieredUdf

open Text (Duration)

/-- What a module records of one call. -/
inductive CallRecord where
  /-- A guest ran for some time, looked up so many fields and may have failed. -/
  | execution (tier : Tier) (elapsed : Duration) (reads : Nat) (error : Option String)
  | rejection (message : String)
  deriving DecidableEq, Repr

namespace CallRecord

def error? : CallRecord → Option String
  | .execution _ _ _ error => error
  | .rejection message => some message

def isRejection : CallRecord → Bool
  | .execution .. => false
  | .rejection _ => true

def isFailedExecution : CallRecord → Bool
  | .execution _ _ _ error => error.isSome
  | .rejection _ => false

def reads : CallRecord → Nat
  | .execution _ _ reads _ => reads
  | .rejection _ => 0

/-- The nanoseconds of an execution, or the greatest number of 64 bits if there were more. -/
def time? : CallRecord → Option Nat
  | .execution _ elapsed _ _ => some (min elapsed.nanoseconds Numeric.maxWord64)
  | .rejection _ => none

def timeOn? (tier : Tier) : CallRecord → Option Nat
  | .execution t elapsed _ _ =>
      if t = tier then some (min elapsed.nanoseconds Numeric.maxWord64) else none
  | .rejection _ => none

def times (records : List CallRecord) : List Nat := records.filterMap time?

def timesOn (tier : Tier) (records : List CallRecord) : List Nat := records.filterMap (timeOn? tier)

def failure? (r : CallRecord × Nat) : Option LastError :=
  r.1.error?.map fun message => ⟨message, r.2⟩

theorem time_le {records : List CallRecord} {t : Nat} (h : t ∈ times records) :
    t ≤ Numeric.maxWord64 := by
  obtain ⟨r, _, timed⟩ := List.mem_filterMap.mp h
  cases r with
  | execution tier elapsed reads error =>
      cases timed
      exact Nat.min_le_right _ _
  | rejection message => cases timed

theorem times_concat (records : List CallRecord) (r : CallRecord) :
    times (records ++ [r]) = times records ++ r.time?.toList := by
  unfold times
  rw [List.filterMap_append]
  cases r <;> rfl

theorem timesOn_concat (tier : Tier) (records : List CallRecord) (r : CallRecord) :
    timesOn tier (records ++ [r]) = timesOn tier records ++ (r.timeOn? tier).toList := by
  unfold timesOn
  rw [List.filterMap_append]
  cases h : r.timeOn? tier <;> simp [h]

/-- Every execution is on one of the tiers. -/
theorem times_perm (records : List CallRecord) :
    (times records).Perm (timesOn .interpreter records ++ timesOn .native records) := by
  induction records with
  | nil => exact .nil
  | cons r records ih =>
      rcases r with ⟨_ | _, elapsed, reads, error⟩ | message
      · exact ih.cons _
      · exact (ih.cons _).trans List.perm_middle.symm
      · exact ih

theorem length_eq (records : List CallRecord) :
    records.length = (timesOn .interpreter records).length + (timesOn .native records).length +
      records.countP isRejection := by
  have executed : records.length = (times records).length + records.countP isRejection := by
    induction records using List.reverseRecOn with
    | nil => rfl
    | append_singleton records r ih =>
        rw [times_concat, List.length_append, List.length_append, List.countP_append, ih]
        cases r <;> simp [time?, isRejection] <;> omega
  rw [executed, (times_perm records).length_eq, List.length_append]

theorem countP_error (records : List CallRecord) :
    records.countP (fun r => r.error?.isSome) =
      records.countP isRejection + records.countP isFailedExecution := by
  induction records with
  | nil => rfl
  | cons r records ih =>
      rw [List.countP_cons, List.countP_cons, List.countP_cons, ih]
      cases r with
      | execution tier elapsed reads error =>
          cases error <;> simp [error?, isRejection, isFailedExecution, Nat.add_assoc]
      | rejection message =>
          simp [error?, isRejection, isFailedExecution, Nat.add_right_comm]

end CallRecord

open CallRecord (times timesOn)

/-- The counters of a tier after executions of given times. -/
def TierCounters.ofTimes (times : List Nat) : TierCounters :=
  ⟨.ofNat times.length, .ofNat times.sum⟩

theorem TierCounters.ofTimes_concat (times : List Nat) (t : Nat) :
    ofTimes (times ++ [t]) = (ofTimes times).add (.ofNat t) := by
  simp [ofTimes, add, UInt64.ofNat_add]

namespace ModuleStats

def record (s : ModuleStats) (r : CallRecord) (now : Nat) : ModuleStats :=
  match r with
  | .execution tier elapsed reads error => s.recordExecution tier elapsed reads error now
  | .rejection message => s.recordRejection message now

/-- Record some calls, each with the moment when it was recorded, the first one first. -/
def recordAll (s : ModuleStats) (history : List (CallRecord × Nat)) : ModuleStats :=
  history.foldl (fun s r => s.record r.1 r.2) s

/-! ## What every record adds -/

/-- The counters sum up some records, given the moments when they were made and the failures among
them. -/
structure Tallied (s : ModuleStats) (records : List CallRecord) (moments : List Nat)
    (failures : List LastError) : Prop where
  calls : s.calls = .ofNat records.length
  errors : s.errors = .ofNat (records.countP fun r => r.error?.isSome)
  fieldReads : s.fieldReads = .ofNat (records.map CallRecord.reads).sum
  nanoseconds : s.nanoseconds = .ofNat (times records).sum
  least : s.least.toNat = (times records).foldl min Numeric.maxWord64
  greatest : s.greatest.toNat = (times records).foldl max 0
  interpreter : s.interpreter = .ofTimes (timesOn .interpreter records)
  native : s.native = .ofTimes (timesOn .native records)
  lastCall : s.lastCall = moments.getLast?.getD 0
  lastError : s.lastError = failures.getLast?

theorem toNat_clampTime (elapsed : Duration) :
    (clampTime elapsed).toNat = min elapsed.nanoseconds Numeric.maxWord64 := by
  have small : min elapsed.nanoseconds Numeric.maxWord64 < 2 ^ 64 :=
    Nat.lt_of_le_of_lt (Nat.min_le_right _ _) (by decide)
  rw [clampTime, UInt64.toNat_ofNat', Nat.mod_eq_of_lt small]

/-- Everything that an execution changes. -/
theorem recordExecution_eq (s : ModuleStats) (tier : Tier) (elapsed : Duration) (reads : Nat)
    (error : Option String) (now : Nat) :
    s.recordExecution tier elapsed reads error now =
      { s with
        calls := s.calls + 1
        errors := s.errors + .ofNat error.toList.length
        fieldReads := s.fieldReads + .ofNat reads
        nanoseconds := s.nanoseconds + clampTime elapsed
        least := min s.least (clampTime elapsed)
        greatest := max s.greatest (clampTime elapsed)
        interpreter :=
          if tier = .interpreter then s.interpreter.add (clampTime elapsed) else s.interpreter
        native := if tier = .native then s.native.add (clampTime elapsed) else s.native
        lastCall := now
        lastError := (error.map fun message => ⟨message, now⟩).or s.lastError } := by
  cases tier <;> cases error <;> simp [recordExecution, recordOutcome, recordError, addTo]

variable {s : ModuleStats} {records : List CallRecord} {moments : List Nat}
  {failures : List LastError}

theorem tallied_initial (compile : CompileDiagnostics) (now : Nat) :
    (initial compile now).Tallied [] [] [] :=
  ⟨rfl, rfl, rfl, rfl, rfl, rfl, rfl, rfl, rfl, rfl⟩

theorem Tallied.rejection (h : s.Tallied records moments failures) (message : String) (now : Nat) :
    (s.recordRejection message now).Tallied (records ++ [.rejection message]) (moments ++ [now])
      (failures ++ [⟨message, now⟩]) where
  calls := by simp [recordRejection, recordError, h.calls, UInt64.ofNat_add]
  errors := by
    simp [recordRejection, recordError, h.errors, UInt64.ofNat_add, CallRecord.error?]
  fieldReads := by simp [recordRejection, recordError, h.fieldReads, CallRecord.reads]
  nanoseconds := by
    rw [CallRecord.times_concat]
    simp [recordRejection, recordError, h.nanoseconds, CallRecord.time?]
  least := by
    rw [CallRecord.times_concat]
    simp [recordRejection, recordError, h.least, CallRecord.time?]
  greatest := by
    rw [CallRecord.times_concat]
    simp [recordRejection, recordError, h.greatest, CallRecord.time?]
  interpreter := by
    rw [CallRecord.timesOn_concat]
    simp [recordRejection, recordError, h.interpreter, CallRecord.timeOn?]
  native := by
    rw [CallRecord.timesOn_concat]
    simp [recordRejection, recordError, h.native, CallRecord.timeOn?]
  lastCall := by simp [recordRejection, recordError]
  lastError := by simp [recordRejection, recordError]

theorem Tallied.execution (h : s.Tallied records moments failures) (tier : Tier)
    (elapsed : Duration) (reads : Nat) (error : Option String) (now : Nat) :
    (s.recordExecution tier elapsed reads error now).Tallied
      (records ++ [.execution tier elapsed reads error]) (moments ++ [now])
      (failures ++ (error.map fun message => ⟨message, now⟩).toList) := by
  rw [recordExecution_eq]
  constructor
  case calls => simp [h.calls, UInt64.ofNat_add]
  case errors => cases error <;> simp [h.errors, UInt64.ofNat_add, CallRecord.error?]
  case fieldReads => simp [h.fieldReads, UInt64.ofNat_add, CallRecord.reads]
  case nanoseconds =>
    rw [CallRecord.times_concat]
    simp [h.nanoseconds, UInt64.ofNat_add, CallRecord.time?, clampTime]
  case least =>
    rw [CallRecord.times_concat]
    simp [h.least, CallRecord.time?, UInt64.toNat_min, toNat_clampTime]
  case greatest =>
    rw [CallRecord.times_concat]
    simp [h.greatest, CallRecord.time?, UInt64.toNat_max, toNat_clampTime]
  case interpreter =>
    rw [CallRecord.timesOn_concat]
    cases tier <;>
      simp [h.interpreter, CallRecord.timeOn?, TierCounters.ofTimes_concat, clampTime]
  case native =>
    rw [CallRecord.timesOn_concat]
    cases tier <;> simp [h.native, CallRecord.timeOn?, TierCounters.ofTimes_concat, clampTime]
  case lastCall => simp
  case lastError => cases error <;> simp [h.lastError]

theorem tallied_recordAll (compile : CompileDiagnostics) (now : Nat)
    (history : List (CallRecord × Nat)) :
    ((initial compile now).recordAll history).Tallied (history.map Prod.fst)
      (history.map Prod.snd) (history.filterMap CallRecord.failure?) := by
  induction history using List.reverseRecOn with
  | nil => exact tallied_initial compile now
  | append_singleton history r ih =>
      obtain ⟨record, moment⟩ := r
      rw [recordAll, List.foldl_append, List.map_append, List.map_append, List.filterMap_append]
      cases record with
      | execution tier elapsed reads error =>
          cases error with
          | none => exact ih.execution tier elapsed reads none moment
          | some message => exact ih.execution tier elapsed reads (some message) moment
      | rejection message => exact ih.rejection message moment

theorem recordAll_registration (s : ModuleStats) (history : List (CallRecord × Nat)) :
    (s.recordAll history).compile = s.compile ∧
      (s.recordAll history).registeredAt = s.registeredAt := by
  induction history generalizing s with
  | nil => exact ⟨rfl, rfl⟩
  | cons r history ih =>
      obtain ⟨compile, registeredAt⟩ := ih (s.record r.1 r.2)
      have first : (s.record r.1 r.2).compile = s.compile ∧
          (s.record r.1 r.2).registeredAt = s.registeredAt := by
        unfold record
        split
        · rw [recordExecution_eq]
          exact ⟨rfl, rfl⟩
        · exact ⟨rfl, rfl⟩
      exact ⟨compile.trans first.1, registeredAt.trans first.2⟩

/-! ## The order of calls -/

/-- Counters that sum up the same records, recorded at the same moments but perhaps in another
order, differ in the latest failure at most. -/
theorem Tallied.perm (h : s.Tallied records moments failures) {t : ModuleStats}
    {records' : List CallRecord} {failures' : List LastError}
    (k : t.Tallied records' moments failures') (same : records'.Perm records)
    (compile : t.compile = s.compile) (registeredAt : t.registeredAt = s.registeredAt) :
    t = { s with lastError := t.lastError } := by
  have timed : (times records').Perm (times records) := same.filterMap _
  have tiers : ∀ tier, TierCounters.ofTimes (timesOn tier records') =
      TierCounters.ofTimes (timesOn tier records) := fun tier => by
    have timed : (timesOn tier records').Perm (timesOn tier records) := same.filterMap _
    rw [TierCounters.ofTimes, timed.length_eq, timed.sum_nat, TierCounters.ofTimes]
  have calls : t.calls = s.calls := by rw [k.calls, h.calls, same.length_eq]
  have errors : t.errors = s.errors := by rw [k.errors, h.errors, same.countP_eq]
  have fieldReads : t.fieldReads = s.fieldReads := by
    rw [k.fieldReads, h.fieldReads, (same.map _).sum_nat]
  have nanoseconds : t.nanoseconds = s.nanoseconds := by
    rw [k.nanoseconds, h.nanoseconds, timed.sum_nat]
  have least : t.least = s.least := by
    rw [← UInt64.toNat_inj, k.least, h.least, timed.foldl_eq]
  have greatest : t.greatest = s.greatest := by
    rw [← UInt64.toNat_inj, k.greatest, h.greatest, timed.foldl_eq]
  have interpreter : t.interpreter = s.interpreter := by
    rw [k.interpreter, h.interpreter, tiers]
  have native : t.native = s.native := by rw [k.native, h.native, tiers]
  have lastCall : t.lastCall = s.lastCall := by rw [k.lastCall, h.lastCall]
  obtain ⟨⟩ := t
  simp_all

/-! ## Extremes -/

theorem foldl_min_eq {ns : List Nat} {bound : Nat} (le : ∀ n ∈ ns, n ≤ bound) (any : ns ≠ []) :
    ns.foldl min bound = ns.min?.getD 0 := by
  cases ns with
  | nil => exact absurd rfl any
  | cons n ns =>
      rw [List.foldl_cons, Nat.min_eq_right (le n List.mem_cons_self), List.min?_cons']
      rfl

theorem foldl_max_eq (ns : List Nat) : ns.foldl max 0 = ns.max?.getD 0 := by
  cases ns with
  | nil => rfl
  | cons n ns =>
      rw [List.foldl_cons, Nat.max_eq_right (Nat.zero_le n), List.max?_cons']
      rfl

end ModuleStats

/-! ## Reports -/

/-- What a report says of the calls that were recorded, given the failures among them.  Sums are
taken modulo the range of the counters. -/
structure ModuleReport.Summarizes (p : ModuleReport) (records : List CallRecord)
    (failures : List LastError) : Prop where
  calls : p.calls.toNat = records.length
  shares : p.calls.toNat =
    p.interpreter.calls.toNat + p.native.calls.toNat + records.countP CallRecord.isRejection
  interpreter : p.interpreter.calls.toNat = (timesOn .interpreter records).length
  native : p.native.calls.toNat = (timesOn .native records).length
  errors : p.errors.toNat =
    records.countP CallRecord.isRejection + records.countP CallRecord.isFailedExecution
  errors_le : p.errors.toNat ≤ p.calls.toNat
  nanoseconds : p.nanoseconds.toNat = (times records).sum % 2 ^ 64
  fieldReads : p.fieldReads.toNat = (records.map CallRecord.reads).sum % 2 ^ 64
  /-- The least time of an execution, and zero when there was none. -/
  least : p.least.toNat = (times records).min?.getD 0
  greatest : p.greatest.toNat = (times records).max?.getD 0
  lastError : p.lastError = failures.getLast?

namespace ModuleStats

theorem toNat_ofNat_of_few {n : Nat} (few : n < 2 ^ 64) : (UInt64.ofNat n).toNat = n := by
  rw [UInt64.toNat_ofNat', Nat.mod_eq_of_lt few]

/-- There were executions when the counters of the tiers say so. -/
theorem Tallied.executions {s : ModuleStats} {records : List CallRecord} {moments : List Nat}
    {failures : List LastError} (h : s.Tallied records moments failures)
    (few : records.length < 2 ^ 64) : s.executions = 0 ↔ times records = [] := by
  have total : s.executions = .ofNat (times records).length := by
    rw [ModuleStats.executions, h.interpreter, h.native, (CallRecord.times_perm records).length_eq,
      List.length_append, UInt64.ofNat_add]
    rfl
  have fewer : (times records).length < 2 ^ 64 :=
    Nat.lt_of_le_of_lt (List.length_filterMap_le _ _) few
  rw [total, ← UInt64.toNat_inj, toNat_ofNat_of_few fewer]
  exact List.length_eq_zero_iff

theorem Tallied.summarizes {s : ModuleStats} {records : List CallRecord} {moments : List Nat}
    {failures : List LastError} (h : s.Tallied records moments failures)
    (few : records.length < 2 ^ 64) (key : ModuleKey) (hash : ContentHash) (mode : Mode)
    (interpreterPool nativePool : Option PoolStats) :
    (s.report key hash mode interpreterPool nativePool).Summarizes records failures := by
  have calls : s.calls.toNat = records.length := by rw [h.calls, toNat_ofNat_of_few few]
  have shared := CallRecord.length_eq records
  have interpreter : s.interpreter.calls.toNat = (timesOn .interpreter records).length := by
    rw [h.interpreter]
    exact toNat_ofNat_of_few (by omega)
  have native : s.native.calls.toNat = (timesOn .native records).length := by
    rw [h.native]
    exact toNat_ofNat_of_few (by omega)
  have failed : records.countP (fun r => r.error?.isSome) ≤ records.length := List.countP_le_length
  have errors : s.errors.toNat = records.countP fun r => r.error?.isSome := by
    rw [h.errors, toNat_ofNat_of_few (by omega)]
  constructor
  case calls => exact calls
  case shares =>
    change s.calls.toNat = s.interpreter.calls.toNat + s.native.calls.toNat + _
    omega
  case interpreter => exact interpreter
  case native => exact native
  case errors => exact errors.trans (CallRecord.countP_error records)
  case errors_le =>
    change s.errors.toNat ≤ s.calls.toNat
    omega
  case nanoseconds =>
    change s.nanoseconds.toNat = _
    rw [h.nanoseconds, UInt64.toNat_ofNat']
  case fieldReads =>
    change s.fieldReads.toNat = _
    rw [h.fieldReads, UInt64.toNat_ofNat']
  case least =>
    change (if s.executions = 0 then (0 : UInt64) else s.least).toNat = _
    by_cases none : times records = []
    · rw [if_pos ((h.executions few).mpr none), none]
      rfl
    · rw [if_neg (mt (h.executions few).mp none), h.least]
      exact foldl_min_eq (fun _ => CallRecord.time_le) none
  case greatest => exact h.greatest.trans (foldl_max_eq _)
  case lastError => exact h.lastError

/-- A module records fewer than `2 ^ 64` calls, in any order.  Its report tells how many they were
and how many of them were rejected, failed or ran on each tier, the time that they took, the least
and the greatest time, the number of field lookups and the latest failure; the time of all
executions is that of the two tiers together.  Had the same calls been recorded in another order at
these moments, only the latest failure would be another one. -/
theorem recordAll_summarizes (compile : CompileDiagnostics) (registeredAt : Nat)
    (history : List (CallRecord × Nat)) (few : history.length < 2 ^ 64) (key : ModuleKey)
    (hash : ContentHash) (mode : Mode) (interpreterPool nativePool : Option PoolStats) :
    let records := history.map Prod.fst
    let s := (initial compile registeredAt).recordAll history
    let report := s.report key hash mode interpreterPool nativePool
    report.Summarizes records (history.filterMap CallRecord.failure?) ∧
    s.interpreter.nanoseconds.toNat = (timesOn .interpreter records).sum % 2 ^ 64 ∧
    s.native.nanoseconds.toNat = (timesOn .native records).sum % 2 ^ 64 ∧
    report.nanoseconds = s.interpreter.nanoseconds + s.native.nanoseconds ∧
    ∀ other : List (CallRecord × Nat), (other.map Prod.fst).Perm records →
      other.map Prod.snd = history.map Prod.snd →
      let t := (initial compile registeredAt).recordAll other
      t.report key hash mode interpreterPool nativePool =
        { report with lastError := t.lastError } := by
  intro records s report
  have tallied : s.Tallied records (history.map Prod.snd) _ :=
    tallied_recordAll compile registeredAt history
  have few : records.length < 2 ^ 64 := by
    rw [List.length_map]
    exact few
  refine ⟨tallied.summarizes few key hash mode interpreterPool nativePool, ?_, ?_, ?_, ?_⟩
  · rw [tallied.interpreter]
    exact UInt64.toNat_ofNat'
  · rw [tallied.native]
    exact UInt64.toNat_ofNat'
  · change s.nanoseconds = _
    rw [tallied.nanoseconds, tallied.interpreter, tallied.native,
      (CallRecord.times_perm records).sum_nat, List.sum_append, UInt64.ofNat_add]
    rfl
  · intro other same moments t
    have again : t.Tallied (other.map Prod.fst) (history.map Prod.snd) _ :=
      moments ▸ tallied_recordAll compile registeredAt other
    obtain ⟨compiled, registered⟩ := recordAll_registration (initial compile registeredAt) history
    obtain ⟨compiled', registered'⟩ := recordAll_registration (initial compile registeredAt) other
    have differs : t = { s with lastError := t.lastError } :=
      tallied.perm again same (compiled'.trans compiled.symm) (registered'.trans registered.symm)
    rw [differs]
    rfl

/-! ## Two failures in either order -/

def mixed : List (CallRecord × Nat) :=
  [(.execution .interpreter ⟨40⟩ 2 none, 10), (.rejection "busy", 11),
    (.execution .native ⟨2 ^ 65⟩ 1 (some "trap"), 12), (.execution .native ⟨30⟩ 0 none, 13)]

def reordered : List (CallRecord × Nat) :=
  [(.execution .native ⟨30⟩ 0 none, 10), (.execution .native ⟨2 ^ 65⟩ 1 (some "trap"), 11),
    (.rejection "busy", 12), (.execution .interpreter ⟨40⟩ 2 none, 13)]

def reportOn (history : List (CallRecord × Nat)) : ModuleReport :=
  ((initial (.initial .disabled none) 0).recordAll history).report ⟨"boost", "1"⟩ ⟨[]⟩ .native none
    none

theorem recordAll_summarizes_mixed :
    mixed.length < 2 ^ 64 ∧ (reportOn mixed).calls.toNat = 4 ∧ (reportOn mixed).errors.toNat = 2 ∧
    (reportOn mixed).native.calls.toNat = 2 ∧ (reportOn mixed).nanoseconds.toNat = 69 ∧
    (reportOn mixed).least.toNat = 30 ∧ (reportOn mixed).greatest.toNat = 2 ^ 64 - 1 ∧
    (reportOn mixed).lastError = some ⟨"trap", 12⟩ ∧
    reportOn reordered = { reportOn mixed with lastError := some ⟨"busy", 12⟩ } := by
  have few : mixed.length < 2 ^ 64 := by decide
  obtain ⟨sums, _, _, _, order⟩ := recordAll_summarizes (.initial .disabled none) 0 mixed few
    ⟨"boost", "1"⟩ ⟨[]⟩ .native none none
  have same : (reordered.map Prod.fst).Perm (mixed.map Prod.fst) := by decide
  exact ⟨few, sums.calls, sums.errors, sums.native, sums.nanoseconds.trans (by decide),
    sums.least.trans (by decide), sums.greatest.trans (by decide), sums.lastError,
    order reordered same rfl⟩

end ModuleStats

end TieredUdf
