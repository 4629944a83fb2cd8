import Mathlib.Data.List.TakeDrop
import TieredUdf.CommandLine.Run
import TieredUdf.Proofs.Module.CallTypes
import TieredUdf.Proofs.Numeric.Decoding

/-! # Coercion to integers

An integer that a value is coerced to is the number that the value stands for, with one
exception: a number without a fraction that lies outside of the signed 64-bit range becomes the
nearer end of that range as a 64-bit integer.  JSON numbers, declared defaults and parameters of
a command are coerced in the same way.
-/

namespace TieredUdf

open Numeric (Decoded Double fitsInt32 fitsInt64 minInt64 maxInt64)

/-- The number that a JSON number stands for. -/
def Json.rational? : Json → Option ℚ
  | .integer n => some n
  | .number x => x.decode.rational?
  | _ => none

namespace Value

def rational? : Value → Option ℚ
  | .i32 n => some n.toInt
  | .i64 n => some n.toInt
  | .f32 x => x.decode.rational?
  | .f64 x => x.decode.rational?
  | .string _ | .bool _ => none

/-- The value is of the type and is exactly the number. -/
structure IsExactly (w : Value) (t : ValueType) (x? : Option ℚ) : Prop where
  type : w.type = t
  number : w.rational? = x?

/-- The value is the end of the 64-bit range that is nearer to an integer outside of it. -/
def IsSaturated (w : Value) (t : ValueType) (x? : Option ℚ) : Prop :=
  t = .i64 ∧ ∃ m : Int, x? = some (m : ℚ) ∧
    (m < minInt64 ∧ w = .i64 Int64.minValue ∨ maxInt64 < m ∧ w = .i64 Int64.maxValue)

/-! ## Integers of a fixed width -/

theorem fitsInt64_toInt (n : Int64) : fitsInt64 n.toInt = true :=
  decide_eq_true ⟨n.le_toInt, Int.le_of_lt_add_one n.toInt_lt⟩

theorem fitsInt32_toInt (n : Int32) : fitsInt32 n.toInt = true :=
  decide_eq_true ⟨n.le_toInt, Int.le_of_lt_add_one n.toInt_lt⟩

theorem toInt_ofInt64 {n : Int} (h : fitsInt64 n = true) : (Int64.ofInt n).toInt = n := by
  obtain ⟨low, high⟩ := of_decide_eq_true h
  exact Int64.toInt_ofInt_of_le low (Int.lt_add_one_of_le high)

theorem ofInt32?_eq_some {k : Int} {w : Value} :
    ofInt32? k = some w ↔ ∃ n : Int32, n.toInt = k ∧ w = .i32 n := by
  unfold ofInt32?
  constructor
  · intro h
    split at h
    · rename_i fits
      obtain ⟨low, high⟩ := of_decide_eq_true fits
      cases h
      exact ⟨.ofInt k, Int32.toInt_ofInt_of_le low (Int.lt_add_one_of_le high), rfl⟩
    · cases h
  · rintro ⟨n, rfl, rfl⟩
    rw [if_pos (fitsInt32_toInt n), Int32.ofInt_toInt]

/-! ## The nearest integer of the 64-bit range -/

theorem clampInt64_fits {m : Int} (h : fitsInt64 m = true) : clampInt64 m = m := by
  obtain ⟨low, high⟩ := of_decide_eq_true h
  unfold clampInt64 Numeric.clampInt
  rw [min_eq_right high, max_eq_right low]

theorem clampInt64_below {m : Int} (h : m ≤ minInt64) : clampInt64 m = minInt64 := by
  have small : m ≤ maxInt64 := le_trans h (by decide)
  unfold clampInt64 Numeric.clampInt
  rw [min_eq_right small, max_eq_left h]

theorem clampInt64_above {m : Int} (h : maxInt64 ≤ m) : clampInt64 m = maxInt64 := by
  unfold clampInt64 Numeric.clampInt
  rw [min_eq_left h, max_eq_right (by decide)]

/-- A number of 64 bits with a sign is in range, below it or above it. -/
theorem fitsInt64_cases (m : Int) : fitsInt64 m = true ∨ m < minInt64 ∨ maxInt64 < m := by
  by_cases fits : fitsInt64 m = true
  · exact .inl fits
  · have outside : ¬ (minInt64 ≤ m ∧ m ≤ maxInt64) := fun inside => fits (decide_eq_true inside)
    omega

/-- The integer that a value is clamped to, as a 64-bit value. -/
theorem ofInt_clampInt64 {m : Int} {w : Value} :
    w = .i64 (.ofInt (clampInt64 m)) ↔
      (∃ n : Int64, n.toInt = m ∧ w = .i64 n) ∨ m < minInt64 ∧ w = .i64 Int64.minValue ∨
        maxInt64 < m ∧ w = .i64 Int64.maxValue := by
  have ends : minInt64 < maxInt64 := by decide
  rcases fitsInt64_cases m with fits | below | above
  · obtain ⟨low, high⟩ := of_decide_eq_true fits
    rw [clampInt64_fits fits]
    constructor
    · intro h
      exact .inl ⟨.ofInt m, toInt_ofInt64 fits, h⟩
    · rintro (⟨n, rfl, rfl⟩ | ⟨below, _⟩ | ⟨above, _⟩)
      · rw [Int64.ofInt_toInt]
      · exact absurd below (Int.not_lt.mpr low)
      · exact absurd above (Int.not_lt.mpr high)
  · rw [clampInt64_below below.le]
    constructor
    · intro h
      exact .inr (.inl ⟨below, h⟩)
    · rintro (⟨n, rfl, _⟩ | ⟨_, h⟩ | ⟨above, _⟩)
      · exact absurd (of_decide_eq_true (fitsInt64_toInt n)).1 (Int.not_le.mpr below)
      · exact h
      · exact absurd (above.trans below) (Int.not_lt.mpr ends.le)
  · rw [clampInt64_above above.le]
    constructor
    · intro h
      exact .inr (.inr ⟨above, h⟩)
    · rintro (⟨n, rfl, _⟩ | ⟨below, _⟩ | ⟨_, h⟩)
      · exact absurd (of_decide_eq_true (fitsInt64_toInt n)).2 (Int.not_le.mpr above)
      · exact absurd (above.trans below) (Int.not_lt.mpr ends.le)
      · exact h

/-! ## Coercion of a value -/

/-- A value counts as an integer when the number it stands for is one. -/
theorem integral?_eq_some {v : Value} {k : Int} :
    v.integral? = some k ↔ ∃ m : Int, v.rational? = some (m : ℚ) ∧ clampInt64 m = k := by
  have decoded (d : Decoded) : d.toInt?.map clampInt64 = some k ↔
      ∃ m : Int, d.rational? = some (m : ℚ) ∧ clampInt64 m = k := by
    rw [Option.map_eq_some_iff]
    exact exists_congr fun m => and_congr_left fun _ => Decoded.toInt?_eq_some
  have fixed {n : Int} (fits : fitsInt64 n = true) : some n = some k ↔
      ∃ m : Int, some (n : ℚ) = some (m : ℚ) ∧ clampInt64 m = k := by
    constructor
    · intro same
      exact ⟨n, rfl, (clampInt64_fits fits).trans (Option.some.inj same)⟩
    · rintro ⟨m, same, rfl⟩
      obtain rfl := Int.cast_injective (Option.some.inj same)
      rw [clampInt64_fits fits]
  cases v with
  | i32 n =>
      obtain ⟨low, high⟩ := of_decide_eq_true (fitsInt32_toInt n)
      exact fixed (decide_eq_true ⟨le_trans (by decide) low, le_trans high (by decide)⟩)
  | i64 n => exact fixed (fitsInt64_toInt n)
  | f32 x => exact decoded x.decode
  | f64 x => exact decoded x.decode
  | string s => simp [integral?, rational?]
  | bool b => simp [integral?, rational?]

theorem coerce?_i32 (v : Value) : v.coerce? .i32 = v.integral?.bind ofInt32? := by
  cases v with
  | i32 n => exact (ofInt32?_eq_some.mpr ⟨n, rfl, rfl⟩).symm
  | i64 n => rfl
  | f32 x => rfl
  | f64 x => rfl
  | string s => rfl
  | bool b => rfl

theorem coerce?_i64 (v : Value) :
    v.coerce? .i64 = v.integral?.map fun n => .i64 (.ofInt n) := by
  cases v with
  | i64 n => exact congrArg (some ∘ Value.i64) (Int64.ofInt_toInt n).symm
  | i32 n => rfl
  | f32 x => rfl
  | f64 x => rfl
  | string s => rfl
  | bool b => rfl

theorem isExactly_i32 {w : Value} {x? : Option ℚ} :
    w.IsExactly .i32 x? ↔ ∃ n : Int32, x? = some (n.toInt : ℚ) ∧ w = .i32 n := by
  constructor
  · rintro ⟨type, number⟩
    cases w <;> cases type
    exact ⟨_, number.symm, rfl⟩
  · rintro ⟨n, rfl, rfl⟩
    exact ⟨rfl, rfl⟩

theorem isExactly_i64 {w : Value} {x? : Option ℚ} :
    w.IsExactly .i64 x? ↔ ∃ n : Int64, x? = some (n.toInt : ℚ) ∧ w = .i64 n := by
  constructor
  · rintro ⟨type, number⟩
    cases w <;> cases type
    exact ⟨_, number.symm, rfl⟩
  · rintro ⟨n, rfl, rfl⟩
    exact ⟨rfl, rfl⟩

/-- To 32 bits: exactly the number, or nothing. -/
theorem coerce?_i32_eq_some {v w : Value} :
    v.coerce? .i32 = some w ↔ w.IsExactly .i32 v.rational? := by
  rw [coerce?_i32, isExactly_i32, Option.bind_eq_some_iff]
  constructor
  · rintro ⟨k, whole, narrow⟩
    obtain ⟨m, number, rfl⟩ := integral?_eq_some.mp whole
    obtain ⟨n, clamped, rfl⟩ := ofInt32?_eq_some.mp narrow
    obtain ⟨low, high⟩ := of_decide_eq_true (fitsInt32_toInt n)
    -- an end of the 64-bit range is no 32-bit number, so nothing was clamped
    have same : m = n.toInt := by
      rcases fitsInt64_cases m with fits | below | above
      · rw [clamped, clampInt64_fits fits]
      · rw [clamped, clampInt64_below below.le] at low
        exact absurd low (by decide)
      · rw [clamped, clampInt64_above above.le] at high
        exact absurd high (by decide)
    exact ⟨n, same ▸ number, rfl⟩
  · rintro ⟨n, number, rfl⟩
    obtain ⟨low, high⟩ := of_decide_eq_true (fitsInt32_toInt n)
    have fits : fitsInt64 n.toInt = true :=
      decide_eq_true ⟨le_trans (by decide) low, le_trans high (by decide)⟩
    exact ⟨n.toInt, integral?_eq_some.mpr ⟨_, number, clampInt64_fits fits⟩,
      ofInt32?_eq_some.mpr ⟨n, rfl, rfl⟩⟩

/-- To 64 bits: exactly the number, the nearer end of the range for an integer outside of it, or
nothing. -/
theorem coerce?_i64_eq_some {v w : Value} :
    v.coerce? .i64 = some w ↔ w.IsExactly .i64 v.rational? ∨ w.IsSaturated .i64 v.rational? := by
  rw [coerce?_i64, isExactly_i64, Option.map_eq_some_iff]
  constructor
  · rintro ⟨k, whole, h⟩
    obtain ⟨m, number, rfl⟩ := integral?_eq_some.mp whole
    rcases ofInt_clampInt64.mp h.symm with ⟨n, rfl, same⟩ | ends
    · exact .inl ⟨n, number, same⟩
    · exact .inr ⟨rfl, m, number, ends⟩
  · rintro (⟨n, number, same⟩ | ⟨_, m, number, ends⟩)
    · exact ⟨_, integral?_eq_some.mpr ⟨_, number, rfl⟩,
        (ofInt_clampInt64.mpr (.inl ⟨n, rfl, same⟩)).symm⟩
    · exact ⟨_, integral?_eq_some.mpr ⟨_, number, rfl⟩, (ofInt_clampInt64.mpr (.inr ends)).symm⟩

theorem coerce?_integer {v w : Value} {t : ValueType} (integer : t = .i32 ∨ t = .i64) :
    v.coerce? t = some w ↔ w.IsExactly t v.rational? ∨ w.IsSaturated t v.rational? := by
  rcases integer with rfl | rfl
  · rw [coerce?_i32_eq_some]
    exact (or_iff_left fun saturated => nomatch saturated.1).symm
  · exact coerce?_i64_eq_some

/-- What is saturated is not exact. -/
theorem IsSaturated.not_exactly {w : Value} {t : ValueType} {x? : Option ℚ}
    (h : w.IsSaturated t x?) : ¬ w.IsExactly t x? := by
  obtain ⟨rfl, m, rfl, ends⟩ := h
  intro exact
  obtain ⟨n, number, rfl⟩ := isExactly_i64.mp exact
  obtain rfl := Int.cast_injective (Option.some.inj number)
  obtain ⟨low, high⟩ := of_decide_eq_true (fitsInt64_toInt n)
  rcases ends with ⟨below, _⟩ | ⟨above, _⟩
  · exact absurd low (Int.not_le.mpr below)
  · exact absurd high (Int.not_le.mpr above)

/-- A number that is no integer outside of the 64-bit range. -/
def Fits (x? : Option ℚ) : Prop := ∀ m : Int, x? = some (m : ℚ) → fitsInt64 m = true

theorem exists_saturated {x? : Option ℚ} :
    (∃ w : Value, w.IsSaturated .i64 x?) ↔ ¬ Fits x? := by
  constructor
  · rintro ⟨w, _, m, number, ends⟩ fits
    obtain ⟨low, high⟩ := of_decide_eq_true (fits m number)
    rcases ends with ⟨below, _⟩ | ⟨above, _⟩
    · exact absurd low (Int.not_le.mpr below)
    · exact absurd high (Int.not_le.mpr above)
  · intro outside
    unfold Fits at outside
    push Not at outside
    obtain ⟨m, number, far⟩ := outside
    rcases fitsInt64_cases m with fits | below | above
    · exact absurd fits far
    · exact ⟨_, rfl, m, number, .inl ⟨below, rfl⟩⟩
    · exact ⟨_, rfl, m, number, .inr ⟨above, rfl⟩⟩

/-! ## JSON numbers -/

/-- An integer outside of the 64-bit range does not come back into it when it is rounded. -/
theorem ofInt_saturates {n : Int} {w : Value} (outside : fitsInt64 n = false)
    (h : w.IsExactly .i64 (Value.f64 (.ofInt n)).rational? ∨
      w.IsSaturated .i64 (Value.f64 (.ofInt n)).rational?) :
    w.IsSaturated .i64 (some (n : ℚ)) := by
  have far : n < minInt64 ∨ maxInt64 < n :=
    (fitsInt64_cases n).resolve_left (by rw [outside]; exact Bool.false_ne_true)
  have large : 2 ^ 63 ≤ n.natAbs := by
    unfold minInt64 maxInt64 at far
    omega
  have rounded {m : Int} (number : (Value.f64 (.ofInt n)).rational? = some (m : ℚ)) :
      2 ^ 63 ≤ m.natAbs ∧ (m < 0 ↔ n < 0) :=
    Double.toInt?_ofInt_large large (Decoded.toInt?_eq_some.mpr number)
  refine ⟨rfl, n, rfl, ?_⟩
  rcases h with exact | ⟨_, m, number, ends⟩
  · obtain ⟨k, number, rfl⟩ := isExactly_i64.mp exact
    obtain ⟨size, side⟩ := rounded number
    obtain ⟨low, high⟩ := of_decide_eq_true (fitsInt64_toInt k)
    -- the only integer of the range with that magnitude is the least one
    have least : k.toInt = minInt64 := by
      unfold minInt64 maxInt64 at *
      omega
    have same : k = Int64.minValue := Int64.toInt_inj.mp least
    refine .inl ⟨?_, congrArg Value.i64 same⟩
    unfold minInt64 maxInt64 at *
    omega
  · obtain ⟨size, side⟩ := rounded number
    unfold minInt64 maxInt64 at *
    rcases ends with ⟨below, rfl⟩ | ⟨above, rfl⟩
    · exact .inl ⟨by omega, rfl⟩
    · exact .inr ⟨by omega, rfl⟩

/-- A JSON scalar is taken at its number, unless it is an integer that does not fit 64 bits. -/
theorem ofJson?_rounded {j : Json} {t : ValueType} {w : Value} (h : ofJson? t j = some w) :
    (∃ v : Value, v.rational? = j.rational? ∧ v.coerce? t = some w) ∨
      ∃ n : Int, j = .integer n ∧ fitsInt64 n = false ∧
        (Value.f64 (.ofInt n)).coerce? t = some w := by
  obtain ⟨v, parsed, coerced⟩ := Option.bind_eq_some_iff.mp h
  cases j with
  | null | array items | object members => cases parsed
  | bool b | string s | number x =>
      cases parsed
      exact .inl ⟨_, rfl, coerced⟩
  | integer n =>
      cases fits : fitsInt64 n with
      | false =>
          simp only [ofJsonScalar?, fits, Bool.false_eq_true, if_false, Option.some.injEq] at parsed
          subst parsed
          exact .inr ⟨n, rfl, fits, coerced⟩
      | true =>
          simp only [ofJsonScalar?, fits, if_true, Option.some.injEq] at parsed
          subst parsed
          refine .inl ⟨_, ?_, coerced⟩
          rw [Value.rational?, Json.rational?, toInt_ofInt64 fits]

theorem ofJson?_integer {j : Json} {t : ValueType} {w : Value} (integer : t = .i32 ∨ t = .i64)
    (h : ofJson? t j = some w) : w.IsExactly t j.rational? ∨ w.IsSaturated t j.rational? := by
  rcases ofJson?_rounded h with ⟨v, number, coerced⟩ | ⟨n, rfl, outside, coerced⟩
  · rw [← number]
    exact (coerce?_integer integer).mp coerced
  · rcases integer with rfl | rfl
    · -- rounded or not, such an integer is none of 32 bits
      exfalso
      have exact := coerce?_i32_eq_some.mp coerced
      obtain ⟨k, number, rfl⟩ := isExactly_i32.mp exact
      obtain ⟨low, high⟩ := of_decide_eq_true (fitsInt32_toInt k)
      have far := (fitsInt64_cases n).resolve_left (by rw [outside]; exact Bool.false_ne_true)
      unfold minInt64 maxInt64 at far
      unfold Numeric.minInt32 at low
      unfold Numeric.maxInt32 at high
      have size := (Double.toInt?_ofInt_large (by omega)
        (Decoded.toInt?_eq_some.mpr number)).1
      omega
    · exact .inr (ofInt_saturates outside (coerce?_i64_eq_some.mp coerced))

/-- An exact integer of the type is never refused. -/
theorem ofJson?_of_exactly {j : Json} {t : ValueType} {w : Value} (integer : t = .i32 ∨ t = .i64)
    (h : w.IsExactly t j.rational?) : ofJson? t j = some w := by
  have small : ∃ n : Int, fitsInt64 n = true ∧ j.rational? = some (n : ℚ) := by
    rcases integer with rfl | rfl
    · obtain ⟨n, number, rfl⟩ := isExactly_i32.mp h
      obtain ⟨low, high⟩ := of_decide_eq_true (fitsInt32_toInt n)
      exact ⟨_, decide_eq_true ⟨le_trans (by decide) low, le_trans high (by decide)⟩, number⟩
    · obtain ⟨n, number, rfl⟩ := isExactly_i64.mp h
      exact ⟨_, fitsInt64_toInt n, number⟩
  obtain ⟨n, fits, number⟩ := small
  cases j with
  | null | array items | object members | bool b | string s => cases number
  | number x => exact (coerce?_integer integer).mpr (.inl h)
  | integer m =>
      obtain rfl := Int.cast_injective (Option.some.inj number)
      have parsed : ofJsonScalar? (.integer m) = some (.i64 (.ofInt m)) := by
        rw [ofJsonScalar?, if_pos fits]
      rw [ofJson?, parsed, Option.bind_some]
      refine (coerce?_integer integer).mpr (.inl ?_)
      rwa [Value.rational?, toInt_ofInt64 fits]

end Value

/-! ## Declared defaults -/

/-- A default that passes the check of its parameter is what stands for a missing argument. -/
theorem Param.absent_integer {p : Param} {v : Value} (default : p.default = some v)
    (integer : p.type = .i32 ∨ p.type = .i64) (accepted : (v.coerce? p.type).isSome = true) :
    p.absent.IsExactly p.type v.rational? ∨ p.absent.IsSaturated p.type v.rational? := by
  obtain ⟨w, coerced⟩ := Option.isSome_iff_exists.mp accepted
  have absent : p.absent = w := by
    rw [Param.absent, default, Option.bind_some, coerced, Option.getD_some]
  rw [absent]
  exact (Value.coerce?_integer integer).mp coerced

theorem Descriptor.default_accepted {p : Param} {v : Value} {params : List Param}
    {seen : List String} {index : Nat} (passed : checkParams seen index params = .ok ())
    (mem : p ∈ params) (default : p.default = some v) : (v.coerce? p.type).isSome = true := by
  induction params generalizing seen index with
  | nil => cases mem
  | cons q rest ih =>
      obtain ⟨_, accepted, passed⟩ := checkParams_cons passed
      rcases List.mem_cons.mp mem with rfl | later
      · exact accepted v default
      · exact ih passed later

/-! ## Parameters of a command -/

namespace CommandLine

/-- A declared parameter is its JSON text, taken at the declared type. -/
theorem toParameter_declared {d : Descriptor} {name text : String} {p : Param}
    (plain : '=' ∉ name.toList) (declared : d.param? name = some p) :
    toParameter d (name ++ "=" ++ text) =
      match Value.ofJson? p.type ((Json.parse? text).getD (.string text)) with
      | some v => .ok (name, v)
      | none => .error (.wrongType name p.type text) := by
  have letters : (name ++ "=" ++ text).toList = name.toList ++ '=' :: text.toList := by simp
  have before : ∀ c ∈ name.toList, (c != '=') = true := by
    intro c mem
    refine bne_iff_ne.mpr ?_
    rintro rfl
    exact plain mem
  have cut : (name ++ "=" ++ text).toList.span (· != '=') = (name.toList, '=' :: text.toList) := by
    rw [letters, List.span_eq_takeWhile_dropWhile, List.takeWhile_append_of_pos before,
      List.dropWhile_append_of_pos before]
    simp
  unfold toParameter
  rw [cut]
  cases taken : Value.ofJson? p.type ((Json.parse? text).getD (.string text)) <;>
    simp only [String.ofList_toList, declared, taken]

/-- A parameter of an integer type is exactly the JSON number that its text is read as, the nearer
end of the 64-bit range, or refused. -/
theorem toParameter_integer {d : Descriptor} {name text : String} {p : Param}
    {given : String × Value} (plain : '=' ∉ name.toList) (declared : d.param? name = some p)
    (integer : p.type = .i32 ∨ p.type = .i64)
    (h : toParameter d (name ++ "=" ++ text) = .ok given) :
    given.1 = name ∧ ∃ j, Json.parse? text = some j ∧
      (given.2.IsExactly p.type j.rational? ∨ given.2.IsSaturated p.type j.rational?) := by
  rw [toParameter_declared plain declared] at h
  cases taken : Value.ofJson? p.type ((Json.parse? text).getD (.string text)) with
  | none =>
      rw [taken] at h
      cases h
  | some v =>
      rw [taken] at h
      cases h
      refine ⟨rfl, ?_⟩
      have shown := Value.ofJson?_integer integer taken
      cases parsed : Json.parse? text with
      | some j =>
          rw [parsed] at shown
          exact ⟨j, rfl, shown⟩
      | none =>
          rw [parsed] at taken
          rcases integer with narrow | wide
          · rw [narrow] at taken
            cases taken
          · rw [wide] at taken
            cases taken

end CommandLine

/-! ## Every way into an integer -/

namespace Value

theorem rational?_f64 {x : Double} {n : Int} (h : x.decode.toInt? = some n) :
    (Value.f64 x).rational? = some (n : ℚ) := Decoded.toInt?_eq_some.mp h

theorem IsSaturated.outside {w : Value} {t : ValueType} {x? : Option ℚ} (h : w.IsSaturated t x?) :
    ¬ (t = .i32 ∨ Fits x?) := by
  rintro (narrow | fits)
  · cases narrow.symm.trans h.1
  · obtain ⟨rfl, rest⟩ := h
    exact exists_saturated.mp ⟨w, rfl, rest⟩ fits

/-- What a value is coerced to as an integer is exactly its number or nothing, but for an integer
outside of the 64-bit range, which becomes the nearer end of that range; for every other number
coercion gives an integer if and only if it is exactly the number.  The same goes for a JSON
number, for a default that validation accepts and for a parameter of a command. -/
theorem integer_coercion {t : ValueType} (integer : t = .i32 ∨ t = .i64) :
    (∀ v w : Value,
      v.coerce? t = some w ↔ w.IsExactly t v.rational? ∨ w.IsSaturated t v.rational?) ∧
    (∀ v : Value, (∀ w, v.coerce? t = some w ↔ w.IsExactly t v.rational?) ↔
      t = .i32 ∨ Fits v.rational?) ∧
    (∀ (j : Json) (w : Value), ofJson? t j = some w →
      w.IsExactly t j.rational? ∨ w.IsSaturated t j.rational?) ∧
    (∀ j : Json, t = .i32 ∨ Fits j.rational? →
      ∀ w, ofJson? t j = some w ↔ w.IsExactly t j.rational?) ∧
    (∀ (d : Descriptor) (pageLimit : Nat) (shape : ModuleShape),
      d.validate pageLimit = .ok shape → ∀ p ∈ d.params, p.type = t → ∀ v, p.default = some v →
        p.absent.IsExactly t v.rational? ∨ p.absent.IsSaturated t v.rational?) ∧
    (∀ (d : Descriptor) (name text : String) (p : Param), '=' ∉ name.toList →
      d.param? name = some p → p.type = t →
      (∀ given, CommandLine.toParameter d (name ++ "=" ++ text) = .ok given →
        given.1 = name ∧ ∃ j, Json.parse? text = some j ∧
          (given.2.IsExactly t j.rational? ∨ given.2.IsSaturated t j.rational?)) ∧
      ∀ j w, Json.parse? text = some j → w.IsExactly t j.rational? →
        CommandLine.toParameter d (name ++ "=" ++ text) = .ok (name, w)) := by
  refine ⟨fun v w => coerce?_integer integer, fun v => ⟨fun exact => ?_, fun inside w => ?_⟩,
    fun j w => ofJson?_integer integer, fun j inside w => ⟨fun h => ?_, ofJson?_of_exactly integer⟩,
    fun d pageLimit shape valid p mem type v default => ?_,
    fun d name text p plain declared type => ⟨fun given h => ?_, fun j w parsed exact => ?_⟩⟩
  · by_contra outside
    obtain ⟨other, far⟩ := not_or.mp outside
    obtain rfl := integer.resolve_left other
    obtain ⟨w, saturated⟩ := exists_saturated.mpr far
    exact saturated.not_exactly ((exact w).mp (coerce?_i64_eq_some.mpr (.inr saturated)))
  · rw [coerce?_integer integer]
    exact or_iff_left fun saturated => saturated.outside inside
  · exact (ofJson?_integer integer h).resolve_right fun saturated => saturated.outside inside
  · obtain ⟨_, fields, _⟩ := bind_eq_ok.mp valid
    have passed := (Descriptor.checkFields_eq_ok fields).1
    subst type
    exact Param.absent_integer default integer (Descriptor.default_accepted passed mem default)
  · subst type
    exact CommandLine.toParameter_integer plain declared integer h
  · subst type
    rw [CommandLine.toParameter_declared plain declared, parsed, Option.getD_some,
      ofJson?_of_exactly integer exact]

theorem integer_coercion_two :
    (ValueType.i32 = .i32 ∨ ValueType.i32 = .i64) ∧
      (Value.f64 ⟨0x4000000000000000⟩).coerce? .i32 = some (.i32 2) := by
  have two : (Value.f64 ⟨0x4000000000000000⟩).rational? = some ((2 : Int) : ℚ) :=
    rational?_f64 (by decide +kernel)
  exact ⟨.inl rfl, ((integer_coercion (.inl rfl)).1 _ _).mpr (.inl ⟨rfl, two.symm⟩)⟩

/-- `2 ^ 63` is coerced to the integer below it. -/
theorem coercion_not_exact :
    (Value.f64 ⟨0x43E0000000000000⟩).rational? = some ((2 ^ 63 : Int) : ℚ) ∧
      (Value.f64 ⟨0x43E0000000000000⟩).coerce? .i64 = some (.i64 Int64.maxValue) ∧
      Int64.maxValue.toInt = 2 ^ 63 - 1 ∧
      ¬ ∀ v w : Value, v.coerce? .i64 = some w → w.IsExactly .i64 v.rational? := by
  have number : (Value.f64 ⟨0x43E0000000000000⟩).rational? = some ((2 ^ 63 : Int) : ℚ) :=
    rational?_f64 (by decide +kernel)
  have saturated : (Value.i64 Int64.maxValue).IsSaturated .i64
      (Value.f64 ⟨0x43E0000000000000⟩).rational? :=
    ⟨rfl, 2 ^ 63, number, .inr ⟨by decide, rfl⟩⟩
  have coerced := coerce?_i64_eq_some.mpr (.inr saturated)
  exact ⟨number, coerced, rfl, fun exact => saturated.not_exactly (exact _ _ coerced)⟩

end Value

end TieredUdf
