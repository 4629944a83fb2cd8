import Mathlib.Data.Rat.Cast.Order
import Mathlib.Tactic.NormNum
import Mathlib.Algebra.Order.Ring.Abs
import TieredUdf.Numeric.Double

/-! # The number that bits stand for

A finite number of a binary format is a rational number, and it is read as an integer exactly
when that rational is one.  Rounding an integer whose magnitude is at least `2 ^ 63` to the
64-bit format never brings it below that magnitude.
-/

namespace TieredUdf.Numeric

theorem powerOfTwo_pos (n : Nat) : 0 < powerOfTwo n := Nat.two_pow_pos n

/-! ## The value of a decoded number -/

namespace Decoded

/-- The number itself; infinities and what is not a number have none. -/
def rational? : Decoded → Option ℚ
  | .finite negative mantissa exponent =>
      some ((if negative then -1 else 1) * mantissa * (2 : ℚ) ^ exponent)
  | .nan | .infinite _ => none

theorem ratio_den_pos (mantissa : Nat) (exponent : Int) : 0 < (ratio mantissa exponent).2 := by
  cases exponent with
  | ofNat e => exact Nat.one_pos
  | negSucc e => exact powerOfTwo_pos (e + 1)

/-- The ratio of natural numbers is the mantissa scaled by the exponent. -/
theorem ratio_eq (mantissa : Nat) (exponent : Int) :
    ((ratio mantissa exponent).1 : ℚ) =
      mantissa * (2 : ℚ) ^ exponent * (ratio mantissa exponent).2 := by
  cases exponent with
  | ofNat e => simp [ratio, powerOfTwo]
  | negSucc e =>
      have power : (2 : ℚ) ^ (e + 1) ≠ 0 := pow_ne_zero _ two_ne_zero
      simp only [ratio, powerOfTwo, zpow_negSucc, Nat.cast_pow, Nat.pow_eq, Nat.cast_ofNat]
      rw [mul_assoc, inv_mul_cancel₀ power, mul_one]

theorem signed_cast (negative : Bool) (n : Nat) :
    ((signed negative n : Int) : ℚ) = (if negative then -1 else 1) * (n : ℚ) := by
  cases negative <;> simp [signed]

theorem natAbs_signed (negative : Bool) (n : Nat) : (signed negative n).natAbs = n := by
  cases negative <;> simp [signed]

/-- A number is read as an integer exactly when it is that integer. -/
theorem toInt?_eq_some {d : Decoded} {n : Int} : d.toInt? = some n ↔ d.rational? = some (n : ℚ) := by
  cases d with
  | nan => simp [toInt?, rational?]
  | infinite negative => simp [toInt?, rational?]
  | finite negative mantissa exponent =>
      have positive := ratio_den_pos mantissa exponent
      have scaled := ratio_eq mantissa exponent
      simp only [toInt?, rational?, Option.some.injEq]
      generalize (2 : ℚ) ^ exponent = power at scaled ⊢
      generalize ratio mantissa exponent = fraction at positive scaled ⊢
      obtain ⟨num, den⟩ := fraction
      simp only at positive scaled ⊢
      have nonzero : (den : ℚ) ≠ 0 := Nat.cast_ne_zero.mpr positive.ne'
      by_cases whole : num % den = 0
      · rw [if_pos whole, Option.some.injEq]
        have quotient : ((num / den : Nat) : ℚ) = mantissa * power := by
          have exact := Nat.div_mul_cancel (Nat.dvd_of_mod_eq_zero whole)
          refine mul_right_cancel₀ nonzero ?_
          rw [← Nat.cast_mul, exact, scaled]
        rw [← Int.cast_inj (α := ℚ), signed_cast, quotient, mul_assoc]
      · rw [if_neg whole]
        refine iff_of_false (by simp) fun same => whole ?_
        -- a number that is an integer has a numerator that the denominator divides
        have magnitude : ((n.natAbs * den : Nat) : ℚ) = num := by
          have unsigned : ((n.natAbs : Nat) : ℚ) = |(n : ℚ)| := by
            rw [Nat.cast_natAbs, Int.cast_abs]
          have nonneg : 0 ≤ (mantissa : ℚ) * power := by
            have denominator : (0 : ℚ) < den := Nat.cast_pos.mpr positive
            have numerator : (0 : ℚ) ≤ mantissa * power * den := scaled ▸ Nat.cast_nonneg num
            exact nonneg_of_mul_nonneg_left numerator denominator
          rw [Nat.cast_mul, unsigned, ← same, scaled, mul_assoc (ite _ _ _), abs_mul,
            abs_of_nonneg nonneg]
          cases negative <;> simp
        have divided : n.natAbs * den = num := by exact_mod_cast magnitude
        rw [← divided, Nat.mul_mod_left]

end Decoded

/-! ## Rounding of large integers -/

theorem roundHalfEven_ge (num den : Nat) : num / den ≤ roundHalfEven num den := by
  simp only [roundHalfEven]
  split
  · exact le_refl _
  · split <;> exact Nat.le_add_right _ _

namespace BinaryFormat

theorem double_hidden : double.hidden = 2 ^ 52 := by decide

theorem double_infinityBits : double.infinityBits = 2047 * 2 ^ 52 := by decide

theorem double_minExponent : double.minExponent = -1074 := by decide

theorem double_signBit : double.signBit = 2 ^ 63 := by decide

def double63 : Nat := 1086 * double.hidden

theorem log2_large {num : Nat} (large : 2 ^ 63 ≤ num) : num ≠ 0 ∧ 63 ≤ num.log2 := by
  have nonzero : num ≠ 0 := by
    intro zero
    rw [zero] at large
    exact absurd large (by decide)
  exact ⟨nonzero, (Nat.le_log2 nonzero).mpr large⟩

theorem exponentFor_large {num : Nat} (large : 2 ^ 63 ≤ num) :
    double.exponentFor num 1 = ((num.log2 - 52 : Nat) : Int) := by
  obtain ⟨nonzero, digits⟩ := log2_large large
  have guess : ((num.log2 : Int) - (Nat.log2 1 : Nat) - ((double.precision - 1 : Nat) : Int)) =
      Int.ofNat (num.log2 - 52) := by
    have log : Nat.log2 1 = 0 := by decide
    have precision : double.precision - 1 = 52 := rfl
    rw [log, precision, Int.ofNat_eq_natCast]
    omega
  have full : ¬ num < double.hidden * (1 * powerOfTwo (num.log2 - 52)) := by
    have power : double.hidden * (1 * powerOfTwo (num.log2 - 52)) = 2 ^ num.log2 := by
      rw [Nat.one_mul]
      change 2 ^ 52 * 2 ^ (num.log2 - 52) = 2 ^ num.log2
      rw [← Nat.pow_add]
      congr 1
      omega
    rw [power]
    exact Nat.not_lt.mpr (Nat.log2_self_le nonzero)
  have bottom : double.minExponent ≤ Int.ofNat (num.log2 - 52) := by
    rw [double_minExponent, Int.ofNat_eq_natCast]
    omega
  unfold exponentFor
  simp only [guess, scaleDown, if_neg full]
  exact max_eq_left bottom

theorem roundMagnitude_large {num : Nat} (large : 2 ^ 63 ≤ num) :
    double63 ≤ double.roundMagnitude num 1 ∧ double.roundMagnitude num 1 ≤ double.infinityBits := by
  obtain ⟨nonzero, digits⟩ := log2_large large
  have exponent := exponentFor_large large
  unfold roundMagnitude
  rw [if_neg nonzero, exponent]
  refine ⟨le_min ?_ (by decide), min_le_right _ _⟩
  have mantissa : double.hidden ≤ roundHalfEven num (1 * powerOfTwo (num.log2 - 52)) := by
    refine le_trans ?_ (roundHalfEven_ge num _)
    rw [Nat.one_mul, Nat.le_div_iff_mul_le (powerOfTwo_pos _)]
    change 2 ^ 52 * 2 ^ (num.log2 - 52) ≤ num
    rw [← Nat.pow_add, show 52 + (num.log2 - 52) = num.log2 by omega]
    exact Nat.log2_self_le nonzero
  have scale : 1085 ≤ (((num.log2 - 52 : Nat) : Int) - double.minExponent).toNat := by
    rw [double_minExponent]
    omega
  calc double63 = double.hidden + 1085 * double.hidden := by decide
    _ ≤ _ := Nat.add_le_add mantissa (Nat.mul_le_mul_right _ scale)

theorem roundMagnitude_le (num den : Nat) :
    double.roundMagnitude num den ≤ double.infinityBits := by
  unfold roundMagnitude
  split
  · exact Nat.zero_le _
  · exact min_le_right _ _

theorem withSign_lt (negative : Bool) {magnitude : Nat} (small : magnitude ≤ double.infinityBits) :
    double.withSign negative magnitude < 2 ^ 64 := by
  rw [double_infinityBits] at small
  unfold withSign
  rw [double_signBit]
  split <;> omega

/-- The sign and the magnitude are found again in the bits. -/
theorem withSign_parts (negative : Bool) {magnitude : Nat}
    (small : magnitude ≤ double.infinityBits) :
    decide (double.signBit ≤ double.withSign negative magnitude) = negative ∧
      double.withSign negative magnitude % double.signBit = magnitude := by
  rw [double_infinityBits] at small
  have below : magnitude < double.signBit := by
    rw [double_signBit]
    omega
  cases negative with
  | false => exact ⟨decide_eq_false (Nat.not_le.mpr below), Nat.mod_eq_of_lt below⟩
  | true =>
      exact ⟨decide_eq_true (Nat.le_add_right _ magnitude),
        (Nat.add_mod_left double.signBit magnitude).trans (Nat.mod_eq_of_lt below)⟩

/-- Bits of at least the magnitude of `2 ^ 63` are an infinity or a full mantissa that is scaled
up. -/
theorem decode_large (negative : Bool) {magnitude : Nat} (large : double63 ≤ magnitude)
    (small : magnitude ≤ double.infinityBits) :
    double.decode (double.withSign negative magnitude) = .infinite negative ∨
      ∃ mantissa scale, 2 ^ 52 ≤ mantissa ∧ 11 ≤ scale ∧
        double.decode (double.withSign negative magnitude) =
          .finite negative mantissa (Int.ofNat scale) := by
  obtain ⟨signed, rest⟩ := withSign_parts negative small
  have first : double63 = 1086 * 2 ^ 52 := by decide
  have biased : 1086 ≤ magnitude / double.hidden := by
    rw [double_hidden, Nat.le_div_iff_mul_le (by decide)]
    exact first ▸ large
  unfold decode
  rw [rest, signed]
  simp only [Nat.not_lt.mpr small, if_false]
  by_cases top : double.infinityBits = magnitude
  · exact Or.inl (if_pos top)
  · rw [if_neg top, if_neg (by omega : magnitude / double.hidden ≠ 0)]
    refine Or.inr ⟨magnitude % double.hidden + double.hidden, magnitude / double.hidden - 1075,
      double_hidden ▸ Nat.le_add_left _ _, by omega, ?_⟩
    have exponent : double.minExponent + ((magnitude / double.hidden : Nat) : Int) - 1 =
        Int.ofNat (magnitude / double.hidden - 1075) := by
      rw [double_minExponent, Int.ofNat_eq_natCast]
      omega
    rw [exponent]

/-- What is read as an integer is one of such a magnitude, with the sign of the bits. -/
theorem toInt?_decode_large {negative : Bool} {magnitude : Nat} {n : Int}
    (large : double63 ≤ magnitude) (small : magnitude ≤ double.infinityBits)
    (read : (double.decode (double.withSign negative magnitude)).toInt? = some n) :
    2 ^ 63 ≤ n.natAbs ∧ (n < 0 ↔ negative = true) := by
  rcases decode_large negative large small with
    top | ⟨mantissa, scale, full, up, finite⟩
  · rw [top] at read
    cases read
  · rw [finite] at read
    simp only [Decoded.toInt?, Decoded.ratio, Nat.mod_one, if_true, Nat.div_one] at read
    obtain rfl := Option.some.inj read
    have size : 2 ^ 63 ≤ mantissa * powerOfTwo scale := by
      have power : 2 ^ 11 ≤ powerOfTwo scale := Nat.pow_le_pow_right (by decide) up
      calc 2 ^ 63 = 2 ^ 52 * 2 ^ 11 := by decide
        _ ≤ _ := Nat.mul_le_mul full power
    refine ⟨by rwa [Decoded.natAbs_signed], ?_⟩
    cases negative with
    | false => exact iff_of_false (Int.not_lt.mpr (Int.natCast_nonneg _)) Bool.false_ne_true
    | true =>
        refine iff_of_true ?_ rfl
        simp only [Decoded.signed, if_true]
        omega

end BinaryFormat

/-- An integer of a magnitude of at least `2 ^ 63` stays so, and on its side of zero, when it is
rounded to the 64-bit format. -/
theorem Double.toInt?_ofInt_large {n k : Int} (large : 2 ^ 63 ≤ n.natAbs)
    (read : (Double.ofInt n).decode.toInt? = some k) : 2 ^ 63 ≤ k.natAbs ∧ (k < 0 ↔ n < 0) := by
  obtain ⟨low, high⟩ := BinaryFormat.roundMagnitude_large large
  have bits : (Double.ofInt n).bits.toNat = BinaryFormat.double.ofInt n :=
    UInt64.toNat_ofNat_of_lt' (BinaryFormat.withSign_lt _ high)
  unfold Double.decode at read
  rw [bits] at read
  obtain ⟨size, side⟩ := BinaryFormat.toInt?_decode_large low high read
  exact ⟨size, side.trans decide_eq_true_iff⟩

end TieredUdf.Numeric
