import Mathlib.Tactic.FieldSimp
import Mathlib.Tactic.Ring
import TieredUdf.Proofs.Numeric.Decoding

/-! # Numbers that the 64-bit format holds exactly

A magnitude with at most 53 binary digits and a moderate exponent is rounded to itself.  So every
32-bit integer and every number of the 32-bit format is found again in the 64-bit format, with its
sign.
-/

namespace TieredUdf.Numeric

namespace Decoded

/-- Two formats have the same number: the same magnitude with the same sign. -/
inductive Same : Decoded → Decoded → Prop where
  | nan : Same .nan .nan
  | infinite (negative : Bool) : Same (.infinite negative) (.infinite negative)
  | finite (negative : Bool) {m n : Nat} {e f : Int}
      (magnitude : (m : ℚ) * 2 ^ e = n * 2 ^ f) :
      Same (.finite negative m e) (.finite negative n f)

theorem Same.rational? {d c : Decoded} (h : d.Same c) : c.rational? = d.rational? := by
  cases h with
  | nan => rfl
  | infinite negative => rfl
  | finite negative magnitude => simp only [Decoded.rational?, mul_assoc, magnitude]

theorem log2_ratio {m : Nat} (positive : 0 < m) (e : Int) :
    ((ratio m e).1.log2 : Int) - (ratio m e).2.log2 = m.log2 + e := by
  cases e with
  | ofNat e =>
      have scaled : (m * powerOfTwo e).log2 = m.log2 + e := by
        have power := powerOfTwo_pos e
        refine (Nat.log2_eq_iff (Nat.mul_pos positive power).ne').mpr ⟨?_, ?_⟩
        · rw [Nat.pow_add]
          exact Nat.mul_le_mul_right _ (Nat.log2_self_le positive.ne')
        · rw [Nat.add_right_comm, Nat.pow_add]
          exact Nat.mul_lt_mul_of_pos_right Nat.lt_log2_self power
      have one : Nat.log2 1 = 0 := by decide
      simp only [ratio, scaled, one, Int.ofNat_eq_natCast]
      omega
  | negSucc e =>
      have power : (powerOfTwo (e + 1)).log2 = e + 1 := Nat.log2_two_pow
      simp only [ratio, power]
      omega

end Decoded

/-! ## Rounding what needs no rounding -/

theorem scaleDown_eq (num den : Nat) (g : Int) :
    ((scaleDown num den g).1 : ℚ) * den * 2 ^ g = num * (scaleDown num den g).2 := by
  cases g with
  | ofNat g =>
      simp only [scaleDown, powerOfTwo, Int.ofNat_eq_natCast, zpow_natCast, Nat.cast_mul,
        Nat.pow_eq, Nat.cast_pow, Nat.cast_ofNat]
      ring
  | negSucc g =>
      simp only [scaleDown, powerOfTwo, zpow_negSucc, Nat.cast_mul, Nat.pow_eq, Nat.cast_pow,
        Nat.cast_ofNat]
      field_simp

theorem scaleDown_den_pos (num : Nat) {den : Nat} (positive : 0 < den) (g : Int) :
    0 < (scaleDown num den g).2 := by
  cases g with
  | ofNat g => exact Nat.mul_pos positive (powerOfTwo_pos g)
  | negSucc g => exact positive

/-- A magnitude scaled down to an exponent that is not above its own leaves a whole number. -/
theorem scaleDown_ratio (m : Nat) {e g : Int} {up : Nat} (above : e = g + up) :
    (scaleDown (Decoded.ratio m e).1 (Decoded.ratio m e).2 g).1 =
      m * 2 ^ up * (scaleDown (Decoded.ratio m e).1 (Decoded.ratio m e).2 g).2 := by
  subst above
  have scaled := scaleDown_eq (Decoded.ratio m (g + up)).1 (Decoded.ratio m (g + up)).2 g
  have denominator : ((Decoded.ratio m (g + up)).2 : ℚ) ≠ 0 :=
    Nat.cast_ne_zero.mpr (Decoded.ratio_den_pos m (g + up)).ne'
  have power : (2 : ℚ) ^ g ≠ 0 := zpow_ne_zero _ two_ne_zero
  rw [Decoded.ratio_eq, zpow_add₀ two_ne_zero, zpow_natCast] at scaled
  rw [← Nat.cast_inj (R := ℚ), Nat.cast_mul, Nat.cast_mul, Nat.cast_pow, Nat.cast_ofNat]
  refine mul_right_cancel₀ (mul_ne_zero denominator power) ?_
  rw [← mul_assoc, scaled]
  ring

theorem roundHalfEven_mul (q : Nat) {den : Nat} (positive : 0 < den) :
    roundHalfEven (q * den) den = q := by
  simp [roundHalfEven, positive]

namespace BinaryFormat

/-- The exponents that leave room on both sides for any 53 digits. -/
def Moderate (e : Int) : Prop := -1000 ≤ e ∧ e ≤ 900

variable {m : Nat} {e : Int}

/-- The mantissa filled up to 53 digits. -/
theorem filled (positive : 0 < m) (small : m < 2 ^ 53) :
    double.hidden ≤ m * 2 ^ (52 - m.log2) ∧ m * 2 ^ (52 - m.log2) < 2 * double.hidden := by
  have digits : m.log2 < 53 := (Nat.log2_lt positive.ne').mpr small
  have hidden := double_hidden
  rw [hidden]
  constructor
  · calc 2 ^ 52 = 2 ^ m.log2 * 2 ^ (52 - m.log2) := by rw [← Nat.pow_add]; congr 1; omega
      _ ≤ m * 2 ^ (52 - m.log2) := Nat.mul_le_mul_right _ (Nat.log2_self_le positive.ne')
  · calc m * 2 ^ (52 - m.log2) < 2 ^ (m.log2 + 1) * 2 ^ (52 - m.log2) :=
          Nat.mul_lt_mul_of_pos_right Nat.lt_log2_self (Nat.two_pow_pos _)
      _ = 2 * 2 ^ 52 := by rw [← Nat.pow_add, ← Nat.pow_succ']; congr 1; omega

theorem scaleDown_filled (digits : m.log2 < 53) :
    (scaleDown (Decoded.ratio m e).1 (Decoded.ratio m e).2 (m.log2 + e - 52)).1 =
      m * 2 ^ (52 - m.log2) *
        (scaleDown (Decoded.ratio m e).1 (Decoded.ratio m e).2 (m.log2 + e - 52)).2 :=
  scaleDown_ratio m (by omega)

theorem exponentFor_exact (positive : 0 < m) (small : m < 2 ^ 53) (moderate : Moderate e) :
    double.exponentFor (Decoded.ratio m e).1 (Decoded.ratio m e).2 = m.log2 + e - 52 := by
  obtain ⟨low, high⟩ := moderate
  have digits : m.log2 < 53 := (Nat.log2_lt positive.ne').mpr small
  have guess : ((Decoded.ratio m e).1.log2 : Int) - (Decoded.ratio m e).2.log2 -
      ((double.precision - 1 : Nat) : Int) = m.log2 + e - 52 := by
    rw [Decoded.log2_ratio positive]
    rfl
  have exact := scaleDown_filled (e := e) digits
  have full := (filled positive small).1
  have least := double_minExponent
  unfold exponentFor
  simp only [guess]
  rw [if_neg (by rw [exact]; exact Nat.not_lt.mpr (Nat.mul_le_mul_right _ full)), least]
  omega

/-- The mantissa is filled up to 53 digits, and nothing is rounded. -/
theorem roundMagnitude_exact (positive : 0 < m) (small : m < 2 ^ 53) (moderate : Moderate e) :
    double.roundMagnitude (Decoded.ratio m e).1 (Decoded.ratio m e).2 =
      m * 2 ^ (52 - m.log2) + (m.log2 + e + 1022).toNat * double.hidden := by
  have exponent := exponentFor_exact positive small moderate
  obtain ⟨low, high⟩ := moderate
  have digits : m.log2 < 53 := (Nat.log2_lt positive.ne').mpr small
  have exact := scaleDown_filled (e := e) digits
  have nonzero : (Decoded.ratio m e).1 ≠ 0 := by
    cases e with
    | ofNat e => exact (Nat.mul_pos positive (powerOfTwo_pos e)).ne'
    | negSucc e => exact positive.ne'
  have least := double_minExponent
  have place : (m.log2 + e - 52 - double.minExponent).toNat = (m.log2 + e + 1022).toNat := by
    rw [least]
    omega
  have rounded := roundHalfEven_mul (m * 2 ^ (52 - m.log2))
    (scaleDown_den_pos (Decoded.ratio m e).1 (Decoded.ratio_den_pos m e) (m.log2 + e - 52))
  rw [← exact] at rounded
  unfold roundMagnitude
  simp only [if_neg nonzero, exponent, rounded, place]
  refine min_eq_left ?_
  have short := (filled positive small).2
  have hidden := double_hidden
  have infinity := double_infinityBits
  rw [hidden] at short ⊢
  omega

/-- A full mantissa and its place are read back from the bits. -/
theorem decode_full (negative : Bool) {q place : Nat} (full : double.hidden ≤ q)
    (short : q < 2 * double.hidden) (inside : place < 2046) :
    double.decode (double.withSign negative (q + place * double.hidden)) =
      .finite negative q (double.minExponent + place) := by
  have hidden := double_hidden
  have infinity := double_infinityBits
  have finite : q + place * double.hidden < double.infinityBits := by
    rw [hidden] at short ⊢
    omega
  obtain ⟨signed, rest⟩ := withSign_parts negative finite.le
  have biased : (q + place * double.hidden) / double.hidden = place + 1 := by
    rw [hidden] at full short ⊢
    omega
  have fraction : (q + place * double.hidden) % double.hidden + double.hidden = q := by
    rw [hidden] at full short ⊢
    omega
  unfold decode
  simp only [signed, rest, biased, fraction]
  rw [if_neg (Nat.not_lt.mpr finite.le), if_neg finite.ne', if_neg (Nat.succ_ne_zero place)]
  congr 1
  push_cast
  ring

theorem decode_zero (negative : Bool) :
    double.decode (double.withSign negative 0) = .finite negative 0 double.minExponent := by
  cases negative <;> decide

end BinaryFormat

open BinaryFormat (Moderate double)

theorem Double.bits_ofRatio (negative : Bool) (num den : Nat) :
    (Double.ofRatio negative num den).bits.toNat = double.ofRatio negative num den :=
  UInt64.toNat_ofNat_of_lt'
    (BinaryFormat.withSign_lt _ (BinaryFormat.roundMagnitude_le num den))

/-- A number of at most 53 digits is the same one in the 64-bit format. -/
theorem Double.same_ofRatio (negative : Bool) {m : Nat} {e : Int} (small : m < 2 ^ 53)
    (moderate : Moderate e) :
    (Decoded.finite negative m e).Same
      (Double.ofRatio negative (Decoded.ratio m e).1 (Decoded.ratio m e).2).decode := by
  unfold Double.decode
  rw [Double.bits_ofRatio, BinaryFormat.ofRatio]
  rcases Nat.eq_zero_or_pos m with rfl | positive
  · have zero : double.roundMagnitude (Decoded.ratio 0 e).1 (Decoded.ratio 0 e).2 = 0 := by
      cases e <;> simp [Decoded.ratio, BinaryFormat.roundMagnitude]
    rw [zero, BinaryFormat.decode_zero]
    exact .finite negative (by simp)
  · have digits : m.log2 < 53 := (Nat.log2_lt positive.ne').mpr small
    obtain ⟨full, short⟩ := BinaryFormat.filled positive small
    obtain ⟨low, high⟩ := moderate
    rw [BinaryFormat.roundMagnitude_exact positive small ⟨low, high⟩,
      BinaryFormat.decode_full negative full short (by omega)]
    refine .finite negative ?_
    have least := BinaryFormat.double_minExponent
    rw [Nat.cast_mul, Nat.cast_pow, Nat.cast_ofNat, mul_assoc, ← zpow_natCast,
      ← zpow_add₀ two_ne_zero, least]
    congr 2
    omega

/-! ## Conversions to the 64-bit format -/

/-- A 32-bit integer stays the same number. -/
theorem Double.rational?_ofInt (n : Int32) :
    (Double.ofInt n.toInt).decode.rational? = some (n.toInt : ℚ) := by
  have low := n.le_toInt
  have high := n.toInt_lt
  have small : n.toInt.natAbs < 2 ^ 53 := by omega
  have same := Double.same_ofRatio (decide (n.toInt < 0)) (e := 0) small ⟨by decide, by decide⟩
  have ratio : Decoded.ratio n.toInt.natAbs 0 = (n.toInt.natAbs, 1) := by
    change (n.toInt.natAbs * 1, 1) = _
    rw [Nat.mul_one]
  rw [ratio] at same
  have signed : Decoded.signed (decide (n.toInt < 0)) n.toInt.natAbs = n.toInt := by
    unfold Decoded.signed
    split
    · rename_i below
      have := of_decide_eq_true below
      omega
    · rename_i above
      have := of_decide_eq_false (Bool.not_eq_true _ ▸ above)
      omega
  refine same.rational?.trans ?_
  rw [Decoded.rational?, zpow_zero, mul_one, ← Decoded.signed_cast, signed]

theorem Single.decode_finite {x : Single} {negative : Bool} {m : Nat} {e : Int}
    (finite : x.decode = .finite negative m e) : m < 2 ^ 53 ∧ Moderate e := by
  have hidden : BinaryFormat.single.hidden = 2 ^ 23 := by decide
  have infinity : BinaryFormat.single.infinityBits = 255 * 2 ^ 23 := by decide
  have least : BinaryFormat.single.minExponent = -149 := by decide
  unfold Moderate
  unfold Single.decode BinaryFormat.decode at finite
  simp only [hidden, infinity, least] at finite
  split at finite
  · cases finite
  · split at finite
    · cases finite
    · split at finite <;> cases finite <;> omega

/-- Bits above those of infinity are not a number, whatever the sign and the payload. -/
theorem Double.decode_quietNaN (sign payload : UInt64) :
    (Double.mk (sign ||| 0x7ff8000000000000 ||| payload)).decode = .nan := by
  have magnitude : 0x7ff8000000000000 ≤
      (sign ||| 0x7ff8000000000000 ||| payload).toNat % 2 ^ 63 := by
    rw [UInt64.toNat_or, UInt64.toNat_or, Nat.or_mod_two_pow, Nat.or_mod_two_pow]
    exact Nat.le_trans Nat.right_le_or Nat.left_le_or
  unfold Double.decode BinaryFormat.decode
  dsimp only
  rw [BinaryFormat.double_signBit, BinaryFormat.double_infinityBits, if_pos (by omega)]

theorem Single.bits_of_infinite {x : Single} {negative : Bool}
    (infinite : x.decode = .infinite negative) :
    (x = ⟨0x7f800000⟩ ∧ negative = false) ∨ (x = ⟨0xff800000⟩ ∧ negative = true) := by
  have sign : BinaryFormat.single.signBit = 2 ^ 31 := by decide
  have infinity : BinaryFormat.single.infinityBits = 0x7f800000 := by decide
  have bound := x.bits.toNat_lt
  obtain ⟨bits⟩ := x
  unfold Single.decode BinaryFormat.decode at infinite
  simp only [sign, infinity] at infinite
  split at infinite
  · cases infinite
  · split at infinite
    · rename_i top
      cases infinite
      rcases Nat.lt_or_ge bits.toNat (2 ^ 31) with below | above
      · refine Or.inl ⟨?_, decide_eq_false (Nat.not_le.mpr below)⟩
        exact congrArg _ (UInt32.toNat_inj.mp (show bits.toNat = 0x7f800000 by omega))
      · refine Or.inr ⟨?_, decide_eq_true above⟩
        dsimp only at bound
        exact congrArg _ (UInt32.toNat_inj.mp (show bits.toNat = 0xff800000 by omega))
    · split at infinite <;> cases infinite

/-- A number of the 32-bit format stays the same one, with its sign. -/
theorem Single.same_toDouble (x : Single) : x.decode.Same x.toDouble.decode := by
  unfold Single.toDouble
  cases kind : x.decode with
  | nan =>
      rw [Double.decode_quietNaN]
      exact .nan
  | infinite negative =>
      rcases Single.bits_of_infinite kind with ⟨rfl, rfl⟩ | ⟨rfl, rfl⟩
      · have infinite : (Double.mk 0x7ff0000000000000).decode = .infinite false := by decide
        exact infinite ▸ .infinite false
      · have infinite : (Double.mk 0xfff0000000000000).decode = .infinite true := by decide
        exact infinite ▸ .infinite true
  | finite negative m e =>
      obtain ⟨small, moderate⟩ := Single.decode_finite kind
      exact Double.same_ofRatio negative small moderate

end TieredUdf.Numeric
