import Mathlib.Data.List.Basic
import TieredUdf.Proofs.Cache.Files

/-! # The names of artifacts

A file is named like an artifact when its name is 64 lower-case hexadecimal digits and an ending.
Exactly these names are the artifact files of hashes of 32 bytes.
-/

namespace TieredUdf

namespace Text.Hex

def isLowerDigit (c : Char) : Bool := ('0' ≤ c && c ≤ '9') || ('a' ≤ c && c ≤ 'f')

theorem isLowerDigit_iff {c : Char} :
    isLowerDigit c = true ↔ 48 ≤ c.toNat ∧ c.toNat ≤ 57 ∨ 97 ≤ c.toNat ∧ c.toNat ≤ 102 := by
  simp only [isLowerDigit, Bool.or_eq_true, Bool.and_eq_true, decide_eq_true_eq, Char.le_def,
    UInt32.le_iff_toNat_le]
  rfl

/-- A lower-case digit is written for the value that it is read as. -/
theorem digit_of_lower {c : Char} (h : isLowerDigit c = true) :
    ∃ v : Fin 16, digit (.ofNat v) = c := by
  rcases isLowerDigit_iff.mp h with ⟨low, high⟩ | ⟨low, high⟩
  · refine ⟨⟨c.toNat - 48, by omega⟩, ?_⟩
    have value : (UInt8.ofNat (c.toNat - 48)).toNat = c.toNat - 48 :=
      UInt8.toNat_ofNat_of_lt' (show c.toNat - 48 < 256 by omega)
    have small : UInt8.ofNat (c.toNat - 48) < 10 := UInt8.lt_iff_toNat_lt.mpr (by rw [value]; exact
      (show c.toNat - 48 < 10 by omega))
    rw [digit, if_pos small, value, Nat.sub_add_cancel low, Char.ofNat_toNat]
  · refine ⟨⟨c.toNat - 87, by omega⟩, ?_⟩
    have value : (UInt8.ofNat (c.toNat - 87)).toNat = c.toNat - 87 :=
      UInt8.toNat_ofNat_of_lt' (show c.toNat - 87 < 256 by omega)
    have large : ¬ UInt8.ofNat (c.toNat - 87) < 10 := by
      rw [UInt8.lt_iff_toNat_lt, value]
      exact show ¬ c.toNat - 87 < 10 by omega
    rw [digit, if_neg large, value, Nat.sub_add_cancel (by omega), Char.ofNat_toNat]

theorem length_encodeList (bytes : List UInt8) : (encodeList bytes).length = 2 * bytes.length := by
  induction bytes with
  | nil => rfl
  | cons b bytes ih =>
      have split : encodeList (b :: bytes) =
        digit (b >>> 4) :: digit (b &&& 15) :: encodeList bytes := rfl
      rw [split, List.length_cons, List.length_cons, ih, List.length_cons]
      omega

theorem lower_encodeList (bytes : List UInt8) : ∀ c ∈ encodeList bytes, isLowerDigit c = true := by
  have digits : ∀ n : Fin 256, isLowerDigit (digit (UInt8.ofFin n >>> 4)) = true ∧
      isLowerDigit (digit (UInt8.ofFin n &&& 15)) = true := by
    decide +kernel
  intro c hc
  obtain ⟨b, _, mem⟩ := List.mem_flatMap.mp hc
  obtain ⟨high, low⟩ := digits b.toFin
  rw [UInt8.ofFin_toFin] at high low
  rcases List.mem_pair.mp mem with rfl | rfl
  · exact high
  · exact low

/-- An even number of lower-case digits is what some bytes are written as. -/
theorem exists_encodeList {n : Nat} {cs : List Char} (lower : ∀ c ∈ cs, isLowerDigit c = true)
    (length : cs.length = 2 * n) : ∃ bytes, bytes.length = n ∧ encodeList bytes = cs := by
  have halves : ∀ high low : Fin 16,
      (UInt8.ofNat high <<< 4 ||| UInt8.ofNat low) >>> 4 = UInt8.ofNat high ∧
      (UInt8.ofNat high <<< 4 ||| UInt8.ofNat low) &&& 15 = UInt8.ofNat low := by
    decide +kernel
  induction n generalizing cs with
  | zero => exact ⟨[], rfl, (List.eq_nil_of_length_eq_zero length).symm⟩
  | succ n ih =>
      match cs, lower, length with
      | first :: second :: rest, lower, length =>
          obtain ⟨high, written⟩ := digit_of_lower (lower first (by simp))
          obtain ⟨low, also⟩ := digit_of_lower (lower second (by simp))
          have shorter : rest.length = 2 * n := by
            simp only [List.length_cons] at length
            omega
          obtain ⟨bytes, size, encoded⟩ := ih (fun c hc => lower c (by simp [hc])) shorter
          obtain ⟨upper, under⟩ := halves high low
          refine ⟨(UInt8.ofNat high <<< 4 ||| UInt8.ofNat low) :: bytes, by simp [size], ?_⟩
          have split (b : UInt8) : encodeList (b :: bytes) =
            digit (b >>> 4) :: digit (b &&& 15) :: encodeList bytes := rfl
          rw [split, upper, under, written, also, encoded]

end Text.Hex

/-- Whether a name is 64 lower-case hexadecimal digits and the ending of artifacts. -/
def isArtifactName (name : String) : Bool :=
  (name.toList.take 64).length == 64 && (name.toList.take 64).all Text.Hex.isLowerDigit &&
    name.toList.drop 64 == ".cwasm".toList

theorem isArtifactName_iff {name : String} :
    isArtifactName name = true ↔
      ∃ h : ContentHash, h.bytes.length = 32 ∧ name = h.artifactFile := by
  simp only [isArtifactName, Bool.and_eq_true, beq_iff_eq, List.all_eq_true]
  constructor
  · rintro ⟨⟨length, lower⟩, ending⟩
    obtain ⟨bytes, size, encoded⟩ := Text.Hex.exists_encodeList (n := 32) lower length
    refine ⟨⟨bytes⟩, size, String.toList_inj.mp ?_⟩
    rw [ContentHash.artifactFile, String.toList_append, ContentHash.hex_toList, encoded, ← ending,
      List.take_append_drop]
  · rintro ⟨h, whole, rfl⟩
    have digits : (Text.Hex.encodeList h.bytes).length = 64 := by
      rw [Text.Hex.length_encodeList, whole]
    have parts : h.artifactFile.toList = Text.Hex.encodeList h.bytes ++ ".cwasm".toList := by
      rw [ContentHash.artifactFile, String.toList_append, ContentHash.hex_toList]
    rw [parts, List.take_left' digits, List.drop_left' digits]
    exact ⟨⟨digits, Text.Hex.lower_encodeList h.bytes⟩, rfl⟩

end TieredUdf
