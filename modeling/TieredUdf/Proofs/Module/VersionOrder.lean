import Mathlib.Algebra.Group.Nat.Defs
import Mathlib.Data.List.TakeDrop
import Mathlib.Data.List.TakeWhile
import Mathlib.Order.Basic
import TieredUdf.Module.Version
import TieredUdf.Proofs.Text.Slices

/-! # The order of versions

Versions are ordered by their parts one after the other, and each part by a key of its own, so the
order is total and two versions are equally great only if they are the same.  A text is determined
by the version that is read from it: a number has no leading zero and the points stand where the
identifiers end.
-/

namespace TieredUdf.Version

open Std
open Numeric (digitsValue)

/-- An order of keys orders what the keys are read from. -/
theorem transCmp_of_key {α β : Type} (cmp : β → β → Ordering) [TransCmp cmp] (key : α → β) :
    TransCmp fun a b => cmp (key a) (key b) where
  eq_swap := OrientedCmp.eq_swap
  isLE_trans := TransCmp.isLE_trans

/-! ## Texts and lists of texts -/

theorem compareChars_eq : compareChars = List.compareLex (compareOn Char.toNat) := by
  funext a b
  induction a generalizing b with
  | nil => cases b <;> rfl
  | cons c a ih =>
      cases b with
      | nil => rfl
      | cons d b => rw [compareChars, ih, List.compareLex_cons_cons, compareOn]

instance : LawfulEqCmp (compareOn Char.toNat) where
  compare_self := ReflCmp.compare_self
  eq_of_compare same := Char.toNat_inj.mp (LawfulEqCmp.eq_of_compare same)

instance : TransCmp compareChars := by
  rw [compareChars_eq]
  infer_instance

instance : LawfulEqCmp compareChars := by
  rw [compareChars_eq]
  infer_instance

theorem compareLists_eq (item : List Char → List Char → Ordering) :
    compareLists item = List.compareLex item := by
  funext a b
  induction a generalizing b with
  | nil => cases b <;> rfl
  | cons c a ih =>
      cases b with
      | nil => rfl
      | cons d b => rw [compareLists, ih, List.compareLex_cons_cons]

/-! ## Identifiers -/

/-- The length of a numeric identifier; other texts are not told apart by their lengths. -/
def numberLength (cs : List Char) : Nat := if isNumeric cs then cs.length else 0

/-- A numeric identifier without its leading zeros. -/
def significant (cs : List Char) : List Char :=
  if isNumeric cs then cs.dropWhile (· == '0') else cs

theorem comparePreRelease_eq : comparePreRelease =
    compareLex (compareOn fun cs => !isNumeric cs)
      (compareLex (compareOn numberLength) compareChars) := by
  funext a b
  unfold comparePreRelease compareLex numberLength
  cases left : isNumeric a <;> cases right : isNumeric b <;> simp [compareOn, left, right] <;> rfl

instance : TransCmp comparePreRelease := by
  rw [comparePreRelease_eq]
  infer_instance

instance : LawfulEqCmp comparePreRelease where
  eq_of_compare same := by
    simp only [comparePreRelease_eq, compareLex, Ordering.then_eq_eq] at same
    exact LawfulEqCmp.eq_of_compare same.2.2

def valueLength (cs : List Char) : Nat := if isNumeric cs then (significant cs).length else 0

theorem compareBuild_eq : compareBuild =
    compareLex (compareOn fun cs => !isNumeric cs)
      (compareLex (compareOn valueLength)
        (compareLex (fun a b => compareChars (significant a) (significant b))
          (compareOn numberLength))) := by
  funext a b
  unfold compareBuild compareLex
  cases left : isNumeric a <;> cases right : isNumeric b <;>
    simp [compareOn, numberLength, valueLength, significant, left, right] <;> rfl

instance : TransCmp compareBuild := by
  have keys := transCmp_of_key compareChars significant
  rw [compareBuild_eq]
  infer_instance

theorem zeros_append_dropWhile (cs : List Char) : ∃ n,
    cs = List.replicate n '0' ++ cs.dropWhile (· == '0') := by
  have zeros : cs.takeWhile (· == '0') = List.replicate (cs.takeWhile (· == '0')).length '0' :=
    List.eq_replicate_iff.mpr ⟨rfl, fun c mem => by simpa using List.mem_takeWhile_imp mem⟩
  exact ⟨_, by rw [← zeros, List.takeWhile_append_dropWhile]⟩

/-- A numeric identifier is determined by its length and what follows its leading zeros. -/
theorem eq_of_dropWhile {a b : List Char} (length : a.length = b.length)
    (rest : a.dropWhile (· == '0') = b.dropWhile (· == '0')) : a = b := by
  obtain ⟨n, left⟩ := zeros_append_dropWhile a
  obtain ⟨k, right⟩ := zeros_append_dropWhile b
  rw [rest] at left
  generalize b.dropWhile (· == '0') = value at left right
  have same : n = k := by simpa [left, right] using length
  rw [left, right, same]

instance : LawfulEqCmp compareBuild where
  eq_of_compare {a b} same := by
    simp only [compareBuild_eq, compareLex, compareOn, Ordering.then_eq_eq] at same
    obtain ⟨kinds, -, significants, lengths⟩ := same
    have kinds : isNumeric a = isNumeric b := by
      simpa using LawfulEqOrd.compare_eq_iff_eq.mp kinds
    have significants : significant a = significant b := LawfulEqCmp.eq_of_compare significants
    have lengths : numberLength a = numberLength b := LawfulEqOrd.compare_eq_iff_eq.mp lengths
    unfold significant at significants
    unfold numberLength at lengths
    rw [← kinds] at significants lengths
    split at significants
    · rename_i numeric
      rw [if_pos numeric, if_pos numeric] at lengths
      exact eq_of_dropWhile lengths significants
    · exact significants

/-! ## Versions -/

theorem comparePreReleases_eq : comparePreReleases =
    compareLex (compareOn List.isEmpty) (List.compareLex comparePreRelease) := by
  funext a b
  cases a <;> cases b <;> simp [comparePreReleases, compareLex, compareOn, compareLists_eq] <;> rfl

theorem order_eq : order =
    compareLex (compareOn major) (compareLex (compareOn minor) (compareLex (compareOn patch)
      (compareLex (fun v w => comparePreReleases v.preRelease w.preRelease)
        fun v w => compareLists compareBuild v.build w.build))) := rfl

instance : TransCmp order := by
  have preReleases : TransCmp comparePreReleases := by
    rw [comparePreReleases_eq]
    infer_instance
  have builds : TransCmp (compareLists compareBuild) := by
    rw [compareLists_eq]
    infer_instance
  have first := transCmp_of_key comparePreReleases preRelease
  have second := transCmp_of_key (compareLists compareBuild) build
  rw [order_eq]
  infer_instance

instance : LawfulEqCmp order where
  eq_of_compare {v w} same := by
    simp only [order_eq, comparePreReleases_eq, compareLists_eq, compareLex, compareOn,
      Ordering.then_eq_eq] at same
    obtain ⟨major, minor, patch, ⟨-, preRelease⟩, build⟩ := same
    cases v
    cases w
    rw [Version.mk.injEq]
    exact ⟨LawfulEqOrd.compare_eq_iff_eq.mp major, LawfulEqOrd.compare_eq_iff_eq.mp minor,
      LawfulEqOrd.compare_eq_iff_eq.mp patch, LawfulEqCmp.eq_of_compare preRelease,
      LawfulEqCmp.eq_of_compare build⟩

theorem le_iff {v w : Version} : v.le w = true ↔ (v.order w).isLE = true := by
  unfold le
  cases v.order w <;> decide

/-! ## The text of a version -/

/-- How a list of identifiers is written after the numbers; there is no mark without one. -/
def labelled (mark : Char) (parts : List (List Char)) : List Char :=
  if parts = [] then [] else mark :: ['.'].intercalate parts

def chars (v : Version) : List Char :=
  Nat.toDigits 10 v.major ++ '.' :: (Nat.toDigits 10 v.minor ++ '.' ::
    (Nat.toDigits 10 v.patch ++ (labelled '-' v.preRelease ++ labelled '+' v.build)))

theorem digitChar_sub {c : Char} (digit : c.isDigit = true) : Nat.digitChar (c.toNat - 48) = c := by
  have bounds : 48 ≤ c.toNat ∧ c.toNat ≤ 57 := Char.isDigit_iff_toNat.mp digit
  apply Char.toNat_inj.mp
  rw [Nat.toNat_digitChar_of_lt_ten (by omega)]
  omega

theorem toDigits_ofDigitChars {cs : List Char} (digits : ∀ c ∈ cs, c.isDigit = true) {n : Nat}
    (pos : 0 < n) : Nat.toDigits 10 (Nat.ofDigitChars 10 cs n) = Nat.toDigits 10 n ++ cs := by
  induction cs generalizing n with
  | nil => simp
  | cons c cs ih =>
      obtain ⟨digit, rest⟩ := List.forall_mem_cons.mp digits
      have bounds : 48 ≤ c.toNat ∧ c.toNat ≤ 57 := Char.isDigit_iff_toNat.mp digit
      have small : c.toNat - 48 < 10 := by omega
      have first := Nat.toDigits_append_toDigits (by decide : 1 < 10) pos small
      rw [Nat.toDigits_of_lt_base small, digitChar_sub digit] at first
      have later := ih rest (n := 10 * n + (c.toNat - 48)) (by omega)
      rw [← first, List.append_assoc, List.singleton_append] at later
      rw [Nat.ofDigitChars_cons]
      exact later

/-- Digits without a leading zero are those of their value. -/
theorem toDigits_digitsValue {cs : List Char} (given : cs ≠ [])
    (digits : ∀ c ∈ cs, c.isDigit = true) (plain : hasLeadingZero cs = false) :
    Nat.toDigits 10 (digitsValue cs) = cs := by
  rw [Numeric.digitsValue_eq]
  cases cs with
  | nil => exact absurd rfl given
  | cons c cs =>
      obtain ⟨digit, rest⟩ := List.forall_mem_cons.mp digits
      have bounds : 48 ≤ c.toNat ∧ c.toNat ≤ 57 := Char.isDigit_iff_toNat.mp digit
      have first : Nat.toDigits 10 (c.toNat - 48) = [c] := by
        rw [Nat.toDigits_of_lt_base (by omega), digitChar_sub digit]
      by_cases zero : c = '0'
      · have alone : cs = [] := by simpa [hasLeadingZero, zero] using plain
        rw [alone, Nat.ofDigitChars_cons, Nat.ofDigitChars_nil]
        simpa using first
      · have pos : 0 < c.toNat - 48 := by
          have other : c.toNat ≠ '0'.toNat := mt Char.toNat_inj.mp zero
          have : '0'.toNat = 48 := rfl
          omega
        rw [Nat.ofDigitChars_cons]
        have whole := toDigits_ofDigitChars rest pos
        rw [first] at whole
        simpa using whole

theorem number?_eq_some {cs rest : List Char} {n : Nat} (h : number? cs = some (n, rest)) :
    cs = Nat.toDigits 10 n ++ rest := by
  simp only [number?, List.span_eq_takeWhile_dropWhile] at h
  split at h
  · cases h
  · rename_i accepted
    simp only [not_or, Bool.not_eq_true] at accepted
    cases h
    rw [toDigits_digitsValue accepted.1 (fun c mem => List.mem_takeWhile_imp mem) accepted.2.1,
      List.takeWhile_append_dropWhile]

theorem point?_eq_some {cs rest : List Char} (h : point? cs = some rest) : cs = '.' :: rest := by
  unfold point? at h
  split at h
  · cases h
    rfl
  · cases h

theorem splitPoints_eq (cs : List Char) : splitPoints cs = cs.splitOn '.' := by
  induction cs with
  | nil => rfl
  | cons c cs ih =>
      rw [splitPoints, ih]
      exact (Text.splitOn_point_cons c cs).symm

theorem identifiers?_eq_some {cs : List Char} {parts : List (List Char)}
    (h : identifiers? cs = some parts) : parts ≠ [] ∧ ['.'].intercalate parts = cs := by
  unfold identifiers? at h
  dsimp only at h
  split at h
  · cases h
    rw [splitPoints_eq]
    exact ⟨List.splitOn_ne_nil _ _, List.intercalate_splitOn _⟩
  · cases h

theorem preRelease?_eq_some {cs : List Char} {parts : List (List Char)}
    (h : preRelease? cs = some parts) : identifiers? cs = some parts := by
  obtain ⟨found, read, h⟩ := Option.bind_eq_some_iff.mp h
  split at h
  · cases h
  · exact read.trans h

theorem labelled_of_identifiers? {cs : List Char} {parts : List (List Char)} (mark : Char)
    (h : identifiers? cs = some parts) : mark :: cs = labelled mark parts := by
  obtain ⟨given, rfl⟩ := identifiers?_eq_some h
  rw [labelled, if_neg given]

theorem exists_preRelease {front : List Char} {k : List (List Char) → Option Version} {v : Version}
    (h : (match front with
      | [] => (some []).bind k
      | '-' :: cs => (preRelease? cs).bind k
      | _ => none.bind k) = some v) :
    ∃ parts, front = labelled '-' parts ∧ k parts = some v := by
  split at h
  · exact ⟨[], rfl, h⟩
  · obtain ⟨parts, read, h⟩ := Option.bind_eq_some_iff.mp h
    exact ⟨parts, labelled_of_identifiers? '-' (preRelease?_eq_some read), h⟩
  · cases h

theorem exists_build {rest : List Char} {k : List (List Char) → Option Version} {v : Version}
    (h : (match rest.dropWhile (· != '+') with
      | [] => (some []).bind k
      | _ :: cs => (identifiers? cs).bind k) = some v) :
    ∃ parts, rest.dropWhile (· != '+') = labelled '+' parts ∧ k parts = some v := by
  cases found : rest.dropWhile (· != '+') with
  | nil =>
      rw [found] at h
      exact ⟨[], rfl, h⟩
  | cons c cs =>
      have mark : c = '+' := by
        have first := List.head?_dropWhile_not (· != '+') rest
        simpa [found] using first
      rw [found] at h
      obtain ⟨parts, read, h⟩ := Option.bind_eq_some_iff.mp h
      exact ⟨parts, mark ▸ labelled_of_identifiers? '+' read, h⟩

/-- A text that is read is the text of the version. -/
theorem parse?_eq_some {s : String} {v : Version} (h : parse? s = some v) :
    s.toList = v.chars := by
  obtain ⟨⟨major, afterMajor⟩, readMajor, h⟩ := Option.bind_eq_some_iff.mp h
  obtain ⟨beforeMinor, firstPoint, h⟩ := Option.bind_eq_some_iff.mp h
  obtain ⟨⟨minor, afterMinor⟩, readMinor, h⟩ := Option.bind_eq_some_iff.mp h
  obtain ⟨beforePatch, secondPoint, h⟩ := Option.bind_eq_some_iff.mp h
  obtain ⟨⟨patch, rest⟩, readPatch, h⟩ := Option.bind_eq_some_iff.mp h
  simp only [List.span_eq_takeWhile_dropWhile] at h
  obtain ⟨preRelease, front, h⟩ := exists_preRelease h
  obtain ⟨build, back, h⟩ := exists_build h
  cases h
  have whole : labelled '-' preRelease ++ labelled '+' build = rest := by
    rw [← front, ← back, List.takeWhile_append_dropWhile]
  rw [number?_eq_some readMajor, point?_eq_some firstPoint, number?_eq_some readMinor,
    point?_eq_some secondPoint, number?_eq_some readPatch, chars, whole]

theorem parse?_injective {s t : String} {v : Version} (left : parse? s = some v)
    (right : parse? t = some v) : s = t :=
  String.toList_inj.mp ((parse?_eq_some left).trans (parse?_eq_some right).symm)

end TieredUdf.Version
