import Mathlib.Algebra.Group.Nat.Defs
import Mathlib.Data.List.TakeWhile
import TieredUdf.Document.Path

/-! # The texts of field paths

Steps are written as keys with points between them and as indexes in brackets, and a text is read
back as the steps it was written from.  A text of nothing but points has no step.
-/

namespace TieredUdf.Document

namespace Step

/-- How a step is written at the front of a path. -/
def chars : Step → List Char
  | .key name => name.toList
  | .index i => '[' :: Nat.toDigits 10 i ++ [']']

/-- How a step is written after another one: a point stands before a key. -/
def further : Step → List Char
  | .key name => '.' :: name.toList
  | .index i => (Step.index i).chars

/-- A key that is not empty and has no point and no opening bracket in it, or an index of 64
bits. -/
def Ordinary : Step → Prop
  | .key name => name ≠ "" ∧ '.' ∉ name.toList ∧ '[' ∉ name.toList
  | .index i => i < 2 ^ 64

instance : (s : Step) → Decidable s.Ordinary
  | .key _ => inferInstanceAs (Decidable (_ ∧ _ ∧ _))
  | .index _ => inferInstanceAs (Decidable (_ < _))

end Step

namespace Path

/-- The usual text of a path. -/
def text : List Step → String
  | [] => ""
  | first :: rest => String.ofList (first.chars ++ rest.flatMap Step.further)

/-! ## Parts -/

theorem parts_of_no_point {part : List Char} (h : '.' ∉ part) : parts part = [part] := by
  induction part with
  | nil => rfl
  | cons c part ih =>
      obtain ⟨other, rest⟩ := not_or.mp (mt List.mem_cons.mpr h)
      rw [parts, if_neg (Ne.symm other), ih rest]

theorem parts_append_point {part : List Char} (h : '.' ∉ part) (more : List Char) :
    parts (part ++ '.' :: more) = part :: parts more := by
  induction part with
  | nil => rfl
  | cons c part ih =>
      obtain ⟨other, rest⟩ := not_or.mp (mt List.mem_cons.mpr h)
      rw [List.cons_append, parts, if_neg (Ne.symm other), ih rest]

/-! ## Indexes -/

theorem digits?_eq_ofDigitChars (n : Nat) {cs : List Char} (digits : ∀ c ∈ cs, c.isDigit = true) :
    digits? n cs = some (Nat.ofDigitChars 10 cs n) := by
  rw [Nat.ofDigitChars_eq_foldl]
  induction cs generalizing n with
  | nil => rfl
  | cons c cs ih =>
      obtain ⟨first, rest⟩ := List.forall_mem_cons.mp digits
      rw [digits?, if_pos first, ih _ rest, Nat.mul_comm]
      rfl

theorem not_mem_toDigits {c : Char} (i : Nat) (other : c.isDigit = false) :
    c ∉ Nat.toDigits 10 i := by
  intro mem
  rw [Nat.isDigit_of_mem_toDigits (by decide) (by decide) mem] at other
  cases other

theorem index?_toDigits {i : Nat} (small : i < 2 ^ 64) : index? (Nat.toDigits 10 i) = some i := by
  have digits : ∀ c ∈ Nat.toDigits 10 i, c.isDigit = true :=
    fun _ mem => Nat.isDigit_of_mem_toDigits (by decide) (by decide) mem
  have value : digits? 0 (Nat.toDigits 10 i) = some i := by
    rw [digits?_eq_ofDigitChars 0 digits, Nat.ofDigitChars_ten_toDigits]
  have fits : Numeric.fitsWord64 i = true := decide_eq_true (by unfold Numeric.maxWord64; omega)
  have unsigned : ∀ rest, Nat.toDigits 10 i ≠ '+' :: rest := fun rest same =>
    not_mem_toDigits (c := '+') i rfl (by simp [same])
  unfold index?
  split
  · exact absurd ‹_› (unsigned _)
  · dsimp only
    rw [if_neg Nat.toDigits_ne_nil, value]
    exact if_pos fits

/-- Reading goes on after indexes that have been read to their end. -/
theorem indexes?_append {state : Option (List Char)} {cs : List Char} {before : List Nat}
    (read : indexes? state cs = some before) (more : List Char) :
    indexes? state (cs ++ more) = (indexes? none more).map (before ++ ·) := by
  induction cs generalizing state before with
  | nil =>
      cases state with
      | none =>
          cases read
          simp
      | some _ => cases read
  | cons c cs ih =>
      cases state with
      | none =>
          rw [indexes?] at read
          rw [List.cons_append, indexes?]
          by_cases opening : c = '['
          · rw [if_pos opening] at read ⊢
            exact ih read
          · rw [if_neg opening] at read
            cases read
      | some inside =>
          rw [indexes?] at read
          rw [List.cons_append, indexes?]
          by_cases closing : c = ']'
          · rw [if_pos closing] at read ⊢
            split at read
            · rename_i n later index rest
              cases read
              rw [index, ih rest]
              cases indexes? none more <;> rfl
            · cases read
          · rw [if_neg closing] at read ⊢
            exact ih read

theorem indexes?_inside (inside : List Char) {cs : List Char} (h : ']' ∉ cs) {n : Nat}
    (value : index? (inside.reverse ++ cs) = some n) :
    indexes? (some inside) (cs ++ [']']) = some [n] := by
  induction cs generalizing inside with
  | nil =>
      rw [List.append_nil] at value
      simp [indexes?, value]
  | cons c cs ih =>
      obtain ⟨other, rest⟩ := not_or.mp (mt List.mem_cons.mpr h)
      rw [List.cons_append, indexes?, if_neg (Ne.symm other)]
      exact ih (c :: inside) rest (by simpa using value)

theorem indexes?_index {i : Nat} (small : i < 2 ^ 64) :
    indexes? none (Step.index i).chars = some [i] := by
  have inside := indexes?_inside [] (not_mem_toDigits (c := ']') i rfl) (n := i)
    (by simpa using index?_toDigits small)
  rwa [Step.chars, List.cons_append, indexes?, if_pos rfl]

/-! ## Reading back -/

theorem part?_key {name : String} (given : name ≠ "") (h : '[' ∉ name.toList) :
    part? name.toList = some [.key name] := by
  have key : ∀ c ∈ name.toList, (c != '[') = true := by
    intro c mem
    refine bne_iff_ne.mpr ?_
    rintro rfl
    exact h mem
  have letters : name.toList ≠ [] := by simpa using given
  rw [part?, List.takeWhile_eq_self_iff.mpr key, List.dropWhile_eq_nil_iff.mpr key]
  simp [indexes?, letters]

theorem part?_nil : part? [] = some [] := rfl

/-- An index after a part belongs to it. -/
theorem part?_append_index {part : List Char} {steps : List Step} {i : Nat}
    (read : part? part = some steps) (small : i < 2 ^ 64) :
    part? (part ++ (Step.index i).chars) = some (steps ++ [.index i]) := by
  have key : (part ++ (Step.index i).chars).takeWhile (· != '[') =
      part.takeWhile (· != '[') := by
    rw [Step.chars, List.takeWhile_append]
    split
    · rename_i whole
      have same := (List.takeWhile_prefix (· != '[')).eq_of_length whole
      simp [same]
    · rfl
  have rest : (part ++ (Step.index i).chars).dropWhile (· != '[') =
      part.dropWhile (· != '[') ++ (Step.index i).chars := by
    rw [List.dropWhile_append]
    split
    · rename_i empty
      rw [List.isEmpty_iff.mp empty]
      rfl
    · rfl
  unfold part? at read ⊢
  obtain ⟨before, indexes, rfl⟩ := Option.map_eq_some_iff.mp read
  rw [key, rest, indexes?_append indexes, indexes?_index small]
  simp

/-- Steps that are written after a part are read after those of the part. -/
theorem steps?_further {steps : List Step} (ordinary : ∀ s ∈ steps, s.Ordinary)
    {part : List Char} (whole : '.' ∉ part) {before : List Step}
    (read : part? part = some before) :
    steps? (parts (part ++ steps.flatMap Step.further)) = some (before ++ steps) := by
  -- A key ends the part that was begun, and an index makes it longer.
  induction steps generalizing part before with
  | nil =>
      rw [List.flatMap_nil, List.append_nil, parts_of_no_point whole]
      simp [steps?, read]
  | cons step steps ih =>
      obtain ⟨first, rest⟩ := List.forall_mem_cons.mp ordinary
      cases step with
      | key name =>
          obtain ⟨given, noPoint, noBracket⟩ := first
          have later := ih rest noPoint (part?_key given noBracket)
          rw [List.flatMap_cons, Step.further, List.cons_append, parts_append_point whole, steps?,
            read, later]
          simp
      | index i =>
          have longer : '.' ∉ part ++ (Step.index i).chars := by
            simp [whole, Step.chars, not_mem_toDigits (c := '.') i rfl]
          have later := ih rest longer (part?_append_index read first)
          rw [List.flatMap_cons, Step.further, ← List.append_assoc, later]
          simp

theorem parse?_text {steps : List Step} (ordinary : ∀ s ∈ steps, s.Ordinary) :
    parse? (text steps) = some steps := by
  cases steps with
  | nil => rfl
  | cons step steps =>
      obtain ⟨first, rest⟩ := List.forall_mem_cons.mp ordinary
      rw [parse?, text, String.toList_ofList]
      cases step with
      | key name =>
          obtain ⟨given, noPoint, noBracket⟩ := first
          exact steps?_further rest noPoint (part?_key given noBracket)
      | index i =>
          have noPoint : '.' ∉ (Step.index i).chars := by
            simp [Step.chars, not_mem_toDigits (c := '.') i rfl]
          have alone : part? (Step.index i).chars = some [.index i] :=
            part?_append_index part?_nil first
          exact steps?_further rest noPoint alone

example : parse? "a.b[2].c" = some [.key "a", .key "b", .index 2, .key "c"] := by decide

/-! ## Paths without a step -/

/-- A group of brackets that has begun gives an index or nothing. -/
theorem indexes?_inside_ne_nil (inside cs : List Char) : indexes? (some inside) cs ≠ some [] := by
  induction cs generalizing inside with
  | nil => exact nofun
  | cons c cs ih =>
      rw [indexes?]
      split
      · split
        · exact nofun
        · exact nofun
      · exact ih (c :: inside)

theorem part?_eq_some_nil {cs : List Char} : part? cs = some [] ↔ cs = [] := by
  refine ⟨fun read => ?_, fun empty => empty ▸ part?_nil⟩
  unfold part? at read
  obtain ⟨indexes, found, noStep⟩ := Option.map_eq_some_iff.mp read
  obtain ⟨noKey, noIndex⟩ := List.append_eq_nil_iff.mp noStep
  have key : cs.takeWhile (· != '[') = [] := by
    by_contra given
    rw [if_neg given] at noKey
    cases noKey
  have all : cs.dropWhile (· != '[') = cs := by
    have split := List.takeWhile_append_dropWhile (p := (· != '[')) (l := cs)
    rwa [key] at split
  rw [all, List.map_eq_nil_iff.mp noIndex] at found
  cases cs with
  | nil => rfl
  | cons c cs =>
      rw [indexes?] at found
      split at found
      · exact absurd found (indexes?_inside_ne_nil [] cs)
      · cases found

theorem steps?_eq_some_nil {ps : List (List Char)} :
    steps? ps = some [] ↔ ∀ part ∈ ps, part = [] := by
  induction ps with
  | nil => simp [steps?]
  | cons part ps ih =>
      rw [List.forall_mem_cons, ← ih, ← part?_eq_some_nil, steps?]
      cases part? part with
      | none => simp
      | some first => cases steps? ps <;> simp

theorem parts_empty {cs : List Char} : (∀ part ∈ parts cs, part = []) ↔ ∀ c ∈ cs, c = '.' := by
  induction cs with
  | nil => simp [parts]
  | cons c cs ih =>
      rw [List.forall_mem_cons, ← ih, parts]
      by_cases point : c = '.'
      · simp [point]
      · cases parts cs <;> simp [point]

/-- The paths that are read as no step at all are those of nothing but points. -/
theorem parse?_eq_some_nil {path : String} :
    parse? path = some [] ↔ ∀ c ∈ path.toList, c = '.' :=
  steps?_eq_some_nil.trans parts_empty

end Path

end TieredUdf.Document
