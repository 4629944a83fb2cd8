import Mathlib.Data.List.Forall2
import TieredUdf.Proofs.Document.PathText
import TieredUdf.Proofs.Text.Slices

/-! # The grammar of field paths

A path is read exactly if each of its parts between the points is a key without an opening
bracket, which may be empty, and then indexes in brackets up to the end of the part.  What is read
are the steps of the parts in order; an empty key is none.
-/

namespace TieredUdf.Document.Path

/-! ## The grammar -/

/-- Decimal digits, one at least, with a value of 64 bits. -/
structure Digits (cs : List Char) (n : Nat) : Prop where
  given : cs ≠ []
  digits : ∀ c ∈ cs, c.isDigit = true
  value : Nat.ofDigitChars 10 cs 0 = n
  small : n < 2 ^ 64

/-- The text of an index; a plus sign may stand before the digits. -/
inductive Numeral : List Char → Nat → Prop where
  | plain {cs : List Char} {n : Nat} (digits : Digits cs n) : Numeral cs n
  | signed {cs : List Char} {n : Nat} (digits : Digits cs n) : Numeral ('+' :: cs) n

/-- Indexes in brackets, one after the other, and nothing between or after them. -/
inductive Groups : List Char → List Nat → Prop where
  | done : Groups [] []
  | group {inside rest : List Char} {n : Nat} {more : List Nat} (number : Numeral inside n)
      (later : Groups rest more) : Groups ('[' :: (inside ++ ']' :: rest)) (n :: more)

inductive Part : List Char → List Step → Prop where
  | keyed {key groups : List Char} {indexes : List Nat} (given : key ≠ []) (free : '[' ∉ key)
      (read : Groups groups indexes) :
      Part (key ++ groups) (.key (String.ofList key) :: indexes.map .index)
  | keyless {groups : List Char} {indexes : List Nat} (read : Groups groups indexes) :
      Part groups (indexes.map .index)

/-! ## Indexes -/

theorem digits?_eq_some {n k : Nat} {cs : List Char} :
    digits? n cs = some k ↔ (∀ c ∈ cs, c.isDigit = true) ∧ Nat.ofDigitChars 10 cs n = k := by
  constructor
  · intro read
    have digits : ∀ c ∈ cs, c.isDigit = true := by
      induction cs generalizing n with
      | nil => exact nofun
      | cons c cs ih =>
          rw [digits?] at read
          split at read
          · rename_i digit
            exact List.forall_mem_cons.mpr ⟨digit, ih read⟩
          · cases read
    rw [digits?_eq_ofDigitChars n digits, Option.some.injEq] at read
    exact ⟨digits, read⟩
  · rintro ⟨digits, rfl⟩
    exact digits?_eq_ofDigitChars n digits

theorem fitsWord64_iff {n : Nat} : Numeric.fitsWord64 n = true ↔ n < 2 ^ 64 := by
  unfold Numeric.fitsWord64 Numeric.maxWord64
  rw [decide_eq_true_eq]
  omega

/-- The part of reading an index that comes after the sign. -/
theorem digits_iff {cs : List Char} {n : Nat} :
    (if cs = [] then none else match digits? 0 cs with
      | some n => if Numeric.fitsWord64 n then some n else none
      | none => none) = some n ↔ Digits cs n := by
  constructor
  · intro read
    split at read
    · cases read
    · rename_i given
      split at read
      · rename_i k found
        split at read
        · rename_i small
          cases read
          obtain ⟨digits, value⟩ := digits?_eq_some.mp found
          exact ⟨given, digits, value, fitsWord64_iff.mp small⟩
        · cases read
      · cases read
  · rintro ⟨given, digits, value, small⟩
    rw [if_neg given, digits?_eq_some.mpr ⟨digits, value⟩]
    exact if_pos (fitsWord64_iff.mpr small)

theorem index?_eq_some {cs : List Char} {n : Nat} : index? cs = some n ↔ Numeral cs n := by
  unfold index?
  split
  · refine Iff.trans digits_iff ⟨.signed, ?_⟩
    rintro (⟨⟨_, digits, _⟩⟩ | digits)
    · cases digits '+' List.mem_cons_self
    · exact digits
  · rename_i unsigned
    refine Iff.trans digits_iff ⟨.plain, ?_⟩
    rintro (digits | digits)
    · exact digits
    · exact absurd rfl (unsigned _)

theorem Numeral.no_bracket {cs : List Char} {n : Nat} (h : Numeral cs n) : ']' ∉ cs := by
  have apart : ∀ {cs : List Char} {n : Nat}, Digits cs n → ']' ∉ cs := fun digits mem => by
    cases digits.digits ']' mem
  cases h with
  | plain digits => exact apart digits
  | signed digits =>
      rw [List.mem_cons, not_or]
      exact ⟨by decide, apart digits⟩

/-! ## Groups -/

/-- A group ends at the first closing bracket. -/
theorem indexes?_closed {inside : List Char} (free : ']' ∉ inside) (read later : List Char) :
    indexes? (some read) (inside ++ ']' :: later) =
      (index? (read.reverse ++ inside)).bind fun n => (indexes? none later).map (n :: ·) := by
  induction inside generalizing read with
  | nil =>
      rw [List.nil_append, List.append_nil, indexes?, if_pos rfl]
      cases index? read.reverse <;> cases indexes? none later <;> rfl
  | cons c inside ih =>
      obtain ⟨other, rest⟩ := not_or.mp (mt List.mem_cons.mpr free)
      rw [List.cons_append, indexes?, if_neg (Ne.symm other), ih rest, List.reverse_cons,
        List.append_assoc, List.singleton_append]

theorem indexes?_unclosed {cs : List Char} (free : ']' ∉ cs) (read : List Char) :
    indexes? (some read) cs = none := by
  induction cs generalizing read with
  | nil => rfl
  | cons c cs ih =>
      obtain ⟨other, rest⟩ := not_or.mp (mt List.mem_cons.mpr free)
      rw [indexes?, if_neg (Ne.symm other), ih rest]

/-- Outside of a group only another one can begin. -/
theorem indexes?_outside {c : Char} (other : c ≠ '[') (cs : List Char) :
    indexes? none (c :: cs) = none := by
  rw [indexes?, if_neg other]

theorem indexes?_group {inside : List Char} (free : ']' ∉ inside) (later : List Char) :
    indexes? none ('[' :: (inside ++ ']' :: later)) =
      (index? inside).bind fun n => (indexes? none later).map (n :: ·) := by
  rw [indexes?, if_pos rfl, indexes?_closed free, List.reverse_nil, List.nil_append]

theorem indexes?_eq_some {cs : List Char} {indexes : List Nat} :
    indexes? none cs = some indexes ↔ Groups cs indexes := by
  constructor
  · intro read
    induction indexes generalizing cs with
    | nil =>
        cases cs with
        | nil => exact .done
        | cons c cs =>
            by_cases opening : c = '['
            · rw [indexes?, if_pos opening] at read
              exact absurd read (indexes?_inside_ne_nil [] cs)
            · rw [indexes?_outside opening] at read
              cases read
    | cons n more ih =>
        cases cs with
        | nil => cases read
        | cons c cs =>
            by_cases opening : c = '['
            · subst opening
              by_cases closed : ']' ∈ cs
              · obtain ⟨inside, later, rfl, free⟩ := List.eq_append_cons_of_mem closed
                rw [indexes?_group free] at read
                obtain ⟨k, number, rest⟩ := Option.bind_eq_some_iff.mp read
                obtain ⟨_, found, same⟩ := Option.map_eq_some_iff.mp rest
                cases same
                exact .group (index?_eq_some.mp number) (ih found)
              · rw [indexes?, if_pos rfl, indexes?_unclosed closed] at read
                cases read
            · rw [indexes?_outside opening] at read
              cases read
  · intro groups
    induction groups with
    | done => rfl
    | group number _ ih =>
        rw [indexes?_group number.no_bracket, index?_eq_some.mpr number, ih]
        rfl

/-! ## Parts and paths -/

/-- Nothing is left, or brackets begin here. -/
def AtBracket (rest : List Char) : Prop := ∀ c ∈ rest.head?, c = '['

theorem Groups.atBracket {cs : List Char} {indexes : List Nat} (read : Groups cs indexes) :
    AtBracket cs := by
  cases read <;> simp [AtBracket]

theorem part?_eq {key groups : List Char} (free : '[' ∉ key) (start : AtBracket groups) :
    part? (key ++ groups) = (indexes? none groups).map fun indexes =>
      (if key = [] then [] else [.key (String.ofList key)]) ++ indexes.map .index := by
  have all : ∀ c ∈ key, (c != '[') = true := fun c mem =>
    bne_iff_ne.mpr fun same => free (same ▸ mem)
  have cut : groups.takeWhile (· != '[') = [] ∧ groups.dropWhile (· != '[') = groups := by
    cases groups with
    | nil => exact ⟨rfl, rfl⟩
    | cons c groups =>
        obtain rfl : c = '[' := start c rfl
        exact ⟨rfl, rfl⟩
  unfold part?
  rw [List.takeWhile_append_of_pos all, List.dropWhile_append_of_pos all, cut.1, cut.2,
    List.append_nil]

/-- A part is cut before its first opening bracket. -/
theorem exists_key (cs : List Char) :
    ∃ key groups, cs = key ++ groups ∧ '[' ∉ key ∧ AtBracket groups := by
  refine ⟨cs.takeWhile (· != '['), cs.dropWhile (· != '['), ?_, ?_, ?_⟩
  · exact (List.takeWhile_append_dropWhile).symm
  · intro mem
    simpa using List.mem_takeWhile_imp mem
  · intro c first
    have stopped := List.head?_dropWhile_not (· != '[') cs
    rw [Option.mem_def.mp first] at stopped
    simpa using stopped

theorem part?_eq_some {cs : List Char} {steps : List Step} :
    part? cs = some steps ↔ Part cs steps := by
  constructor
  · obtain ⟨key, groups, rfl, free, start⟩ := exists_key cs
    intro read
    rw [part?_eq free start] at read
    obtain ⟨indexes, found, rfl⟩ := Option.map_eq_some_iff.mp read
    by_cases given : key = []
    · subst given
      exact .keyless (indexes?_eq_some.mp found)
    · rw [if_neg given]
      exact .keyed given free (indexes?_eq_some.mp found)
  · rintro (⟨given, free, read⟩ | read)
    · rw [part?_eq free read.atBracket, indexes?_eq_some.mpr read, Option.map_some, if_neg given]
      rfl
    · rw [← List.nil_append cs, part?_eq List.not_mem_nil read.atBracket, indexes?_eq_some.mpr read]
      rfl

theorem parts_eq (cs : List Char) : parts cs = cs.splitOn '.' := by
  induction cs with
  | nil => rfl
  | cons c cs ih =>
      rw [parts, ih]
      exact (Text.splitOn_point_cons c cs).symm

theorem steps?_eq_some {ps : List (List Char)} {steps : List Step} :
    steps? ps = some steps ↔ ∃ each, List.Forall₂ Part ps each ∧ steps = each.flatten := by
  induction ps generalizing steps with
  | nil => simp [steps?, eq_comm]
  | cons part ps ih =>
      constructor
      · intro read
        rw [steps?] at read
        split at read
        · rename_i first more here later
          cases read
          obtain ⟨each, parts, rfl⟩ := ih.mp later
          exact ⟨first :: each, .cons (part?_eq_some.mp here) parts, rfl⟩
        · cases read
      · rintro ⟨each, read, rfl⟩
        cases read with
        | cons here later =>
            rw [steps?, part?_eq_some.mpr here, ih.mpr ⟨_, later, rfl⟩]
            rfl

theorem parse?_eq_some {path : String} {steps : List Step} :
    parse? path = some steps ↔
      ∃ each, List.Forall₂ Part (path.toList.splitOn '.') each ∧ steps = each.flatten := by
  rw [parse?, parts_eq]
  exact steps?_eq_some

/-- Whether a path is read is a question about each of its parts alone. -/
theorem exists_parse?_iff {path : String} :
    (∃ steps, parse? path = some steps) ↔
      ∀ part ∈ path.toList.splitOn '.', ∃ steps, Part part steps := by
  rw [parse?, parts_eq]
  induction path.toList.splitOn '.' with
  | nil => simp [steps?]
  | cons part more ih =>
      rw [List.forall_mem_cons, ← ih, steps?]
      constructor
      · rintro ⟨steps, read⟩
        split at read
        · rename_i first _ here later
          exact ⟨⟨first, part?_eq_some.mp here⟩, ⟨_, later⟩⟩
        · cases read
      · rintro ⟨⟨first, here⟩, ⟨rest, later⟩⟩
        rw [part?_eq_some.mpr here, later]
        exact ⟨_, rfl⟩

end TieredUdf.Document.Path
