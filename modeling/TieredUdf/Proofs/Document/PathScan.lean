import TieredUdf.Proofs.Document.PathGrammar

/-! # Scanning field paths

The brackets of a part are read by a loop that searches the next closing bracket, reads what stands
before it and cuts the part behind it.  Every round takes one closing bracket away, and only cuts
beside brackets, which have one byte.  So the loop ends, every cut is inside of the part, and the
scan reads the steps of the path.
-/

namespace TieredUdf.Document.Path

/-- How a scan ends.  A slice that is out of range and a loop that goes on are told apart from
malformed brackets. -/
inductive Outcome (α : Type) where
  | read (a : α)
  | malformed
  | outOfRange
  | unfinished
  deriving DecidableEq, Repr

namespace Outcome

variable {α β : Type}

def bind : Outcome α → (α → Outcome β) → Outcome β
  | read a, next => next a
  | malformed, _ => malformed
  | outOfRange, _ => outOfRange
  | unfinished, _ => unfinished

instance : Monad Outcome where
  pure := read
  bind := bind

def found : Option α → Outcome α
  | some a => read a
  | none => malformed

def sliced : Option α → Outcome α
  | some a => read a
  | none => outOfRange

@[simp]
theorem read_bind (a : α) (next : α → Outcome β) : (read a >>= next) = next a := rfl

end Outcome

/-! ## The scan -/

/-- One round of the loop: the index in the first group and what stands behind the group. -/
def round (rest : List Char) : Outcome (Nat × List Char) := do
  let close ← .found (Text.position? ']' rest)
  let inside ← .sliced (Text.slice? 1 close rest)
  let n ← .found (index? inside)
  let (_, later) ← .sliced (Text.cut? (close + 1) rest)
  if later ≠ [] ∧ later.head? ≠ some '[' then .malformed else .read (n, later)

/-- The indexes that the loop reads in so many rounds. -/
def scanIndexes (rounds : Nat) (rest : List Char) : Outcome (List Nat) :=
  if rest = [] then .read []
  else match rounds with
    | 0 => .unfinished
    | rounds + 1 => do
        let (n, later) ← round rest
        let more ← scanIndexes rounds later
        .read (n :: more)

/-- The key at the front of a part and what stands behind it. -/
def scanKey (part : List Char) : Outcome (List Char × List Char) :=
  match Text.position? '[' part with
  | some opening => .sliced (Text.cut? opening part)
  | none => .read (part, [])

def scanPart (rounds : Nat) (part : List Char) : Outcome (List Step) := do
  let (key, rest) ← scanKey part
  let indexes ← scanIndexes rounds rest
  .read ((if key = [] then [] else [.key (String.ofList key)]) ++ indexes.map .index)

def scanParts (rounds : Nat) : List (List Char) → Outcome (List Step)
  | [] => .read []
  | part :: rest => do
      let steps ← scanPart rounds part
      let more ← scanParts rounds rest
      .read (steps ++ more)

/-- The scan of a path, with so many rounds for the loop in each of its parts. -/
def scan (rounds : Nat) (path : String) : Outcome (List Step) :=
  scanParts rounds (path.toList.splitOn '.')

/-! ## Rounds -/

theorem atBracket_iff {rest : List Char} : AtBracket rest ↔ rest = [] ∨ rest.head? = some '[' := by
  cases rest <;> simp [AtBracket]

theorem indexes?_of_not_atBracket {rest : List Char} (h : ¬ AtBracket rest) :
    indexes? none rest = none := by
  cases rest with
  | nil => exact absurd nofun h
  | cons c rest => exact indexes?_outside (fun opening => h (by simp [AtBracket, opening])) rest

theorem round_unclosed {rest : List Char} (h : ']' ∉ rest) : round rest = .malformed := by
  rw [round, Text.position?_of_not_mem h]
  rfl

theorem round_group {inside : List Char} (free : ']' ∉ inside) (later : List Char) :
    round ('[' :: (inside ++ ']' :: later)) = (do
      let n ← .found (index? inside)
      if later ≠ [] ∧ later.head? ≠ some '[' then .malformed else .read (n, later)) := by
  have close : Text.position? ']' ('[' :: (inside ++ ']' :: later)) =
      some (Text.width ('[' :: inside)) :=
    Text.position?_append (List.not_mem_cons_of_ne_of_not_mem (by decide) free) later
  have slice : Text.slice? 1 (Text.width ('[' :: inside)) ('[' :: (inside ++ ']' :: later)) =
      some inside :=
    Text.slice?_append ['['] inside (']' :: later)
  have behind : Text.cut? (Text.width ('[' :: inside) + 1) ('[' :: (inside ++ ']' :: later)) =
      some ('[' :: inside ++ [']'], later) := by
    have last : Text.width ('[' :: inside) + 1 = Text.width ('[' :: inside ++ [']']) :=
      (Text.width_append _ [']']).symm
    rw [last, ← Text.cut?_append, List.append_assoc]
    rfl
  rw [round, close]
  dsimp only [Outcome.found]
  rw [Outcome.read_bind, slice]
  dsimp only [Outcome.sliced]
  rw [Outcome.read_bind, behind]
  rfl

/-- A round either refuses what reading refuses, or it takes one group away and stops at the next
one. -/
theorem round_cases {rest : List Char} (start : AtBracket rest) (given : rest ≠ []) :
    round rest = .malformed ∧ indexes? none rest = none ∨
      ∃ n later, round rest = .read (n, later) ∧ AtBracket later ∧
        rest.count ']' = later.count ']' + 1 ∧
        indexes? none rest = (indexes? none later).map (n :: ·) := by
  obtain ⟨c, behind, rfl⟩ := List.exists_cons_of_ne_nil given
  obtain rfl : c = '[' := start c rfl
  by_cases closed : ']' ∈ behind
  · obtain ⟨inside, later, rfl, free⟩ := List.eq_append_cons_of_mem closed
    rw [round_group free, indexes?_group free]
    cases number : index? inside with
    | none => exact .inl ⟨rfl, rfl⟩
    | some n =>
        by_cases next : AtBracket later
        · refine .inr ⟨n, later, ?_, next, ?_, rfl⟩
          · exact if_neg (by rw [not_and_or, not_not, not_not]; exact atBracket_iff.mp next)
          · simp [List.count_eq_zero_of_not_mem free]
        · refine .inl ⟨?_, ?_⟩
          · exact if_pos (not_or.mp (mt atBracket_iff.mpr next))
          · rw [Option.bind_some, indexes?_of_not_atBracket next, Option.map_none]
  · refine .inl ⟨?_, ?_⟩
    · exact round_unclosed (List.not_mem_cons_of_ne_of_not_mem (by decide) closed)
    · rw [indexes?, if_pos rfl, indexes?_unclosed closed]

/-- The loop reads the groups, and it has ended when there were more rounds than closing
brackets. -/
theorem scanIndexes_eq {rounds : Nat} {rest : List Char} (start : AtBracket rest)
    (enough : rest.count ']' < rounds) :
    scanIndexes rounds rest = .found (indexes? none rest) := by
  induction rounds generalizing rest with
  | zero => exact absurd enough (Nat.not_lt_zero _)
  | succ rounds ih =>
      by_cases given : rest = []
      · subst given
        rfl
      · rw [scanIndexes, if_neg given]
        obtain ⟨refused, none⟩ | ⟨n, later, taken, next, fewer, more⟩ := round_cases start given
        · rw [refused, none]
          rfl
        · dsimp only
          rw [taken, more, Outcome.read_bind, ih next (by omega)]
          cases indexes? none later <;> rfl

/-! ## Parts and paths -/

theorem scanKey_append {key groups : List Char} (free : '[' ∉ key) (start : AtBracket groups) :
    scanKey (key ++ groups) = .read (key, groups) := by
  unfold scanKey
  cases groups with
  | nil => rw [List.append_nil, Text.position?_of_not_mem free]
  | cons c groups =>
      obtain rfl : c = '[' := start c rfl
      rw [Text.position?_append free]
      dsimp only
      rw [Text.cut?_append]
      rfl

theorem scanPart_eq {rounds : Nat} {part : List Char} (enough : part.count ']' < rounds) :
    scanPart rounds part = .found (part? part) := by
  obtain ⟨key, groups, rfl, free, start⟩ := exists_key part
  rw [List.count_append] at enough
  rw [scanPart, part?_eq free start, scanKey_append free start, Outcome.read_bind]
  dsimp only
  rw [scanIndexes_eq start (by omega)]
  cases indexes? none groups <;> rfl

theorem scanParts_eq {rounds : Nat} {parts : List (List Char)}
    (enough : ∀ part ∈ parts, part.count ']' < rounds) :
    scanParts rounds parts = .found (steps? parts) := by
  induction parts with
  | nil => rfl
  | cons part more ih =>
      obtain ⟨here, later⟩ := List.forall_mem_cons.mp enough
      rw [scanParts, scanPart_eq here, ih later, steps?]
      cases part? part <;> cases steps? more <;> rfl

theorem count_le_of_mem_parts (c : Char) {part cs : List Char} (mem : part ∈ parts cs) :
    part.count c ≤ cs.count c := by
  induction cs generalizing part with
  | nil =>
      rw [parts, List.mem_singleton] at mem
      rw [mem]
  | cons d cs ih =>
      have later : cs.count c ≤ (d :: cs).count c := by
        rw [List.count_cons]
        omega
      rw [parts] at mem
      split at mem
      · obtain rfl | mem := List.mem_cons.mp mem
        · simp
        · exact (ih mem).trans later
      · split at mem
        · rename_i none
          rw [parts_eq] at none
          exact absurd none (List.splitOn_ne_nil _ _)
        · rename_i first more split
          rw [split] at ih
          obtain rfl | mem := List.mem_cons.mp mem
          · rw [List.count_cons, List.count_cons]
            exact Nat.add_le_add_right (ih List.mem_cons_self) _
          · exact (ih (List.mem_cons_of_mem _ mem)).trans later

/-- The steps that a path is read as are told by the grammar of its parts, it is read exactly if
each of them has that form, and the scan of it ends within a round more than the path has closing
brackets, without a slice out of range, with what is read. -/
theorem parse?_exactly (path : String) :
    (∀ steps, parse? path = some steps ↔
      ∃ each, List.Forall₂ Part (path.toList.splitOn '.') each ∧ steps = each.flatten) ∧
    ((∃ steps, parse? path = some steps) ↔
      ∀ part ∈ path.toList.splitOn '.', ∃ steps, Part part steps) ∧
    ∀ rounds, path.toList.count ']' < rounds → scan rounds path = .found (parse? path) := by
  refine ⟨fun _ => parse?_eq_some, exists_parse?_iff, fun rounds enough => ?_⟩
  rw [scan, parse?, ← parts_eq]
  exact scanParts_eq fun part mem => (count_le_of_mem_parts ']' mem).trans_lt enough

example : parse? "é[+007][1].[2]..b" = some [.key "é", .index 7, .index 1, .index 2, .key "b"] := by
  decide

example : scan 2 "a[1]b" = .malformed := by decide

end TieredUdf.Document.Path
