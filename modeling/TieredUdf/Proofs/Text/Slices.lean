import Mathlib.Data.List.Basic

/-! # Byte positions and slices

A text is cut at byte positions.  The position of a character that was found lies between two
characters, and so does the one after a character of one byte, so a text can be cut there.
-/

namespace TieredUdf.Text

def width (cs : List Char) : Nat := (String.ofList cs).utf8ByteSize

@[simp]
theorem width_nil : width [] = 0 := rfl

@[simp]
theorem width_cons (c : Char) (cs : List Char) : width (c :: cs) = c.utf8Size + width cs := by
  rw [width, String.ofList_cons, String.utf8ByteSize_append, String.utf8ByteSize_singleton, width]

@[simp]
theorem width_append (front back : List Char) :
    width (front ++ back) = width front + width back := by
  rw [width, String.ofList_append, String.utf8ByteSize_append, width, width]

def position? (c : Char) : List Char → Option Nat
  | [] => none
  | d :: cs => if d = c then some 0 else (position? c cs).map (d.utf8Size + ·)

/-- What stands before and after a byte position; `none` for one past the end or inside of a
character. -/
def cut? : Nat → List Char → Option (List Char × List Char)
  | 0, cs => some ([], cs)
  | _ + 1, [] => none
  | n + 1, c :: cs =>
      if c.utf8Size ≤ n + 1 then (cut? (n + 1 - c.utf8Size) cs).map fun (front, back) =>
        (c :: front, back)
      else none

def slice? (first last : Nat) (cs : List Char) : Option (List Char) := do
  let (front, _) ← cut? last cs
  let (_, inside) ← cut? first front
  return inside

theorem position?_of_not_mem {c : Char} {cs : List Char} (h : c ∉ cs) :
    position? c cs = none := by
  induction cs with
  | nil => rfl
  | cons d cs ih =>
      obtain ⟨other, rest⟩ := not_or.mp (mt List.mem_cons.mpr h)
      rw [position?, if_neg (Ne.symm other), ih rest, Option.map_none]

theorem position?_append {c : Char} {front : List Char} (h : c ∉ front) (back : List Char) :
    position? c (front ++ c :: back) = some (width front) := by
  induction front with
  | nil => exact if_pos rfl
  | cons d front ih =>
      obtain ⟨other, rest⟩ := not_or.mp (mt List.mem_cons.mpr h)
      rw [List.cons_append, position?, if_neg (Ne.symm other), ih rest, Option.map_some, width_cons]

theorem cut?_append (front back : List Char) :
    cut? (width front) (front ++ back) = some (front, back) := by
  induction front with
  | nil => simp [cut?]
  | cons c front ih =>
      obtain ⟨n, size⟩ := Nat.exists_eq_add_of_lt c.utf8Size_pos
      have later : c.utf8Size + width front = n + width front + 1 := by omega
      rw [width_cons, List.cons_append, later, cut?, ← later, if_pos (by omega),
        Nat.add_sub_cancel_left, ih, Option.map_some]

theorem slice?_append (front inside back : List Char) :
    slice? (width front) (width (front ++ inside)) (front ++ inside ++ back) = some inside := by
  rw [slice?, cut?_append]
  dsimp only [Option.bind_eq_bind, Option.bind_some]
  rw [cut?_append]
  rfl

/-! ## Parts between points -/

theorem splitOn_point_cons (c : Char) (cs : List Char) :
    (c :: cs).splitOn '.' =
      if c = '.' then [] :: cs.splitOn '.'
      else match cs.splitOn '.' with
        | [] => [[c]]
        | first :: more => (c :: first) :: more := by
  rw [List.splitOn_eq_splitOnP, List.splitOnP_cons_eq_if_modifyHead, List.splitOn_eq_splitOnP]
  by_cases point : c = '.'
  · simp [point]
  · cases split : cs.splitOnP (· == '.') with
    | nil => exact absurd split (List.splitOnP_ne_nil _ _)
    | cons first more => simp [point]

end TieredUdf.Text
