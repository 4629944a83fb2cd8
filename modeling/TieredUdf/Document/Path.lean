import TieredUdf.Numeric.Range

/-!
# Field paths

A path such as `a.b[2].c` names a node of a document by object keys and array indexes.  Its
parts are separated by points; a part is a key, which may be empty, followed by indexes in
brackets.  An empty key stands for no step at all.
-/

namespace TieredUdf.Document

/-- One step from a node to one of its children. -/
inductive Step where
  | key (name : String)
  | index (i : Nat)
  deriving DecidableEq, Repr, Inhabited

namespace Path

/-- The parts between the points; a text without a point is one part. -/
def parts : List Char → List (List Char)
  | [] => [[]]
  | c :: rest =>
      if c = '.' then [] :: parts rest
      else match parts rest with
        | [] => [[c]]
        | part :: more => (c :: part) :: more

def digits? : Nat → List Char → Option Nat
  | n, [] => some n
  | n, c :: rest =>
      if c.isDigit then digits? (n * 10 + (c.toNat - 48)) rest else none

/-- An index: at least one digit, perhaps a plus sign before them, and a value below `2 ^ 64`. -/
def index? (cs : List Char) : Option Nat :=
  let digits := match cs with
    | '+' :: rest => rest
    | cs => cs
  if digits = [] then none
  else match digits? 0 digits with
    | some n => if Numeric.fitsWord64 n then some n else none
    | none => none

/-- The indexes of groups in brackets up to the end of a part.  Inside of a group the first
argument holds what was read of it, last character first. -/
def indexes? : Option (List Char) → List Char → Option (List Nat)
  | none, [] => some []
  | some _, [] => none
  | none, c :: rest => if c = '[' then indexes? (some []) rest else none
  | some read, c :: rest =>
      if c = ']' then
        match index? read.reverse, indexes? none rest with
        | some n, some more => some (n :: more)
        | _, _ => none
      else indexes? (some (c :: read)) rest

def part? (cs : List Char) : Option (List Step) :=
  let key := cs.takeWhile (· != '[')
  (indexes? none (cs.dropWhile (· != '['))).map fun indexes =>
    (if key = [] then [] else [.key (String.ofList key)]) ++ indexes.map .index

def steps? : List (List Char) → Option (List Step)
  | [] => some []
  | part :: rest =>
      match part? part, steps? rest with
      | some steps, some more => some (steps ++ more)
      | _, _ => none

/-- The steps of a path; `none` when its brackets are malformed. -/
def parse? (path : String) : Option (List Step) := steps? (parts path.toList)

end Path

end TieredUdf.Document
