import TieredUdf.Numeric.Decimal

/-!
# Semantic versions

A version is three numbers, perhaps a pre-release after a hyphen and perhaps a build after a
plus sign.  Versions are ordered by the numbers, then by the pre-release, of which none at all
is the greatest, and last by the build.
-/

namespace TieredUdf

open Numeric (digitsValue)

/-- A semantic version; the identifiers of the last two parts stood between points. -/
structure Version where
  major : Nat
  minor : Nat
  patch : Nat
  preRelease : List (List Char)
  build : List (List Char)
  deriving DecidableEq, Repr, Inhabited

namespace Version

/-! ### Reading -/

def hasLeadingZero (digits : List Char) : Bool :=
  digits.head? == some '0' && decide (1 < digits.length)

/-- A number at the front: no leading zero, and below `2 ^ 64`. -/
def number? (cs : List Char) : Option (Nat × List Char) :=
  let (digits, rest) := cs.span Char.isDigit
  let n := digitsValue digits
  if digits = [] ∨ hasLeadingZero digits ∨ ¬Numeric.fitsWord64 n then none else some (n, rest)

def point? : List Char → Option (List Char)
  | '.' :: rest => some rest
  | _ => none

def splitPoints : List Char → List (List Char)
  | [] => [[]]
  | c :: rest =>
      if c = '.' then [] :: splitPoints rest
      else match splitPoints rest with
        | [] => [[c]]
        | first :: more => (c :: first) :: more

def isIdentifierChar (c : Char) : Bool := c.isAlphanum || c == '-'

def isNumeric (cs : List Char) : Bool := cs.all Char.isDigit

/-- Identifiers between points; none of them empty. -/
def identifiers? (cs : List Char) : Option (List (List Char)) :=
  let parts := splitPoints cs
  if parts.all fun p => !p.isEmpty && p.all isIdentifierChar then some parts else none

/-- The identifiers of a pre-release; a numeric one has no leading zero. -/
def preRelease? (cs : List Char) : Option (List (List Char)) := do
  let parts ← identifiers? cs
  if parts.any fun p => isNumeric p && hasLeadingZero p then none else some parts

def parse? (s : String) : Option Version := do
  let (major, rest) ← number? s.toList
  let (minor, rest) ← number? (← point? rest)
  let (patch, rest) ← number? (← point? rest)
  let (front, build) := rest.span (· != '+')
  let preRelease ← match front with
    | [] => some []
    | '-' :: cs => preRelease? cs
    | _ => none
  let build ← match build with
    | [] => some []
    | _ :: cs => identifiers? cs
  return ⟨major, minor, patch, preRelease, build⟩

/-! ### Order -/

/-- Order by code points. -/
def compareChars : List Char → List Char → Ordering
  | [], [] => .eq
  | [], _ :: _ => .lt
  | _ :: _, [] => .gt
  | a :: as, b :: bs => (compare a.toNat b.toNat).then (compareChars as bs)

/-- Order of two identifiers of a pre-release: numbers by value, below all other texts. -/
def comparePreRelease (a b : List Char) : Ordering :=
  match isNumeric a, isNumeric b with
  | true, true => (compare a.length b.length).then (compareChars a b)
  | true, false => .lt
  | false, true => .gt
  | false, false => compareChars a b

/-- Order of two identifiers of a build: numbers by value and then by length, below all other
texts. -/
def compareBuild (a b : List Char) : Ordering :=
  match isNumeric a, isNumeric b with
  | true, true =>
      let a' := a.dropWhile (· == '0')
      let b' := b.dropWhile (· == '0')
      (compare a'.length b'.length).then ((compareChars a' b').then (compare a.length b.length))
  | true, false => .lt
  | false, true => .gt
  | false, false => compareChars a b

/-- Order by the first difference; the longer list is the greater one when there is none. -/
def compareLists (item : List Char → List Char → Ordering) :
    List (List Char) → List (List Char) → Ordering
  | [], [] => .eq
  | [], _ :: _ => .lt
  | _ :: _, [] => .gt
  | a :: as, b :: bs => (item a b).then (compareLists item as bs)

/-- Order of pre-releases: having none is the greatest. -/
def comparePreReleases (a b : List (List Char)) : Ordering :=
  match a, b with
  | [], [] => .eq
  | [], _ :: _ => .gt
  | _ :: _, [] => .lt
  | a, b => compareLists comparePreRelease a b

def order (a b : Version) : Ordering :=
  (compare a.major b.major).then <| (compare a.minor b.minor).then <|
    (compare a.patch b.patch).then <| (comparePreReleases a.preRelease b.preRelease).then <|
    compareLists compareBuild a.build b.build

def le (a b : Version) : Bool := a.order b != .gt

end Version

end TieredUdf
