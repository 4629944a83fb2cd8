import TieredUdf.Json.Token

/-!
# Numbers on a command line

A whole number has an optional sign and at least one digit.  A real number may also have a point,
with digits on at least one side of it, and a power of ten; the words for infinity and for no
number are read in any case.
-/

namespace TieredUdf.CommandLine

open Numeric (Double)

def splitSign : List Char → Bool × List Char
  | '-' :: rest => (true, rest)
  | '+' :: rest => (false, rest)
  | cs => (false, cs)

def digits? (cs : List Char) : Option Nat :=
  if cs ≠ [] ∧ cs.all Char.isDigit then some (Numeric.digitsValue cs) else none

/-- A number of 32 bits.  It may be negative as it is written, but not as it is meant. -/
def word32? (text : String) : Option Nat := do
  let (negative, cs) := splitSign text.toList
  let n ← digits? cs
  if n ≤ Numeric.maxWord32 ∧ (negative = true → n = 0) then some n else none

/-- A number of 64 bits, without a minus sign. -/
def word64? (text : String) : Option Nat := do
  let (negative, cs) := splitSign text.toList
  let n ← digits? cs
  if Numeric.fitsWord64 n ∧ negative = false then some n else none

def negated (negative : Bool) (x : Double) : Double := if negative then x.negate else x

/-- `± digits * 10 ^ exponent` as the nearest number. -/
def decimal (negative : Bool) (digits : List Char) (exponent : Int) : Double :=
  (Numeric.nearestDecimal? negative digits exponent).getD (negated negative .infinity)

def magnitude? (negative : Bool) (cs : List Char) : Option Double := do
  let (whole, rest) := Json.spanDigits cs
  let (places, rest) := match rest with
    | '.' :: rest => Json.spanDigits rest
    | rest => ([], rest)
  guard (whole ++ places ≠ [])
  let exponent ← Json.NumberText.exponent? rest
  return decimal negative (whole ++ places) (exponent.getD 0 - places.length)

def real? (text : String) : Option Double :=
  let (negative, cs) := splitSign text.toList
  match String.ofList (cs.map Char.toLower) with
  | "inf" | "infinity" => some (negated negative .infinity)
  | "nan" => some (negated negative ⟨0x7ff8000000000000⟩)
  | _ => magnitude? negative cs

end TieredUdf.CommandLine
