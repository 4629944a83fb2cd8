import TieredUdf.Json.Token
import TieredUdf.Toml.Basic

/-!
# Numbers, dates and times

The text of a number, date or time is cut out first and then read as a whole.  Underscores may
stand between two digits.
-/

namespace TieredUdf.Toml

open Numeric (Double)

/-! ### Digits -/

def digit? (base : Nat) (c : Char) : Option Nat :=
  let value :=
    if c.isDigit then some (c.toNat - 48)
    else if 'a' ≤ c ∧ c ≤ 'f' then some (c.toNat - 87)
    else if 'A' ≤ c ∧ c ≤ 'F' then some (c.toNat - 55)
    else none
  value.filter (· < base)

/-- Digits without the underscores between them; `afterDigit` tells whether one came before. -/
def stripUnderscores? (base : Nat) : Bool → List Char → Option (List Char)
  | afterDigit, [] => if afterDigit then some [] else none
  | afterDigit, c :: rest =>
      if c = '_' then if afterDigit then stripUnderscores? base false rest else none
      else if (digit? base c).isSome then (stripUnderscores? base true rest).map (c :: ·)
      else none

def valueOf (base : Nat) (digits : List Char) : Nat :=
  digits.foldl (fun n c => n * base + (digit? base c).getD 0) 0

def inRange? (n : Int) : Option Toml :=
  if Numeric.fitsInt64 n then some (.integer n) else none

def decimalDigits? (cs : List Char) : Option (List Char) :=
  match stripUnderscores? 10 false cs with
  | some digits =>
      if digits.head? = some '0' ∧ digits.length ≠ 1 then none else some digits
  | none => none

def splitSign : List Char → Bool × List Char
  | '-' :: rest => (true, rest)
  | '+' :: rest => (false, rest)
  | cs => (false, cs)

/-- An integer: decimal with a sign, or to the base 16, 8 or 2 without one. -/
def integer? (cs : List Char) : Option Toml :=
  match cs with
  | '0' :: 'x' :: rest => (stripUnderscores? 16 false rest).bind fun ds => inRange? (valueOf 16 ds)
  | '0' :: 'o' :: rest => (stripUnderscores? 8 false rest).bind fun ds => inRange? (valueOf 8 ds)
  | '0' :: 'b' :: rest => (stripUnderscores? 2 false rest).bind fun ds => inRange? (valueOf 2 ds)
  | cs =>
      let (negative, digits) := splitSign cs
      (decimalDigits? digits).bind fun ds =>
        inRange? (if negative then -(valueOf 10 ds : Int) else valueOf 10 ds)

/-! ### Binary numbers -/

def exponent? (cs : List Char) : Option Int :=
  let (negative, digits) := splitSign cs
  (stripUnderscores? 10 false digits).map fun ds =>
    if negative then -(valueOf 10 ds : Int) else valueOf 10 ds

def isExponentMark (c : Char) : Bool := c == 'e' || c == 'E'

/-- A number with a fraction, an exponent or both. -/
def decimal? (cs : List Char) : Option Toml := do
  let (negative, cs) := splitSign cs
  let (mantissa, exponent) := cs.span fun c => !isExponentMark c
  let (whole, fraction) := mantissa.span (· != '.')
  let whole ← decimalDigits? whole
  let places ← match fraction with
    | [] => some []
    | _ :: digits => stripUnderscores? 10 false digits
  let power ← match exponent with
    | [] => if fraction = [] then none else some 0
    | _ :: rest => exponent? rest
  let x ← Numeric.nearestDecimal? negative (whole ++ places) (power - places.length)
  return .float x

def named? (cs : List Char) : Option Toml :=
  let (negative, name) := splitSign cs
  match name with
  | ['i', 'n', 'f'] => some (.float ⟨if negative then 0xfff0000000000000 else 0x7ff0000000000000⟩)
  | ['n', 'a', 'n'] => some (.float ⟨if negative then 0xfff8000000000000 else 0x7ff8000000000000⟩)
  | _ => none

/-! ### Dates and times -/

def twoDigits? : List Char → Option (Nat × List Char)
  | a :: b :: rest => if a.isDigit ∧ b.isDigit then some (valueOf 10 [a, b], rest) else none
  | _ => none

def after? (c : Char) : List Char → Option (List Char)
  | d :: rest => if d = c then some rest else none
  | [] => none

def isLeapYear (year : Nat) : Bool :=
  (year % 4 == 0 && year % 100 != 0) || year % 400 == 0

def daysOf (year month : Nat) : Nat :=
  if month = 2 then if isLeapYear year then 29 else 28
  else if month = 4 ∨ month = 6 ∨ month = 9 ∨ month = 11 then 30
  else 31

def date? (cs : List Char) : Option (List Char) := do
  let (century, rest) ← twoDigits? cs
  let (year, rest) ← twoDigits? rest
  let (month, rest) ← twoDigits? (← after? '-' rest)
  let (day, rest) ← twoDigits? (← after? '-' rest)
  if 1 ≤ month ∧ month ≤ 12 ∧ 1 ≤ day ∧ day ≤ daysOf (century * 100 + year) month then some rest
  else none

def time? (cs : List Char) : Option (List Char) := do
  let (hour, rest) ← twoDigits? cs
  let (minute, rest) ← twoDigits? (← after? ':' rest)
  let (second, rest) ← twoDigits? (← after? ':' rest)
  if hour ≤ 23 ∧ minute ≤ 59 ∧ second ≤ 60 then
    match rest with
    | '.' :: fraction =>
        if (fraction.takeWhile Char.isDigit) = [] then none
        else some (fraction.dropWhile Char.isDigit)
    | rest => some rest
  else none

/-- Whether a text is empty or an offset from universal time. -/
def isOffset (cs : List Char) : Bool :=
  match cs with
  | [] | ['Z'] | ['z'] => true
  | sign :: rest =>
      (sign == '+' || sign == '-') &&
        match twoDigits? rest with
        | some (hour, ':' :: rest) =>
            match twoDigits? rest with
            | some (minute, []) => decide (hour ≤ 23 ∧ minute ≤ 59)
            | _ => false
        | _ => false

/-- Whether a text is a date, a time, or both with a `T` or a blank between them. -/
def isDatetime (cs : List Char) : Bool :=
  match date? cs with
  | some [] => true
  | some (mark :: rest) =>
      (mark == 'T' || mark == 't' || mark == ' ') && (time? rest).any isOffset
  | none => time? cs == some []

/-! ### All of them -/

def scalar? (cs : List Char) : Option Toml :=
  match cs with
  | ['t', 'r', 'u', 'e'] => some (.boolean true)
  | ['f', 'a', 'l', 's', 'e'] => some (.boolean false)
  | cs =>
      (integer? cs).or <| (named? cs).or <| (decimal? cs).or <|
        if isDatetime cs then some .datetime else none

end TieredUdf.Toml
