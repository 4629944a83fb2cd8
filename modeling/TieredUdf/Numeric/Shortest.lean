import TieredUdf.Numeric.Double

/-!
# Shortest decimal text

The shortest decimal of a finite binary number is the decimal with the fewest digits among those
that read back as the number, and of those the nearest.  The search tests the two neighbours of
the number on the grids of 1, 2, … digits in exact integer arithmetic.  A `DecimalLayout` then
says how the digits are written.
-/

namespace TieredUdf.Numeric

structure Decimal where
  digits : Nat
  exponent : Int
  deriving DecidableEq, Repr

/-- Which neighbour wins when both are equally near. -/
inductive Tie where
  | up
  | even
  deriving DecidableEq, Repr

/-- The reals that read back as a number, around the number itself, over one denominator.  The
two ends belong to it when `closed` holds. -/
structure ReadBack where
  low : Nat
  value : Nat
  high : Nat
  den : Nat
  closed : Bool

namespace ReadBack

/-- The interval of `mantissa * 2 ^ exponent`.  Below the smallest mantissa of a binade the next
number is only half as far away. -/
def ofFinite (f : BinaryFormat) (mantissa : Nat) (exponent : Int) : ReadBack :=
  let below := if mantissa = f.hidden ∧ f.minExponent < exponent then 1 else 2
  let (scale, den) := Decoded.ratio 1 exponent
  { low := (4 * mantissa - below) * scale
    value := 4 * mantissa * scale
    high := (4 * mantissa + 2) * scale
    den := 4 * den
    closed := mantissa % 2 = 0 }

def inUnits (r : ReadBack) (exponent : Int) : ReadBack :=
  match exponent with
  | .ofNat e => { r with den := r.den * powerOfTen e }
  | .negSucc e =>
      let scale := powerOfTen (e + 1)
      { r with low := r.low * scale, value := r.value * scale, high := r.high * scale }

def contains (r : ReadBack) (n : Nat) : Bool :=
  let scaled := n * r.den
  if r.closed then decide (r.low ≤ scaled ∧ scaled ≤ r.high)
  else decide (r.low < scaled ∧ scaled < r.high)

/-- The neighbouring integer of the value that reads back, the nearer one of two. -/
def nearestInside? (tie : Tie) (r : ReadBack) : Option Nat :=
  let floor := r.value / r.den
  let twice := 2 * (r.value % r.den)
  match r.contains floor && floor != 0, r.contains (floor + 1) with
  | true, false => some floor
  | false, true => some (floor + 1)
  | false, false => none
  | true, true =>
      if twice < r.den then some floor
      else if r.den < twice then some (floor + 1)
      else match tie with
        | .up => some (floor + 1)
        | .even => some (floor + floor % 2)

end ReadBack

def powerOfTenLe (exponent : Int) (num den : Nat) : Bool :=
  match exponent with
  | .ofNat e => decide (powerOfTen e * den ≤ num)
  | .negSucc e => decide (den ≤ num * powerOfTen (e + 1))

/-- The greatest `e` with `10 ^ e ≤ num / den`.  The binary logarithms leave three candidates. -/
def decimalMagnitude (num den : Nat) : Int :=
  let binary : Int := (Nat.log2 num : Int) - Nat.log2 den - 1
  let least := (binary * 30103 - 100) / 100000
  if powerOfTenLe (least + 2) num den then least + 2
  else if powerOfTenLe (least + 1) num den then least + 1
  else least

namespace Decimal

/-- Take trailing zeros off the digits; `fuel` bounds their number. -/
def trim : Nat → Decimal → Decimal
  | 0, d => d
  | fuel + 1, d =>
      if d.digits % 10 = 0 ∧ d.digits ≠ 0 then trim fuel ⟨d.digits / 10, d.exponent + 1⟩ else d

/-- Try the grids from the coarsest one on, each ten times as fine as the one before. -/
def search (tie : Tie) (r : ReadBack) : Nat → Int → Decimal
  | 0, exponent => ⟨(r.inUnits exponent).value / (r.inUnits exponent).den, exponent⟩
  | fuel + 1, exponent =>
      match (r.inUnits exponent).nearestInside? tie with
      | some n => trim 20 ⟨n, exponent⟩
      | none => search tie r fuel (exponent - 1)

/-- The shortest decimal of the positive number `mantissa * 2 ^ exponent`. -/
def shortest (f : BinaryFormat) (tie : Tie) (mantissa : Nat) (exponent : Int) : Decimal :=
  let r := ReadBack.ofFinite f mantissa exponent
  search tie r 17 (decimalMagnitude r.value r.den)

def text (d : Decimal) : List Char := Nat.toDigits 10 d.digits

/-- The power of ten of the first digit. -/
def magnitude (d : Decimal) : Int := d.exponent + d.text.length - 1

/-- Digits and zeros around a point; no point after an integer. -/
def positional (d : Decimal) : List Char :=
  match d.exponent with
  | .ofNat e => d.text ++ List.replicate e '0'
  | .negSucc e =>
      let places := e + 1
      let whole := d.text.length - places
      if places < d.text.length then d.text.take whole ++ '.' :: d.text.drop whole
      else '0' :: '.' :: (List.replicate (places - d.text.length) '0' ++ d.text)

/-- One digit before the point, and the power of ten with its sign. -/
def scientific (d : Decimal) : List Char :=
  let mantissa := match d.text with
    | [] => []
    | [c] => [c]
    | c :: rest => c :: '.' :: rest
  let sign := if d.magnitude < 0 then '-' else '+'
  mantissa ++ 'e' :: sign :: Nat.toDigits 10 d.magnitude.natAbs

end Decimal

structure DecimalLayout where
  tie : Tie
  /-- Powers of ten of the first digit that are written without an exponent; `none` is all. -/
  positionalRange : Option (Int × Int)
  /-- Whether an integer keeps a `.0`. -/
  keepsPoint : Bool

namespace DecimalLayout

/-- Readable text: never an exponent, no point after an integer. -/
def plain : DecimalLayout := ⟨.up, none, false⟩

/-- Interchange text of a 64-bit number: an exponent below `1e-5` and from `1e16` on. -/
def interchange : DecimalLayout := ⟨.even, some (-5, 15), true⟩

/-- Interchange text of a 32-bit number: an exponent below `1e-5` and from `1e13` on. -/
def interchangeSingle : DecimalLayout := ⟨.even, some (-5, 12), true⟩

def isPositional (l : DecimalLayout) (magnitude : Int) : Bool :=
  match l.positionalRange with
  | none => true
  | some (least, greatest) => decide (least ≤ magnitude ∧ magnitude ≤ greatest)

def magnitudeText (l : DecimalLayout) (f : BinaryFormat) (mantissa : Nat) (exponent : Int) :
    List Char :=
  if mantissa = 0 then if l.keepsPoint then ['0', '.', '0'] else ['0']
  else
    let d := Decimal.shortest f l.tie mantissa exponent
    if l.isPositional d.magnitude then
      if l.keepsPoint && decide (0 ≤ d.exponent) then d.positional ++ ['.', '0']
      else d.positional
    else d.scientific

def render? (l : DecimalLayout) (f : BinaryFormat) : Decoded → Option String
  | .finite negative mantissa exponent =>
      let digits := l.magnitudeText f mantissa exponent
      some (String.ofList (if negative then '-' :: digits else digits))
  | _ => none

end DecimalLayout

def plainText (f : BinaryFormat) (x : Decoded) : String :=
  match x with
  | .nan => "NaN"
  | .infinite false => "inf"
  | .infinite true => "-inf"
  | x => (DecimalLayout.plain.render? f x).getD ""

namespace Double

def text (x : Double) : String := plainText .double x.decode

def interchange? (x : Double) : Option String :=
  DecimalLayout.interchange.render? .double x.decode

end Double

namespace Single

def text (x : Single) : String := plainText .single x.decode

def interchange? (x : Single) : Option String :=
  DecimalLayout.interchangeSingle.render? .single x.decode

end Single

end TieredUdf.Numeric
