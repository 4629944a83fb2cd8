import TieredUdf.Numeric.Range

/-!
# Binary floating-point formats

A number of a binary format is held as its bits.  This module reads the bits as a sign, a
mantissa and an exponent, and rounds a ratio of natural numbers to the nearest number of a
format.  Both directions are exact integer arithmetic.
-/

namespace TieredUdf.Numeric

/-- A binary interchange format: `precision` mantissa digits (the implied one included) and
`exponentBits` bits of biased exponent. -/
structure BinaryFormat where
  precision : Nat
  exponentBits : Nat
  deriving DecidableEq, Repr

namespace BinaryFormat

def double : BinaryFormat := ⟨53, 11⟩

def single : BinaryFormat := ⟨24, 8⟩

/-- Weight of the hidden mantissa digit, and the distance of two exponents in the bits. -/
def hidden (f : BinaryFormat) : Nat := powerOfTwo (f.precision - 1)

def infinityBits (f : BinaryFormat) : Nat := (powerOfTwo f.exponentBits - 1) * f.hidden

def signBit (f : BinaryFormat) : Nat := powerOfTwo f.exponentBits * f.hidden

/-- Exponent of the last mantissa digit of the smallest numbers. -/
def minExponent (f : BinaryFormat) : Int :=
  3 - powerOfTwo (f.exponentBits - 1) - f.precision

end BinaryFormat

/-- What the bits of a number mean.  A finite number is `mantissa * 2 ^ exponent`, negated when
`negative` holds. -/
inductive Decoded where
  | nan
  | infinite (negative : Bool)
  | finite (negative : Bool) (mantissa : Nat) (exponent : Int)
  deriving DecidableEq, Repr

namespace BinaryFormat

def decode (f : BinaryFormat) (bits : Nat) : Decoded :=
  let negative := decide (f.signBit ≤ bits)
  let magnitude := bits % f.signBit
  let biased := magnitude / f.hidden
  let fraction := magnitude % f.hidden
  if f.infinityBits < magnitude then .nan
  else if f.infinityBits = magnitude then .infinite negative
  else if biased = 0 then .finite negative fraction f.minExponent
  else .finite negative (fraction + f.hidden) (f.minExponent + biased - 1)

def withSign (f : BinaryFormat) (negative : Bool) (magnitude : Nat) : Nat :=
  if negative then f.signBit + magnitude else magnitude

end BinaryFormat

/-- `num / den` rounded to the nearest natural number, a half to the even neighbour. -/
def roundHalfEven (num den : Nat) : Nat :=
  let quotient := num / den
  let twice := 2 * (num % den)
  if twice < den then quotient
  else if den < twice then quotient + 1
  else quotient + quotient % 2

def scaleDown (num den : Nat) (exponent : Int) : Nat × Nat :=
  match exponent with
  | .ofNat e => (num, den * powerOfTwo e)
  | .negSucc e => (num * powerOfTwo (e + 1), den)

namespace BinaryFormat

/-- The exponent of the last mantissa digit with which `num / den` is written: it leaves
`precision` digits before the point, or fewer at the bottom of the format. -/
def exponentFor (f : BinaryFormat) (num den : Nat) : Int :=
  let guess : Int := (Nat.log2 num : Int) - Nat.log2 den - (f.precision - 1 : Nat)
  let (n, d) := scaleDown num den guess
  let exact := if n < f.hidden * d then guess - 1 else guess
  max exact f.minExponent

/-- Bits of the magnitude nearest to `num / den`, a tie to the even mantissa.  What rounds past
the largest finite number is infinity. -/
def roundMagnitude (f : BinaryFormat) (num den : Nat) : Nat :=
  if num = 0 then 0
  else
    let exponent := f.exponentFor num den
    let (n, d) := scaleDown num den exponent
    let bits := roundHalfEven n d + (exponent - f.minExponent).toNat * f.hidden
    min bits f.infinityBits

/-- Bits of the number of the format nearest to `± num / den`. -/
def ofRatio (f : BinaryFormat) (negative : Bool) (num den : Nat) : Nat :=
  f.withSign negative (f.roundMagnitude num den)

def ofInt (f : BinaryFormat) (n : Int) : Nat :=
  f.ofRatio (decide (n < 0)) n.natAbs 1

end BinaryFormat

namespace Decoded

def ratio (mantissa : Nat) (exponent : Int) : Nat × Nat :=
  match exponent with
  | .ofNat e => (mantissa * powerOfTwo e, 1)
  | .negSucc e => (mantissa, powerOfTwo (e + 1))

def signed (negative : Bool) (n : Nat) : Int :=
  if negative then -(n : Int) else n

def toInt? : Decoded → Option Int
  | .finite negative mantissa exponent =>
      let (num, den) := ratio mantissa exponent
      if num % den = 0 then some (signed negative (num / den)) else none
  | _ => none

/-- A finite number without its fraction. -/
def truncate? : Decoded → Option Int
  | .finite negative mantissa exponent =>
      let (num, den) := ratio mantissa exponent
      some (signed negative (num / den))
  | _ => none

end Decoded

/-- The integer of `lo … hi` nearest to `n`. -/
def clampInt (lo hi n : Int) : Int := max lo (min hi n)

end TieredUdf.Numeric
