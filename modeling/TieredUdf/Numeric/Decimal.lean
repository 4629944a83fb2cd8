import TieredUdf.Numeric.Double

/-!
# Numbers of decimal texts

Most texts give the number nearest to their decimal.  JSON texts do not: the digits are collected
into a word of 64 bits, which is rounded, and then multiplied or divided by a rounded power of ten,
so the number may be rounded more than once.
-/

namespace TieredUdf.Numeric

def digitsValue (digits : List Char) : Nat :=
  digits.foldl (fun n c => n * 10 + (c.toNat - 48)) 0

theorem digitsValue_eq (digits : List Char) : digitsValue digits = Nat.ofDigitChars 10 digits 0 := by
  rw [Nat.ofDigitChars_eq_foldl, digitsValue]
  simp only [Nat.mul_comm]
  rfl

/-- `± digits * 10 ^ exponent` as the nearest number; `none` when that is infinite.  Powers far
outside the range of the format are not computed. -/
def nearestDecimal? (negative : Bool) (digits : List Char) (exponent : Int) : Option Double :=
  let significand := digitsValue digits
  if significand = 0 then some (.ofRatio negative 0 1)
  else if 400 < exponent then none
  else if exponent + digits.length < -400 then some (.ofRatio negative 0 1)
  else
    let x := match exponent with
      | .ofNat e => Double.ofRatio negative (significand * powerOfTen e) 1
      | .negSucc e => Double.ofRatio negative significand (powerOfTen (e + 1))
    if x.isFinite then some x else none

/-! ### In steps -/

/-- Take digits into a significand as long as it fits 64 bits; the digits that do not are left. -/
def collectDigits (significand : Nat) : List Char → Nat × List Char
  | [] => (significand, [])
  | c :: cs =>
      let next := significand * 10 + (c.toNat - 48)
      if fitsWord64 next then collectDigits next cs else (significand, c :: cs)

namespace Double

/-- The magnitude of a finite number. -/
def ratio (x : Double) : Nat × Nat :=
  match x.decode with
  | .finite _ mantissa exponent => Decoded.ratio mantissa exponent
  | _ => (0, 1)

/-- The product of two magnitudes, rounded. -/
def times (x y : Double) : Double :=
  let (a, b) := x.ratio
  let (c, d) := y.ratio
  .ofRatio false (a * c) (b * d)

/-- The quotient of two magnitudes, rounded. -/
def quotientBy (x y : Double) : Double :=
  let (a, b) := x.ratio
  let (c, d) := y.ratio
  .ofRatio false (a * d) (b * c)

def tenTo (n : Nat) : Double := .ofRatio false (powerOfTen n) 1

/-- The greatest power of ten that is not infinite. -/
def greatestPower : Nat := 308

/-- Divide by the greatest power so many times, unless there is nothing left before. -/
def shrink : Nat → Double → Double
  | 0, x => x
  | n + 1, x => if x = zero then x else shrink n (x.quotientBy (tenTo greatestPower))

/-- A magnitude times `10 ^ exponent`, rounded at every step; `none` when that is infinite. -/
def scale? (x : Double) (exponent : Int) : Option Double :=
  match exponent with
  | .ofNat n =>
      if x = zero then some x
      else if greatestPower < n then none
      else
        let y := x.times (tenTo n)
        if y.isFinite then some y else none
  | .negSucc n =>
      let rounds := n / greatestPower
      some ((shrink rounds x).quotientBy (tenTo (n + 1 - greatestPower * rounds)))

def negate (x : Double) : Double := ⟨x.bits ^^^ 0x8000000000000000⟩

end Double

/-- `± significand * 10 ^ exponent`, rounded at every step; `none` when that is infinite. -/
def steppedDecimal? (negative : Bool) (significand : Nat) (exponent : Int) : Option Double :=
  (Double.scale? (.ofInt significand) exponent).map fun x => if negative then x.negate else x

end TieredUdf.Numeric
