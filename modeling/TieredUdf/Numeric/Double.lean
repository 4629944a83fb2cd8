import TieredUdf.Numeric.Binary

/-!
# Numbers of the 64-bit and the 32-bit format

Both are held as their bits, so that a not-a-number keeps its payload.  Conversions round to
the nearest number, ties to the even mantissa; a not-a-number stays one and becomes quiet.
-/

namespace TieredUdf.Numeric

structure Double where
  bits : UInt64
  deriving DecidableEq, Repr, Inhabited, Hashable

structure Single where
  bits : UInt32
  deriving DecidableEq, Repr, Inhabited, Hashable

namespace Single

def decode (x : Single) : Decoded := BinaryFormat.single.decode x.bits.toNat

def isNaN (x : Single) : Bool := x.decode == .nan

def zero : Single := ⟨0⟩

def ofRatio (negative : Bool) (num den : Nat) : Single :=
  ⟨.ofNat (BinaryFormat.single.ofRatio negative num den)⟩

/-- The number nearest to an integer. -/
def ofInt (n : Int) : Single := ⟨.ofNat (BinaryFormat.single.ofInt n)⟩

/-- The same number in the 64-bit format; nothing is lost. -/
def toDouble (x : Single) : Double :=
  let sign : UInt64 := (x.bits >>> 31).toUInt64 <<< 63
  match x.decode with
  | .nan =>
      let payload : UInt64 := (x.bits &&& 0x007fffff).toUInt64 <<< 29
      ⟨sign ||| 0x7ff8000000000000 ||| payload⟩
  | .infinite _ => ⟨sign ||| 0x7ff0000000000000⟩
  | .finite negative mantissa exponent =>
      let (num, den) := Decoded.ratio mantissa exponent
      ⟨.ofNat (BinaryFormat.double.ofRatio negative num den)⟩

end Single

namespace Double

def decode (x : Double) : Decoded := BinaryFormat.double.decode x.bits.toNat

def isNaN (x : Double) : Bool := x.decode == .nan

def isFinite (x : Double) : Bool :=
  match x.decode with
  | .finite .. => true
  | _ => false

def zero : Double := ⟨0⟩

def infinity : Double := ⟨0x7ff0000000000000⟩

def ofRatio (negative : Bool) (num den : Nat) : Double :=
  ⟨.ofNat (BinaryFormat.double.ofRatio negative num den)⟩

/-- The number nearest to an integer. -/
def ofInt (n : Int) : Double := ⟨.ofNat (BinaryFormat.double.ofInt n)⟩

/-- The nearest number of the 32-bit format. -/
def toSingle (x : Double) : Single :=
  let sign : UInt32 := (x.bits >>> 63).toUInt32 <<< 31
  match x.decode with
  | .nan =>
      let payload : UInt32 := ((x.bits >>> 29) &&& 0x003fffff).toUInt32
      ⟨sign ||| 0x7fc00000 ||| payload⟩
  | .infinite _ => ⟨sign ||| 0x7f800000⟩
  | .finite negative mantissa exponent =>
      let (num, den) := Decoded.ratio mantissa exponent
      .ofRatio negative num den

/-- The quotient of two natural numbers, each first rounded to the format. -/
def quotient (num den : Nat) : Double :=
  ⟨(Float.ofBits (ofInt num).bits / Float.ofBits (ofInt den).bits).toBits⟩

end Double

end TieredUdf.Numeric
