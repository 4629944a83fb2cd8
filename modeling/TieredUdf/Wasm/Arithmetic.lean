import TieredUdf.Numeric.Double
import TieredUdf.Wasm.Instruction
import TieredUdf.Wasm.Trap

/-!
# Arithmetic

Operands and results are words of 64 bits; a 32-bit one is in the low half.  A binary number is
held as its bits.  Operations on what is not a number give the first such operand, made quiet;
an operation that has no result gives the default one.
-/

namespace TieredUdf.Wasm

open Numeric (Double Single maxInt32 maxInt64 maxWord32 maxWord64 minInt32 minInt64 powerOfTwo)

/-! ### Integers -/

def ofBool (b : Bool) : UInt64 := if b then 1 else 0

namespace IntUnary

/-- The number of zeros above the highest one bit of a word of `bits` bits. -/
def leadingZeros (bits : Nat) (x : Nat) : Nat := if x = 0 then bits else bits - 1 - Nat.log2 x

/-- The number of zeros below the lowest one bit; `bits` of them in zero. -/
def trailingZeros : Nat → Nat → Nat
  | 0, _ => 0
  | bits + 1, x => if x % 2 = 1 then 0 else 1 + trailingZeros bits (x / 2)

def population : Nat → Nat → Nat
  | 0, _ => 0
  | bits + 1, x => x % 2 + population bits (x / 2)

/-- The low `low` bits of a word, with their top bit copied to all higher ones of `bits`. -/
def signExtend (bits low : Nat) (x : Nat) : Nat :=
  let part := x % powerOfTwo low
  if part < powerOfTwo (low - 1) then part
  else part + (powerOfTwo bits - powerOfTwo low)

def apply (op : IntUnary) (bits : Nat) (x : UInt64) : UInt64 :=
  match op with
  | .clz => .ofNat (leadingZeros bits x.toNat)
  | .ctz => .ofNat (trailingZeros bits x.toNat)
  | .popcnt => .ofNat (population bits x.toNat)
  | .extend low => .ofNat (signExtend bits low x.toNat)

end IntUnary

namespace IntBinary

/-- Division and remainder of signed numbers.  The quotient of the least number by minus one has
no place in the word. -/
def divSigned (least x y : Int) : Except Trap Int :=
  if y = 0 then .error .divideByZero
  else if x = least ∧ y = -1 then .error .integerOverflow
  else .ok (x.tdiv y)

def remSigned (x y : Int) : Except Trap Int :=
  if y = 0 then .error .divideByZero else .ok (x.tmod y)

def apply32 (op : IntBinary) (x y : UInt32) : Except Trap UInt32 :=
  match op with
  | .add => .ok (x + y)
  | .sub => .ok (x - y)
  | .mul => .ok (x * y)
  | .divS => (divSigned minInt32 x.toInt32.toInt y.toInt32.toInt).map fun n => (Int32.ofInt n).toUInt32
  | .divU => if y = 0 then .error .divideByZero else .ok (x / y)
  | .remS => (remSigned x.toInt32.toInt y.toInt32.toInt).map fun n => (Int32.ofInt n).toUInt32
  | .remU => if y = 0 then .error .divideByZero else .ok (x % y)
  | .and => .ok (x &&& y)
  | .or => .ok (x ||| y)
  | .xor => .ok (x ^^^ y)
  | .shl => .ok (x <<< y)
  | .shrS => .ok (x.toInt32 >>> (y % 32).toInt32).toUInt32
  | .shrU => .ok (x >>> y)
  | .rotl => .ok ((x <<< y) ||| (x >>> (32 - y % 32)))
  | .rotr => .ok ((x >>> y) ||| (x <<< (32 - y % 32)))

def apply64 (op : IntBinary) (x y : UInt64) : Except Trap UInt64 :=
  match op with
  | .add => .ok (x + y)
  | .sub => .ok (x - y)
  | .mul => .ok (x * y)
  | .divS => (divSigned minInt64 x.toInt64.toInt y.toInt64.toInt).map fun n => (Int64.ofInt n).toUInt64
  | .divU => if y = 0 then .error .divideByZero else .ok (x / y)
  | .remS => (remSigned x.toInt64.toInt y.toInt64.toInt).map fun n => (Int64.ofInt n).toUInt64
  | .remU => if y = 0 then .error .divideByZero else .ok (x % y)
  | .and => .ok (x &&& y)
  | .or => .ok (x ||| y)
  | .xor => .ok (x ^^^ y)
  | .shl => .ok (x <<< y)
  | .shrS => .ok (x.toInt64 >>> (y % 64).toInt64).toUInt64
  | .shrU => .ok (x >>> y)
  | .rotl => .ok ((x <<< y) ||| (x >>> (64 - y % 64)))
  | .rotr => .ok ((x >>> y) ||| (x <<< (64 - y % 64)))

def apply (op : IntBinary) (w : Width) (x y : UInt64) : Except Trap UInt64 :=
  match w with
  | .w32 => (op.apply32 x.toUInt32 y.toUInt32).map UInt32.toUInt64
  | .w64 => op.apply64 x y

end IntBinary

namespace IntCompare

def apply32 (op : IntCompare) (x y : UInt32) : Bool :=
  match op with
  | .eq => x == y
  | .ne => x != y
  | .ltS => decide (x.toInt32 < y.toInt32)
  | .ltU => decide (x < y)
  | .gtS => decide (y.toInt32 < x.toInt32)
  | .gtU => decide (y < x)
  | .leS => decide (x.toInt32 ≤ y.toInt32)
  | .leU => decide (x ≤ y)
  | .geS => decide (y.toInt32 ≤ x.toInt32)
  | .geU => decide (y ≤ x)

def apply64 (op : IntCompare) (x y : UInt64) : Bool :=
  match op with
  | .eq => x == y
  | .ne => x != y
  | .ltS => decide (x.toInt64 < y.toInt64)
  | .ltU => decide (x < y)
  | .gtS => decide (y.toInt64 < x.toInt64)
  | .gtU => decide (y < x)
  | .leS => decide (x.toInt64 ≤ y.toInt64)
  | .leU => decide (x ≤ y)
  | .geS => decide (y.toInt64 ≤ x.toInt64)
  | .geU => decide (y ≤ x)

def apply (op : IntCompare) (w : Width) (x y : UInt64) : Bool :=
  match w with
  | .w32 => op.apply32 x.toUInt32 y.toUInt32
  | .w64 => op.apply64 x y

end IntCompare

/-! ### Binary numbers of 64 bits -/

namespace Float64

def signMask : UInt64 := 0x8000000000000000

def isNaN (x : UInt64) : Bool := decide (0x7ff0000000000000 < (x &&& ~~~signMask))

def quiet (x : UInt64) : UInt64 := x ||| 0x0008000000000000

def default : UInt64 := 0xfff8000000000000

def copysign (x y : UInt64) : UInt64 := (x &&& ~~~signMask) ||| (y &&& signMask)

def lift (f : Float → Float) (x : UInt64) : UInt64 :=
  if isNaN x then quiet x
  else
    let r := (f (.ofBits x)).toBits
    if isNaN r then default else r

def lift₂ (f : Float → Float → Float) (x y : UInt64) : UInt64 :=
  if isNaN x then quiet x
  else if isNaN y then quiet y
  else
    let r := (f (.ofBits x) (.ofBits y)).toBits
    if isNaN r then default else r

def trunc (x : Float) : Float := if x < 0 then x.ceil else x.floor

/-- Round to the nearest integer, a half to the even one; the sign of zero is kept. -/
def nearest (x : Float) : Float :=
  let low := x.floor
  let rest := x - low
  let r :=
    if rest < 0.5 then low
    else if 0.5 < rest then low + 1
    else if (low / 2).floor * 2 == low then low
    else low + 1
  .ofBits (copysign r.toBits x.toBits)

def unary (op : FloatUnary) (x : UInt64) : UInt64 :=
  match op with
  | .abs => x &&& ~~~signMask
  | .neg => x ^^^ signMask
  | .ceil => lift Float.ceil x
  | .floor => lift Float.floor x
  | .trunc => lift trunc x
  | .nearest => lift nearest x
  | .sqrt => lift Float.sqrt x

/-- The lesser number; the negative zero is below the positive one. -/
def min (x y : Float) : Float :=
  if x < y then x else if y < x then y else .ofBits (x.toBits ||| y.toBits)

def max (x y : Float) : Float :=
  if x < y then y else if y < x then x else .ofBits (x.toBits &&& y.toBits)

def binary (op : FloatBinary) (x y : UInt64) : UInt64 :=
  match op with
  | .add => lift₂ (· + ·) x y
  | .sub => lift₂ (· - ·) x y
  | .mul => lift₂ (· * ·) x y
  | .div => lift₂ (· / ·) x y
  | .min => lift₂ min x y
  | .max => lift₂ max x y
  | .copysign => copysign x y

def compare (op : FloatCompare) (x y : UInt64) : Bool :=
  let a := Float.ofBits x
  let b := Float.ofBits y
  match op with
  | .eq => a == b
  | .ne => !(a == b)
  | .lt => decide (a < b)
  | .gt => decide (b < a)
  | .le => decide (a ≤ b)
  | .ge => decide (b ≤ a)

end Float64

/-! ### Binary numbers of 32 bits -/

namespace Float32Bits

def signMask : UInt32 := 0x80000000

def isNaN (x : UInt32) : Bool := decide (0x7f800000 < (x &&& ~~~signMask))

def quiet (x : UInt32) : UInt32 := x ||| 0x00400000

def default : UInt32 := 0xffc00000

def copysign (x y : UInt32) : UInt32 := (x &&& ~~~signMask) ||| (y &&& signMask)

def lift (f : Float32 → Float32) (x : UInt32) : UInt32 :=
  if isNaN x then quiet x
  else
    let r := (f (.ofBits x)).toBits
    if isNaN r then default else r

def lift₂ (f : Float32 → Float32 → Float32) (x y : UInt32) : UInt32 :=
  if isNaN x then quiet x
  else if isNaN y then quiet y
  else
    let r := (f (.ofBits x) (.ofBits y)).toBits
    if isNaN r then default else r

/-- A rounding of 64-bit numbers to integers, which is exact on 32-bit ones too. -/
def viaDouble (f : Float → Float) (x : Float32) : Float32 := (f x.toFloat).toFloat32

def unary (op : FloatUnary) (x : UInt32) : UInt32 :=
  match op with
  | .abs => x &&& ~~~signMask
  | .neg => x ^^^ signMask
  | .ceil => lift (viaDouble Float.ceil) x
  | .floor => lift (viaDouble Float.floor) x
  | .trunc => lift (viaDouble Float64.trunc) x
  | .nearest => lift (viaDouble Float64.nearest) x
  | .sqrt => lift Float32.sqrt x

def min (x y : Float32) : Float32 :=
  if x < y then x else if y < x then y else .ofBits (x.toBits ||| y.toBits)

def max (x y : Float32) : Float32 :=
  if x < y then y else if y < x then x else .ofBits (x.toBits &&& y.toBits)

def binary (op : FloatBinary) (x y : UInt32) : UInt32 :=
  match op with
  | .add => lift₂ (· + ·) x y
  | .sub => lift₂ (· - ·) x y
  | .mul => lift₂ (· * ·) x y
  | .div => lift₂ (· / ·) x y
  | .min => lift₂ min x y
  | .max => lift₂ max x y
  | .copysign => copysign x y

def compare (op : FloatCompare) (x y : UInt32) : Bool :=
  let a := Float32.ofBits x
  let b := Float32.ofBits y
  match op with
  | .eq => a == b
  | .ne => !(a == b)
  | .lt => decide (a < b)
  | .gt => decide (b < a)
  | .le => decide (a ≤ b)
  | .ge => decide (b ≤ a)

end Float32Bits

/-! ### By width -/

namespace FloatUnary

def apply (op : FloatUnary) (w : Width) (x : UInt64) : UInt64 :=
  match w with
  | .w32 => (Float32Bits.unary op x.toUInt32).toUInt64
  | .w64 => Float64.unary op x

end FloatUnary

namespace FloatBinary

def apply (op : FloatBinary) (w : Width) (x y : UInt64) : UInt64 :=
  match w with
  | .w32 => (Float32Bits.binary op x.toUInt32 y.toUInt32).toUInt64
  | .w64 => Float64.binary op x y

end FloatBinary

namespace FloatCompare

def apply (op : FloatCompare) (w : Width) (x y : UInt64) : Bool :=
  match w with
  | .w32 => Float32Bits.compare op x.toUInt32 y.toUInt32
  | .w64 => Float64.compare op x y

end FloatCompare

/-! ### Conversions -/

namespace Conversion

def range (w : Width) (signed : Bool) : Int × Int :=
  match w, signed with
  | .w32, true => (minInt32, maxInt32)
  | .w32, false => (0, maxWord32)
  | .w64, true => (minInt64, maxInt64)
  | .w64, false => (0, maxWord64)

def wordOf (w : Width) (n : Int) : UInt64 := .ofNat (n % powerOfTwo w.bits).toNat

def integerOf (w : Width) (signed : Bool) (x : UInt64) : Int :=
  match w, signed with
  | .w32, true => x.toUInt32.toInt32.toInt
  | .w32, false => x.toUInt32.toNat
  | .w64, true => x.toInt64.toInt
  | .w64, false => x.toNat

def decode (w : Width) (x : UInt64) : Numeric.Decoded :=
  match w with
  | .w32 => (Single.mk x.toUInt32).decode
  | .w64 => (Double.mk x).decode

/-- A binary number without its fraction as an integer of a range. -/
def truncateTo (target : Width) (signed saturating : Bool) (x : Numeric.Decoded) :
    Except Trap UInt64 :=
  let (least, greatest) := range target signed
  match x with
  | .nan => if saturating then .ok 0 else .error .invalidConversion
  | .infinite negative =>
      if saturating then .ok (wordOf target (if negative then least else greatest))
      else .error .integerOverflow
  | x =>
      let n := x.truncate?.getD 0
      if least ≤ n ∧ n ≤ greatest then .ok (wordOf target n)
      else if saturating then .ok (wordOf target (Numeric.clampInt least greatest n))
      else .error .integerOverflow

def apply (c : Conversion) (x : UInt64) : Except Trap UInt64 :=
  match c with
  | .wrap => .ok x.toUInt32.toUInt64
  | .extend true => .ok (wordOf .w64 (integerOf .w32 true x))
  | .extend false => .ok x
  | .truncate source target signed saturating =>
      truncateTo target signed saturating (decode source x)
  | .convert source .w32 signed => .ok (Single.ofInt (integerOf source signed x)).bits.toUInt64
  | .convert source .w64 signed => .ok (Double.ofInt (integerOf source signed x)).bits
  | .demote => .ok (Double.mk x).toSingle.bits.toUInt64
  | .promote => .ok (Single.mk x.toUInt32).toDouble.bits
  | .reinterpretAsInt _ | .reinterpretAsFloat _ => .ok x

end Conversion

end TieredUdf.Wasm
