import TieredUdf.Json.Printer
import TieredUdf.Text.Quoted
import TieredUdf.Value.Type

/-!
# Values and scalars

`Value` is a typed argument or result of a module; `Scalar` is its form at the guest's border.
A value is widened when it is bound as an argument, which loses nothing, and coerced when it
stands for a declared default or comes from JSON.
-/

namespace TieredUdf

open Numeric (Double Single)

/-- A scalar at the guest's border. -/
inductive Scalar where
  | i32 (n : Int32)
  | i64 (n : Int64)
  | f32 (x : Single)
  | f64 (x : Double)
  deriving DecidableEq, Repr, Inhabited

inductive Value where
  | i32 (n : Int32)
  | i64 (n : Int64)
  | f32 (x : Single)
  | f64 (x : Double)
  | string (s : String)
  | bool (b : Bool)
  deriving DecidableEq, Repr, Inhabited

namespace Scalar

def type : Scalar → ScalarType
  | .i32 _ => .i32
  | .i64 _ => .i64
  | .f32 _ => .f32
  | .f64 _ => .f64

end Scalar

namespace Value

def type : Value → ValueType
  | .i32 _ => .i32
  | .i64 _ => .i64
  | .f32 _ => .f32
  | .f64 _ => .f64
  | .string _ => .string
  | .bool _ => .bool

/-- The value of an optional parameter that is neither given nor has a default. -/
def zero : ValueType → Value
  | .i32 => .i32 0
  | .i64 => .i64 0
  | .f32 => .f32 .zero
  | .f64 => .f64 .zero
  | .string => .string ""
  | .bool => .bool false

def toDouble? : Value → Option Double
  | .i32 n => some (.ofInt n.toInt)
  | .i64 n => some (.ofInt n.toInt)
  | .f32 x => some x.toDouble
  | .f64 x => some x
  | .string _ | .bool _ => none

def text? : Value → Option String
  | .string s => some s
  | _ => none

/-- The value as another type, when nothing is lost whatever the value is. -/
def widen? (v : Value) (target : ValueType) : Option Value :=
  if v.type = target then some v
  else match v, target with
    | .i32 n, .i64 => some (.i64 (.ofInt n.toInt))
    | .i32 n, .f64 => some (.f64 (.ofInt n.toInt))
    | .f32 x, .f64 => some (.f64 x.toDouble)
    | _, _ => none

/-- The nearest integer of the 64-bit range to a number without a fraction. -/
def clampInt64 (n : Int) : Int := Numeric.clampInt Numeric.minInt64 Numeric.maxInt64 n

/-- The integer of the 64-bit range that a numeric value stands for.  A finite number without a
fraction counts as an integer; one outside of the range is moved to the nearer end of it. -/
def integral? : Value → Option Int
  | .i32 n => some n.toInt
  | .i64 n => some n.toInt
  | .f32 x => x.decode.toInt?.map clampInt64
  | .f64 x => x.decode.toInt?.map clampInt64
  | .string _ | .bool _ => none

def ofInt32? (n : Int) : Option Value :=
  if Numeric.fitsInt32 n then some (.i32 (.ofInt n)) else none

/-- The value as another type: a declared default may be written in any numeric type. -/
def coerce? (v : Value) (target : ValueType) : Option Value :=
  if v.type = target then some v
  else if !v.type.isNumeric || !target.isNumeric then none
  else match target with
    | .i32 => v.integral?.bind ofInt32?
    | .i64 => v.integral?.map fun n => .i64 (.ofInt n)
    | .f32 => v.toDouble?.map fun x => .f32 x.toSingle
    | .f64 => v.toDouble?.map .f64
    | .string | .bool => none

/-- The scalar that the value travels as. -/
def toScalar? : Value → Option Scalar
  | .i32 n => some (.i32 n)
  | .i64 n => some (.i64 n)
  | .f32 x => some (.f32 x)
  | .f64 x => some (.f64 x)
  | .bool b => some (.i32 (if b then 1 else 0))
  | .string _ => none

/-- A guest's result as a value of the declared type. -/
def ofScalar? (declared : ValueType) (raw : Scalar) : Option Value :=
  match declared, raw with
  | .i32, .i32 n => some (.i32 n)
  | .bool, .i32 n => some (.bool (n != 0))
  | .i64, .i64 n => some (.i64 n)
  | .f32, .f32 x => some (.f32 x)
  | .f64, .f64 x => some (.f64 x)
  | _, _ => none

/-- A JSON scalar as a value: an integer of the signed 64-bit range stays an integer, and every
other number becomes a 64-bit number. -/
def ofJsonScalar? : Json → Option Value
  | .bool b => some (.bool b)
  | .string s => some (.string s)
  | .integer n => some (if Numeric.fitsInt64 n then .i64 (.ofInt n) else .f64 (.ofInt n))
  | .number x => some (.f64 x)
  | .null | .array _ | .object _ => none

def ofJson? (declared : ValueType) (j : Json) : Option Value :=
  (ofJsonScalar? j).bind fun v => v.coerce? declared

def display : Value → String
  | .i32 n => toString n.toInt
  | .i64 n => toString n.toInt
  | .f32 x => x.text
  | .f64 x => x.text
  | .string s => Text.quoted s
  | .bool b => if b then "true" else "false"

/-- The value inside a JSON document.  A 32-bit number becomes the 64-bit number of the same
value. -/
def toJson : Value → Json
  | .i32 n => .integer n.toInt
  | .i64 n => .integer n.toInt
  | .f32 x => .number x.toDouble
  | .f64 x => .number x
  | .string s => .string s
  | .bool b => .bool b

/-- The value as a JSON text of its own.  A 32-bit number has the digits of its own format. -/
def jsonText : Value → String
  | .f32 x => x.interchange?.getD "null"
  | v => v.toJson.render

end Value

end TieredUdf
