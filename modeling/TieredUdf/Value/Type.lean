/-!
# Types of values

`ValueType` is what a module declares for a parameter or a return; `ScalarType` is what crosses
into the guest.  A truth value travels as a 32-bit integer, and a text does not travel as a
scalar at all.
-/

namespace TieredUdf

inductive ScalarType where
  | i32
  | i64
  | f32
  | f64
  deriving DecidableEq, Repr, Inhabited

inductive ValueType where
  | i32
  | i64
  | f32
  | f64
  | string
  | bool
  deriving DecidableEq, Repr, Inhabited

namespace ValueType

def all : List ValueType := [.i32, .i64, .f32, .f64, .string, .bool]

def name : ValueType → String
  | .i32 => "i32"
  | .i64 => "i64"
  | .f32 => "f32"
  | .f64 => "f64"
  | .string => "string"
  | .bool => "bool"

def ofName? (s : String) : Option ValueType := all.find? fun t => t.name == s

def unknownMessage (s : String) : String := "unknown value type '" ++ s ++ "'"

def scalar? : ValueType → Option ScalarType
  | .i32 | .bool => some .i32
  | .i64 => some .i64
  | .f32 => some .f32
  | .f64 => some .f64
  | .string => none

def isNumeric : ValueType → Bool
  | .i32 | .i64 | .f32 | .f64 => true
  | .string | .bool => false

/-- Whether an argument of type `given` may be passed to a parameter of type `declared` without
loss. -/
def accepts (declared given : ValueType) : Bool :=
  declared == given ||
    match given, declared with
    | .i32, .i64 | .i32, .f64 | .f32, .f64 => true
    | _, _ => false

end ValueType

namespace ScalarType

/-- The declared type that a scalar maps back to. -/
def natural : ScalarType → ValueType
  | .i32 => .i32
  | .i64 => .i64
  | .f32 => .f32
  | .f64 => .f64

def name (t : ScalarType) : String := t.natural.name

end ScalarType

end TieredUdf
