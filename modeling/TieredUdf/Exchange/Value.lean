import TieredUdf.Json.Access
import TieredUdf.Text.Hex
import TieredUdf.Value.Basic

/-!
# The exchange form of values

JSON that loses nothing: a value is a pair of its type's name and its payload, and a binary
number is the hexadecimal digits of its bits, or `nan` for every number that is none.
-/

namespace TieredUdf.Exchange

open Numeric (Double Single)

def hexDigits (digits n : Nat) : String :=
  let shown := Nat.toDigits 16 n
  String.ofList (List.replicate (digits - shown.length) '0' ++ shown)

def hexValue (s : String) : Nat :=
  s.toList.foldl (fun n c => n * 16 + ((Text.Hex.digitValue? c).map UInt8.toNat).getD 0) 0

def ofDouble (x : Double) : Json :=
  .string (if x.isNaN then "nan" else hexDigits 16 x.bits.toNat)

def ofSingle (x : Single) : Json :=
  .string (if x.isNaN then "nan" else hexDigits 8 x.bits.toNat)

def toDouble (j : Json) : Double :=
  match j with
  | .string "nan" => ⟨0x7ff8000000000000⟩
  | .string hex => ⟨.ofNat (hexValue hex)⟩
  | _ => .zero

def toSingle (j : Json) : Single :=
  match j with
  | .string "nan" => ⟨0x7fc00000⟩
  | .string hex => ⟨.ofNat (hexValue hex)⟩
  | _ => .zero

def toBytes (j : Json) (name : String) : List UInt8 :=
  (Text.Hex.decode? (j.text name)).getD []

def ofBytes (bytes : List UInt8) : Json := .string (Text.Hex.encode bytes)

def scalarPayload : Scalar → Json
  | .i32 n => .integer n.toInt
  | .i64 n => .integer n.toInt
  | .f32 x => ofSingle x
  | .f64 x => ofDouble x

def valuePayload : Value → Json
  | .i32 n => .integer n.toInt
  | .i64 n => .integer n.toInt
  | .f32 x => ofSingle x
  | .f64 x => ofDouble x
  | .string s => .string s
  | .bool b => .bool b

def ofScalar (s : Scalar) : Json := .array [.string s.type.name, scalarPayload s]

def ofValue (v : Value) : Json := .array [.string v.type.name, valuePayload v]

/-- The name of the type and the payload of a pair. -/
def pair (j : Json) : String × Json :=
  match j with
  | .array [.string t, payload] => (t, payload)
  | .array [.string t] => (t, .null)
  | _ => ("", .null)

def toValue (j : Json) : Value :=
  let (t, payload) := pair j
  match t with
  | "i32" => .i32 (.ofInt (payload.asInt?.getD 0))
  | "i64" => .i64 (.ofInt (payload.asInt?.getD 0))
  | "f32" => .f32 (toSingle payload)
  | "f64" => .f64 (toDouble payload)
  | "bool" => .bool (payload.asBool?.getD false)
  | _ => .string (payload.asText?.getD "")

def toScalar (j : Json) : Scalar :=
  let (t, payload) := pair j
  match t with
  | "i32" => .i32 (.ofInt (payload.asInt?.getD 0))
  | "i64" => .i64 (.ofInt (payload.asInt?.getD 0))
  | "f32" => .f32 (toSingle payload)
  | _ => .f64 (toDouble payload)

def toType (j : Json) (name : String) : ValueType := (ValueType.ofName? (j.text name)).getD .i32

def toTypes (j : Json) (name : String) : List ValueType :=
  (j.texts name).filterMap ValueType.ofName?

def ofType (t : ValueType) : Json := .string t.name

def ofScalarType (t : ScalarType) : Json := .string t.name

/-- One value for every type, as far as there is one. -/
def ofEachType (f : ValueType → Option Value) : Json :=
  .object (ValueType.all.map fun t => (t.name, Json.ofOption ofValue (f t)))

def toNamedValues (j : Json) (name : String) : List (String × Value) :=
  (j.members name).map fun m => (m.1, toValue m.2)

def toScalars (j : Json) (name : String) : List Scalar := (j.items name).map toScalar

end TieredUdf.Exchange
