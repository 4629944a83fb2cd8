import TieredUdf.Exchange.Value
import TieredUdf.Host.Call

/-!
# The exchange form of host calls and memory accesses

An access is an object that names the host function, or `poke` or `peek`, and holds its
arguments.
-/

namespace TieredUdf.Exchange

/-- The call of a host function that an object names; `context` is the one it means when it does
not give any. -/
def toHostCall? (j : Json) (context : Int) : Option Host.Call := do
  let f ← Host.Function.ofName? (j.text "do")
  let ctx := Scalar.i64 (.ofInt (j.intOr "ctx" context))
  let i := fun name => Scalar.i32 (.ofInt (j.intOr name 0))
  Host.Call.ofArguments? f <| match f with
    | .getScore => [ctx]
    | .getFieldF64 | .getFieldI64 | .getFieldBool | .hasField => [ctx, i "ptr", i "len"]
    | .getFieldString | .getParamString => [ctx, i "ptr", i "len", i "out", i "cap"]
    | .getDocumentId => [ctx, i "out", i "cap"]
    | .log => [i "level", i "ptr", i "len"]

def ofResults (results : List Scalar) : Json := Json.ofOption scalarPayload results.head?

def toData (j : Json) (digits : String) : List UInt8 :=
  ((j.text? "text").map fun s => s.toUTF8.toList).getD (toBytes j digits)

/-- The memory after an access, and its answer. -/
def memoryAccess? (m : Guest.Memory) (j : Json) : Option (Guest.Memory × Json) :=
  match j.text "do" with
  | "poke" => some ((m.write? (j.natural "ptr") (toData j "hex")).getD m, .null)
  | "peek" =>
      some (m, Json.ofOption ofBytes (m.read? (j.natural "ptr") (j.natural "len")))
  | _ => none

def toTexts (j : Json) (name : String) : List (String × String) :=
  (j.items name).filterMap fun
    | .array [.string n, .string v] => some (n, v)
    | _ => none

end TieredUdf.Exchange
