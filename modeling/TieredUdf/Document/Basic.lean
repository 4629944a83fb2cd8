import TieredUdf.Document.Path
import TieredUdf.Value.Basic

/-!
# Documents

A document has an identifier, a score and fields.  The fields are a JSON value, whose nodes are
reached by paths, a flat list of named values, or whatever a storage answers for a path.
-/

namespace TieredUdf

open Numeric (Double)

/-- A field as the guest sees it; `other` is present but not a scalar. -/
inductive Field where
  | int (n : Int)
  | float (x : Double)
  | bool (b : Bool)
  | text (s : String)
  | other
  deriving DecidableEq, Repr, Inhabited

namespace Field

def toDouble? : Field → Option Double
  | .int n => some (.ofInt n)
  | .float x => some x
  | _ => none

/-- A numeric field as an integer: a finite number loses its fraction and is moved to the nearer
end of the 64-bit range. -/
def toInt? : Field → Option Int
  | .int n => some n
  | .float x => x.decode.truncate?.map Value.clampInt64
  | _ => none

def toBool? : Field → Option Bool
  | .bool b => some b
  | _ => none

def text? : Field → Option String
  | .text s => some s
  | _ => none

def ofJson : Json → Field
  | .bool b => .bool b
  | .integer n => if Numeric.fitsInt64 n then .int n else .float (.ofInt n)
  | .number x => .float x
  | .string s => .text s
  | .null | .array _ | .object _ => .other

def ofValue : Value → Field
  | .i32 n => .int n.toInt
  | .i64 n => .int n.toInt
  | .f32 x => .float x.toDouble
  | .f64 x => .float x
  | .bool b => .bool b
  | .string s => .text s

end Field

/-- Where a document's fields come from. -/
inductive Fields where
  | json (root : Json)
  | values (entries : List (String × Value))
  | stored (answer? : String → Option Field)
  deriving Inhabited

namespace Document

def walk? : Json → List Step → Option Json
  | node, [] => some node
  | node, .key name :: rest => (node.get? name).bind fun child => walk? child rest
  | node, .index i :: rest => (node.item? i).bind fun child => walk? child rest

def valueOf? (name : String) (entries : List (String × Value)) : Option Value :=
  (entries.find? fun e => e.1 == name).map Prod.snd

end Document

/-- The field at a path.  A member of the root whose name is the whole path comes first. -/
def Fields.field? (fields : Fields) (path : String) : Option Field :=
  match fields with
  | .values entries => (Document.valueOf? path entries).map Field.ofValue
  | .stored answer? => answer? path
  | .json root =>
      match root.get? path with
      | some node => some (Field.ofJson node)
      | none => do
          let steps ← Document.Path.parse? path
          return Field.ofJson (← Document.walk? root steps)

structure Document where
  id : String
  score : Double
  fields : Fields
  deriving Inhabited

namespace Document

def bare (id : String) (score : Double) : Document := ⟨id, score, .json .null⟩

def field? (d : Document) (path : String) : Option Field := d.fields.field? path

end Document

end TieredUdf
