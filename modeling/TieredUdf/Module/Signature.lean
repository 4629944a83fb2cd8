import TieredUdf.Value.Type
import TieredUdf.Wasm.Type

/-!
# Signatures

The scalar types that a function takes and gives, and the text of any function type.
-/

namespace TieredUdf

/-- Scalar types of parameters and results. -/
structure Signature where
  params : List ScalarType
  results : List ScalarType
  deriving DecidableEq, Repr, Inhabited

/-- Names with a comma between them. -/
def joinNames : List String → String
  | [] => ""
  | [n] => n
  | n :: rest => n ++ ", " ++ joinNames rest

/-- The text of a function type, given the names of its types. -/
def renderTypes (params results : List String) : String :=
  "(" ++ joinNames params ++ ") -> (" ++ joinNames results ++ ")"

namespace Signature

def text (s : Signature) : String :=
  renderTypes (s.params.map ScalarType.name) (s.results.map ScalarType.name)

end Signature

namespace Wasm.FuncType

def text (t : FuncType) : String :=
  renderTypes (t.params.map ValType.name) (t.results.map ValType.name)

def signature? (t : FuncType) : Option Signature :=
  match t.params.mapM ValType.scalar?, t.results.mapM ValType.scalar? with
  | some params, some results => some ⟨params, results⟩
  | _, _ => none

end Wasm.FuncType

end TieredUdf
