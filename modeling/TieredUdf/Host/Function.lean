import TieredUdf.Value.Basic

/-!
# Host functions

The functions that a module may import, all from one host module.  Each but the last takes the
identifier of the call's context first.
-/

namespace TieredUdf.Host

inductive Function where
  | getScore
  | getFieldF64
  | getFieldI64
  | getFieldBool
  | hasField
  | getFieldString
  | getDocumentId
  | getParamString
  | log
  deriving DecidableEq, Repr, Inhabited

def moduleName : String := "env"

def memoryName : String := "memory"

namespace Function

def all : List Function :=
  [.getScore, .getFieldF64, .getFieldI64, .getFieldBool, .hasField, .getFieldString,
   .getDocumentId, .getParamString, .log]

def name : Function → String
  | .getScore => "get_score"
  | .getFieldF64 => "get_field_f64"
  | .getFieldI64 => "get_field_i64"
  | .getFieldBool => "get_field_bool"
  | .hasField => "has_field"
  | .getFieldString => "get_field_string"
  | .getDocumentId => "get_document_id"
  | .getParamString => "get_param_string"
  | .log => "log"

def params : Function → List ScalarType
  | .getScore => [.i64]
  | .getFieldF64 | .getFieldI64 | .getFieldBool | .hasField => [.i64, .i32, .i32]
  | .getFieldString | .getParamString => [.i64, .i32, .i32, .i32, .i32]
  | .getDocumentId => [.i64, .i32, .i32]
  | .log => [.i32, .i32, .i32]

def results : Function → List ScalarType
  | .getScore | .getFieldF64 => [.f64]
  | .getFieldI64 => [.i64]
  | .getFieldBool | .hasField | .getFieldString | .getDocumentId | .getParamString => [.i32]
  | .log => []

def ofName? (s : String) : Option Function := all.find? fun f => f.name == s

end Function

end TieredUdf.Host
