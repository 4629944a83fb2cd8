import TieredUdf.Value.Type

/-!
# Types of a WebAssembly module

Types of values, functions, tables, memories and globals, and the sizes that a module may
declare.
-/

namespace TieredUdf.Wasm

inductive ValType where
  | i32
  | i64
  | f32
  | f64
  | v128
  | funcref
  | externref
  deriving DecidableEq, Repr, Inhabited

namespace ValType

def isReference : ValType → Bool
  | .funcref | .externref => true
  | _ => false

def scalar? : ValType → Option ScalarType
  | .i32 => some .i32
  | .i64 => some .i64
  | .f32 => some .f32
  | .f64 => some .f64
  | .v128 | .funcref | .externref => none

def ofScalar : ScalarType → ValType
  | .i32 => .i32
  | .i64 => .i64
  | .f32 => .f32
  | .f64 => .f64

def name : ValType → String
  | .i32 => "i32"
  | .i64 => "i64"
  | .f32 => "f32"
  | .f64 => "f64"
  | .v128 => "v128"
  | .funcref => "ref(funcref)"
  | .externref => "ref(externref)"

end ValType

structure FuncType where
  params : List ValType
  results : List ValType
  deriving DecidableEq, Repr, Inhabited

structure Limits where
  initial : Nat
  maximum : Option Nat
  deriving DecidableEq, Repr, Inhabited

structure TableType where
  element : ValType
  limits : Limits
  deriving DecidableEq, Repr, Inhabited

/-- Type of a memory; its limits are in pages. -/
structure MemoryType where
  limits : Limits
  shared : Bool
  deriving DecidableEq, Repr, Inhabited

structure GlobalType where
  value : ValType
  writable : Bool
  deriving DecidableEq, Repr, Inhabited

def pageSize : Nat := 65536

def maxPages : Nat := 65536

def maxTableElements : Nat := 10000000

def maxSignatureLength : Nat := 1000

def maxLocals : Nat := 50000

def maxStores : Nat := 100

/-- The greatest number of types, of functions, of globals and of exports. -/
def maxDeclarations : Nat := 1000000

def maxSegments : Nat := 100000

/-- The size that a module stays below. -/
def maxModuleSize : Nat := 1000000

/-- The greatest number of labels of a branch table, without its default. -/
def maxLabels : Nat := 7654321

end TieredUdf.Wasm
