import TieredUdf.Error

/-!
# Traps

Why a running guest stops before its end.
-/

namespace TieredUdf.Wasm

inductive Trap where
  | unreachable
  | divideByZero
  | integerOverflow
  | invalidConversion
  | memoryOutOfBounds
  | tableOutOfBounds
  | nullElement
  | signatureMismatch
  | stackOverflow
  | outOfFuel
  deriving DecidableEq, Repr, Inhabited

namespace Trap

def kind : Trap → TrapKind
  | .unreachable => .unreachable
  | .divideByZero => .divisionByZero
  | .integerOverflow => .integerOverflow
  | .memoryOutOfBounds | .tableOutOfBounds => .memoryOutOfBounds
  | .stackOverflow => .stackOverflow
  | .outOfFuel => .outOfFuel
  | .invalidConversion | .nullElement | .signatureMismatch => .other

def detail : Trap → String
  | .unreachable => "wasm `unreachable` instruction executed"
  | .divideByZero => "integer divide by zero"
  | .integerOverflow => "integer overflow"
  | .invalidConversion => "invalid conversion to integer"
  | .memoryOutOfBounds => "out of bounds memory access"
  | .tableOutOfBounds => "undefined element: out of bounds table access"
  | .nullElement => "uninitialized element 2"
  | .signatureMismatch => "indirect call type mismatch"
  | .stackOverflow => "call stack exhausted"
  | .outOfFuel => "all fuel consumed by WebAssembly"

def toExecError (t : Trap) : ExecError := .trap t.kind t.detail

end Trap

end TieredUdf.Wasm
