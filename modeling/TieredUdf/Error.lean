import TieredUdf.Module.Key
import TieredUdf.Text.Duration
import TieredUdf.Value.Type

/-!
# What can go wrong

Each kind of failure is a type of causes with one function that words them: a rejected
registration, a failed compile, a failed call, a refused removal, and bad settings.
-/

namespace TieredUdf

open Text (Duration)

/-- Why a registration is rejected. -/
inductive ValidationError where
  | emptyField (field : String)
  | emptyBytecode
  | malformedBytecode (detail : String)
  | emptyParameterName (index : Nat)
  | duplicateParameter (name : String)
  | defaultTypeMismatch (name : String) (expected found : ValueType)
  | noReturnType
  | unsupportedReturnType (type : ValueType)
  | missingEntryPoint (entry : String)
  | signatureMismatch (entry expected found : String)
  | forbiddenImport (module name : String)
  | importSignatureMismatch (name expected found : String)
  | memoryLimitExceeded (requested limit : Nat)
  | zeroFuel
  | fuelWithoutMetering (key : ModuleKey)
  | duplicate (key : ModuleKey)
  | interpreter (detail : String)
  | cachedArtifact (detail : String)
  deriving DecidableEq, Repr, Inhabited

namespace ValidationError

def message : ValidationError → String
  | .emptyField field => "module " ++ field ++ " must not be empty"
  | .emptyBytecode => "module bytecode is empty"
  | .malformedBytecode detail => "malformed WebAssembly module: " ++ detail
  | .emptyParameterName index => "parameter #" ++ toString index ++ " has an empty name"
  | .duplicateParameter name => "duplicate parameter name '" ++ name ++ "'"
  | .defaultTypeMismatch name expected found =>
      "default for parameter '" ++ name ++ "' is " ++ found.name ++ ", expected " ++ expected.name
  | .noReturnType => "module must declare at least one return type"
  | .unsupportedReturnType type =>
      "return type " ++ type.name ++ " cannot be produced by a WebAssembly function"
  | .missingEntryPoint entry => "entry point '" ++ entry ++ "' is not an exported function"
  | .signatureMismatch entry expected found =>
      "entry point '" ++ entry ++ "' has signature " ++ found ++ ", expected " ++ expected
  | .forbiddenImport module name =>
      "import '" ++ module ++ "." ++ name ++ "' is not part of the host ABI"
  | .importSignatureMismatch name expected found =>
      "import '" ++ name ++ "' has signature " ++ found ++ ", expected " ++ expected
  | .memoryLimitExceeded requested limit =>
      "module requests " ++ toString requested ++ " memory pages, limit is " ++ toString limit
  | .zeroFuel => "module fuel limit must be positive"
  | .fuelWithoutMetering key =>
      "module " ++ key.text ++ " declares a fuel limit but the engine runs without fuel metering"
  | .duplicate key => "module " ++ key.text ++ " is already registered"
  | .interpreter detail => "interpreter rejected module: " ++ detail
  | .cachedArtifact detail => "failed to install cached native artifact: " ++ detail

end ValidationError

inductive CompileError where
  | codegen (detail : String)
  | load (detail : String)
  | unavailable
  deriving DecidableEq, Repr, Inhabited

namespace CompileError

def message : CompileError → String
  | .codegen detail => "native compilation failed: " ++ detail
  | .load detail => "native artifact could not be loaded: " ++ detail
  | .unavailable => "native tier is not available in this build"

end CompileError

/-- Why a guest was stopped. -/
inductive TrapKind where
  | divisionByZero
  | integerOverflow
  | memoryOutOfBounds
  | unreachable
  | stackOverflow
  | outOfFuel
  | other
  deriving DecidableEq, Repr, Inhabited

namespace TrapKind

def text : TrapKind → String
  | .divisionByZero => "integer division by zero"
  | .integerOverflow => "integer overflow"
  | .memoryOutOfBounds => "out-of-bounds memory access"
  | .unreachable => "unreachable executed"
  | .stackOverflow => "call stack exhausted"
  | .outOfFuel => "instruction budget exhausted"
  | .other => "trap"

end TrapKind

inductive ExecError where
  | notFound (key : ModuleKey)
  | draining (key : ModuleKey)
  | missingParameter (name : String)
  | unknownParameter (name : String)
  | parameterType (name : String) (expected found : ValueType)
  | poolExhausted (key : ModuleKey) (timeout : Duration)
  | instantiation (detail : String)
  | trap (kind : TrapKind) (detail : String)
  | host (detail : String)
  | resultArity (expected found : Nat)
  | resultType (index : Nat) (expected found : ValueType)
  deriving DecidableEq, Repr, Inhabited

namespace ExecError

def message : ExecError → String
  | .notFound key => "module " ++ key.text ++ " is not registered"
  | .draining key => "module " ++ key.text ++ " is being unregistered"
  | .missingParameter name => "required parameter '" ++ name ++ "' is missing"
  | .unknownParameter name => "unknown parameter '" ++ name ++ "'"
  | .parameterType name expected found =>
      "parameter '" ++ name ++ "' expects " ++ expected.name ++ ", got " ++ found.name
  | .poolExhausted key timeout =>
      "no instance of " ++ key.text ++ " became available within " ++ timeout.text
  | .instantiation detail => "instantiation failed: " ++ detail
  | .trap kind detail => kind.text ++ ": " ++ detail
  | .host detail => "host call failed: " ++ detail
  | .resultArity expected found =>
      "module returned " ++ toString found ++ " values, declared " ++ toString expected
  | .resultType index expected found =>
      "return #" ++ toString index ++ " is " ++ found.name ++ ", declared " ++ expected.name

/-- Whether the arguments of the call are at fault. -/
def isBindingError : ExecError → Bool
  | .missingParameter _ | .unknownParameter _ | .parameterType .. => true
  | _ => false

/-- The kind of trap, when the guest was stopped by one. -/
def trapKind? : ExecError → Option TrapKind
  | .trap kind _ => some kind
  | _ => none

end ExecError

inductive UnregisterError where
  | notFound (key : ModuleKey)
  | busy (key : ModuleKey) (inFlight : Nat)
  deriving DecidableEq, Repr, Inhabited

namespace UnregisterError

def message : UnregisterError → String
  | .notFound key => "module " ++ key.text ++ " is not registered"
  | .busy key inFlight =>
      "module " ++ key.text ++ " has " ++ toString inFlight ++ " calls in flight"

end UnregisterError

end TieredUdf
