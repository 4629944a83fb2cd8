import TieredUdf.Exchange.Module
import TieredUdf.Module.Manifest
import TieredUdf.Config

/-!
# The exchange form of errors

Every cause has a name, which stands beside its message.
-/

namespace TieredUdf

namespace ValidationError

def kind : ValidationError → String
  | .emptyField _ => "EmptyField"
  | .emptyBytecode => "EmptyBytecode"
  | .malformedBytecode _ => "MalformedBytecode"
  | .emptyParameterName _ => "EmptyParameterName"
  | .duplicateParameter _ => "DuplicateParameter"
  | .defaultTypeMismatch .. => "DefaultTypeMismatch"
  | .noReturnType => "NoReturnType"
  | .unsupportedReturnType _ => "UnsupportedReturnType"
  | .missingEntryPoint _ => "MissingEntryPoint"
  | .signatureMismatch .. => "SignatureMismatch"
  | .forbiddenImport .. => "ForbiddenImport"
  | .importSignatureMismatch .. => "ImportSignatureMismatch"
  | .memoryLimitExceeded .. => "MemoryLimitExceeded"
  | .zeroFuel => "ZeroFuel"
  | .fuelWithoutMetering _ => "FuelWithoutMetering"
  | .duplicate _ => "Duplicate"
  | .interpreter _ => "Interpreter"
  | .cachedArtifact _ => "CachedArtifact"

end ValidationError

namespace CompileError

def kind : CompileError → String
  | .codegen _ => "Codegen"
  | .load _ => "Load"
  | .unavailable => "Unavailable"

end CompileError

namespace TrapKind

def all : List TrapKind :=
  [.divisionByZero, .integerOverflow, .memoryOutOfBounds, .unreachable, .stackOverflow,
   .outOfFuel, .other]

def kind : TrapKind → String
  | .divisionByZero => "DivisionByZero"
  | .integerOverflow => "IntegerOverflow"
  | .memoryOutOfBounds => "MemoryOutOfBounds"
  | .unreachable => "Unreachable"
  | .stackOverflow => "StackOverflow"
  | .outOfFuel => "OutOfFuel"
  | .other => "Other"

end TrapKind

namespace ExecError

def kind : ExecError → String
  | .notFound _ => "NotFound"
  | .draining _ => "Draining"
  | .missingParameter _ => "MissingParameter"
  | .unknownParameter _ => "UnknownParameter"
  | .parameterType .. => "ParameterType"
  | .poolExhausted .. => "PoolExhausted"
  | .instantiation _ => "Instantiation"
  | .trap .. => "Trap"
  | .host _ => "Host"
  | .resultArity .. => "ResultArity"
  | .resultType .. => "ResultType"

end ExecError

namespace UnregisterError

def kind : UnregisterError → String
  | .notFound _ => "NotFound"
  | .busy .. => "Busy"

end UnregisterError

namespace ManifestError

def kind : ManifestError → String
  | .read .. => "Read"
  | .parse _ => "Parse"
  | .unsupportedDefault _ => "UnsupportedDefault"

end ManifestError

namespace ConfigError

def kind : ConfigError → String
  | .read .. => "Read"
  | .parse _ => "Parse"
  | _ => "Invalid"

end ConfigError

namespace Exchange

/-! ### Reading errors -/

def toExecError (j : Json) : ExecError :=
  let name := j.text "name"
  let message := j.text "message"
  match j.text "kind" with
  | "NotFound" => .notFound (toKey j)
  | "Draining" => .draining (toKey j)
  | "MissingParameter" => .missingParameter name
  | "UnknownParameter" => .unknownParameter name
  | "ParameterType" => .parameterType name (toType j "expected") (toType j "found")
  | "PoolExhausted" => .poolExhausted (toKey j) (.ofSeconds (j.natural "secs") (j.natural "nanos"))
  | "Instantiation" => .instantiation message
  | "Trap" =>
      .trap ((TrapKind.all.find? fun k => k.kind == j.text "trap").getD .other) message
  | "ResultArity" => .resultArity (j.natural "expected") (j.natural "found")
  | "ResultType" => .resultType (j.natural "index") (toType j "expected") (toType j "found")
  | _ => .host message

def toValidationError (j : Json) : ValidationError :=
  let name := j.text "name"
  let message := j.text "message"
  match j.text "kind" with
  | "EmptyField" => .emptyField name
  | "EmptyBytecode" => .emptyBytecode
  | "EmptyParameterName" => .emptyParameterName (j.natural "index")
  | "DuplicateParameter" => .duplicateParameter name
  | "DefaultTypeMismatch" => .defaultTypeMismatch name (toType j "expected") (toType j "found")
  | "NoReturnType" => .noReturnType
  | "MissingEntryPoint" => .missingEntryPoint name
  | "ZeroFuel" => .zeroFuel
  | "FuelWithoutMetering" => .fuelWithoutMetering (toKey j)
  | "Duplicate" => .duplicate (toKey j)
  | "Interpreter" => .interpreter message
  | "CachedArtifact" => .cachedArtifact message
  | _ => .malformedBytecode message

def toCompileError (j : Json) : CompileError :=
  match j.text "kind" with
  | "Codegen" => .codegen (j.text "message")
  | "Load" => .load (j.text "message")
  | _ => .unavailable

def toUnregisterError (j : Json) : UnregisterError :=
  match j.text "kind" with
  | "Busy" => .busy (toKey j) (j.natural "in_flight")
  | _ => .notFound (toKey j)

end Exchange

end TieredUdf
