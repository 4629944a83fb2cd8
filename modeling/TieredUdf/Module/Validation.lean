import TieredUdf.Module.Descriptor
import TieredUdf.Module.Shape
import TieredUdf.Text.Blank

/-!
# Validation of descriptors

The checks that a submitted module has to pass, in order: its texts, its limits, its parameters
one after the other, its returns, its bytecode and at last its entry point, which has to be an
exported function that takes the context's identifier and then the positional parameters.
-/

namespace TieredUdf

namespace Descriptor

def entrySignature (d : Descriptor) : Signature :=
  ⟨.i64 :: d.params.filterMap fun p => p.type.scalar?, d.returns.filterMap ValueType.scalar?⟩

/-- Check the parameters from a position on, given the names before them. -/
def checkParams (seen : List String) (index : Nat) :
    List Param → Except ValidationError Unit
  | [] => .ok ()
  | p :: rest =>
      if Text.isBlank p.name then .error (.emptyParameterName index)
      else if seen.contains p.name then .error (.duplicateParameter p.name)
      else match p.default with
        | none => checkParams (p.name :: seen) (index + 1) rest
        | some value =>
            if (value.coerce? p.type).isSome then checkParams (p.name :: seen) (index + 1) rest
            else .error (.defaultTypeMismatch p.name p.type value.type)

/-- Check the declared returns: at least one, and no text among them. -/
def checkReturns (returns : List ValueType) : Except ValidationError Unit :=
  if returns = [] then .error .noReturnType
  else if returns.contains .string then .error (.unsupportedReturnType .string)
  else .ok ()

/-- Check everything that does not need the module itself. -/
def checkFields (d : Descriptor) : Except ValidationError Unit :=
  if Text.isBlank d.key.name then .error (.emptyField "name")
  else if Text.isBlank d.key.version then .error (.emptyField "version")
  else if Text.isBlank d.entry then .error (.emptyField "entry point")
  else if d.bytecode = [] then .error .emptyBytecode
  else if d.limits.fuel = some 0 then .error .zeroFuel
  else do
    checkParams [] 0 d.params
    checkReturns d.returns

/-- Check that the entry point is exported with the expected signature. -/
def checkEntry (d : Descriptor) (s : ModuleShape) : Except ValidationError Unit :=
  match s.function? d.entry with
  | none => .error (.missingEntryPoint d.entry)
  | some f =>
      if f.type.signature? = some d.entrySignature then .ok ()
      else .error (.signatureMismatch d.entry d.entrySignature.text f.type.text)

def validate (d : Descriptor) (pageLimit : Nat) : Except ValidationError ModuleShape := do
  checkFields d
  let shape ← ModuleShape.ofBytecode d.bytecode pageLimit
  checkEntry d shape
  return shape

/-- Check that a module sets no instruction budget where instructions are not counted. -/
def validateLimits (d : Descriptor) (metering : Bool) : Except ValidationError Unit :=
  if d.limits.fuel.isSome && !metering then .error (.fuelWithoutMetering d.key) else .ok ()

end Descriptor

end TieredUdf
