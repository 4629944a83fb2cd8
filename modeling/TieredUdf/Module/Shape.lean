import TieredUdf.Error
import TieredUdf.Host.Function
import TieredUdf.Module.Signature
import TieredUdf.Wasm.Validity

/-!
# The shape of a module

What a valid module imports, exports and requests.  A module is admitted when it imports host
functions alone, each with its own type, and no memory of it starts with more pages than the
limit.  Imports are looked at first, in order, then memories, and then exports.
-/

namespace TieredUdf

structure ExportedFunction where
  name : String
  type : Wasm.FuncType
  deriving DecidableEq, Repr, Inhabited

structure ModuleShape where
  /-- The imports, each as `module.name`. -/
  imports : List String
  /-- The exported functions in the order of their exports. -/
  functions : List ExportedFunction
  /-- Whether the host can reach a memory of the module. -/
  exportsMemory : Bool
  /-- The initial pages of the last memory; zero without one. -/
  initialPages : Nat
  deriving DecidableEq, Repr, Inhabited

namespace ModuleShape

def function? (s : ModuleShape) (name : String) : Option ExportedFunction :=
  s.functions.find? fun f => f.name == name

def hostSignature (f : Host.Function) : Signature := ⟨f.params, f.results⟩

def checkImport (types : List Wasm.FuncType) (i : Wasm.Import) :
    Except ValidationError String :=
  match i.kind with
  | .func typeIndex =>
      if i.module ≠ Host.moduleName then .error (.forbiddenImport i.module i.name)
      else match Host.Function.ofName? i.name with
        | none => .error (.forbiddenImport i.module i.name)
        | some f => match types[typeIndex]? with
          | none => .error (.malformedBytecode "import type index out of range")
          | some type =>
              if type.signature? = some (hostSignature f) then .ok (i.module ++ "." ++ i.name)
              else .error (.importSignatureMismatch i.name (hostSignature f).text type.text)
  | _ => .error (.forbiddenImport i.module i.name)

def checkImports (types : List Wasm.FuncType) :
    List Wasm.Import → Except ValidationError (List String)
  | [] => .ok []
  | i :: rest => do
      let text ← checkImport types i
      let more ← checkImports types rest
      return text :: more

def checkMemories (limit : Nat) : List Wasm.MemoryType → Except ValidationError Unit
  | [] => .ok ()
  | t :: rest =>
      if limit < t.limits.initial then .error (.memoryLimitExceeded t.limits.initial limit)
      else checkMemories limit rest

def exportedFunctions (m : Wasm.Module) :
    List Wasm.Export → Except ValidationError (List ExportedFunction)
  | [] => .ok []
  | e :: rest =>
      if e.kind ≠ .func then exportedFunctions m rest
      else match m.functionType? e.index with
        | none => .error (.malformedBytecode "export refers to unknown function")
        | some type => do
            let more ← exportedFunctions m rest
            return ⟨e.name, type⟩ :: more

def ofModule (m : Wasm.Module) (pageLimit : Nat) : Except ValidationError ModuleShape := do
  let imports ← checkImports m.types m.imports
  checkMemories pageLimit m.memories
  let functions ← exportedFunctions m m.exports
  return {
      imports := imports
      functions := functions
      exportsMemory := m.exports.any fun e => e.kind == .memory && e.name == Host.memoryName
      initialPages := (m.memories.getLast?.map fun t => t.limits.initial).getD 0 }

def ofBytecode (bytes : List UInt8) (pageLimit : Nat) : Except ValidationError ModuleShape :=
  if bytes = [] then .error .emptyBytecode
  else match Wasm.Module.ofBytes? bytes with
    | some m => ofModule m pageLimit
    | none => .error (.malformedBytecode "not a valid module")

end ModuleShape

end TieredUdf
