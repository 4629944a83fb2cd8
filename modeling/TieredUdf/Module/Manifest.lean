import TieredUdf.Files.Tree
import TieredUdf.Module.Descriptor
import TieredUdf.Toml.Decode

/-!
# Manifests

A manifest describes a module as a TOML document and names the file of its bytecode, seen from
the directory of the manifest.  A default is taken as it is written; whether it fits its
parameter is checked later.
-/

namespace TieredUdf

open Files (Fault)

/-- A parameter of a manifest; a default may still be any value. -/
structure ManifestParam where
  name : String
  type : ValueType
  required : Bool
  default : Option Toml
  deriving Inhabited

structure Manifest where
  key : ModuleKey
  entry : String
  /-- The path of the bytecode. -/
  wasm : String
  metadata : Metadata
  params : List ManifestParam
  returns : List ValueType
  limits : ModuleLimits
  deriving Inhabited

/-- Why a manifest gives no descriptor. -/
inductive ManifestError where
  | read (path : String) (fault : Fault)
  | parse (detail : String)
  | unsupportedDefault (param : String)
  deriving DecidableEq, Repr, Inhabited

namespace ManifestError

def message : ManifestError → String
  | .read path fault => "failed to read '" ++ path ++ "': " ++ fault.message
  | .parse detail => "invalid manifest TOML: " ++ detail
  | .unsupportedDefault param =>
      "parameter '" ++ param ++ "' has a default that is not a scalar"

end ManifestError

namespace Manifest

def typeOf? (v : Toml) : Option ValueType := v.name?.bind ValueType.ofName?

def param? (v : Toml) : Option ManifestParam := do
  match ← v.fields? ["name", "type", "required", "default"] with
  | [name, type, required, default] =>
      return ⟨← name.bind Toml.text?, ← type.bind typeOf?,
        ← Toml.withDefault? false Toml.flag? required, default⟩
  | _ => none

def limits? (v : Toml) : Option ModuleLimits := do
  match ← v.fields? ["pool_size", "fuel"] with
  | [poolSize, fuel] =>
      return ⟨← Toml.optional? (Toml.natural? Numeric.maxWord64) poolSize,
        ← Toml.optional? (Toml.natural? Numeric.maxWord64) fuel⟩
  | _ => none

/-- Named texts, in the order of their names. -/
def custom? : Toml → Option (List (String × String))
  | .table entries => do
      let texts ← entries.mapM fun e => e.2.text?.map fun s => (e.1, s)
      return texts.mergeSort fun a b => decide (a.1 ≤ b.1)
  | _ => none

def sectionFields : List String :=
  ["name", "version", "entry", "wasm", "description", "author", "category", "tags", "license"]

def ofToml? (document : List (String × Toml)) : Option Manifest := do
  let field := fun name => Toml.member? name document
  let params ← Toml.withDefault? [] (Toml.list? param?) (field "params")
  let returns ← (field "returns").bind (Toml.list? typeOf?)
  let limits ← Toml.withDefault? ⟨none, none⟩ limits? (field "limits")
  let custom ← Toml.withDefault? [] custom? (field "custom")
  match ← (← field "module").fields? sectionFields with
  | [name, version, entry, wasm, description, author, category, tags, license] =>
      return {
        key := ⟨← name.bind Toml.text?, ← version.bind Toml.text?⟩
        entry := ← entry.bind Toml.text?
        wasm := ← wasm.bind Toml.text?
        metadata := {
          description := ← Toml.optional? Toml.text? description
          author := ← Toml.optional? Toml.text? author
          category := ← Toml.optional? Toml.text? category
          tags := ← Toml.withDefault? [] (Toml.list? Toml.text?) tags
          license := ← Toml.optional? Toml.text? license
          custom := custom }
        params := params
        returns := returns
        limits := limits }
  | _ => none

def parse (text : String) : Except ManifestError Manifest :=
  match (Toml.parse? text).bind ofToml? with
  | some m => .ok m
  | none => .error (.parse "not a manifest")

/-- The path of the bytecode, seen from where the directory of the manifest is seen. -/
def wasmPath (m : Manifest) (directory : String) : String := Files.Path.join directory m.wasm

def scalar? : Toml → Option Value
  | .integer n => some (.i64 (.ofInt n))
  | .float x => some (.f64 x)
  | .boolean b => some (.bool b)
  | .string s => some (.string s)
  | .datetime | .array _ | .table _ => none

def toParam (p : ManifestParam) : Except ManifestError Param :=
  match p.default with
  | none => .ok ⟨p.name, p.type, p.required, none⟩
  | some v =>
      match scalar? v with
      | some value => .ok ⟨p.name, p.type, p.required, some value⟩
      | none => .error (.unsupportedDefault p.name)

def descriptor (m : Manifest) (bytecode : List UInt8) : Except ManifestError Descriptor := do
  let params ← m.params.mapM toParam
  return .ofBytecode m.key m.entry params m.returns bytecode m.metadata m.limits

def load {f : Type → Type} [Monad f] (read : String → f (Except Fault (List UInt8)))
    (path : String) : f (Except ManifestError Descriptor) := do
  match (← read path).bind Files.text with
  | .error fault => return .error (.read path fault)
  | .ok text =>
      match parse text with
      | .error e => return .error e
      | .ok m =>
          let wasm := m.wasmPath (Files.Path.parent path)
          match ← read wasm with
          | .error fault => return .error (.read wasm fault)
          | .ok bytecode => return m.descriptor bytecode

end Manifest

end TieredUdf
