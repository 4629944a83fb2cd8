import TieredUdf.CommandLine.Report
import TieredUdf.CommandLine.Request
import TieredUdf.CommandLine.Script
import TieredUdf.Engine.Call
import TieredUdf.Engine.Query
import TieredUdf.Engine.Registration
import TieredUdf.Json.Parser
import TieredUdf.Module.Manifest
import TieredUdf.Wasm.Tier

/-!
# Carrying out requests

A module that is to run is registered with an engine of its own, whose cache is a directory, and
is called so many times.  The first thing that fails ends the request.
-/

namespace TieredUdf.CommandLine

open Files (Fault)
open Text (Duration)

inductive Failure where
  | file (fault : Fault)
  | config (e : ConfigError)
  | cache (path : String) (fault : Fault)
  | manifest (e : ManifestError)
  | validation (e : ValidationError)
  | call (e : ExecError)
  /-- A parameter has no equals sign. -/
  | notPair (raw : String)
  | wrongType (name : String) (expected : ValueType) (text : String)
  /-- The fields of the document are not JSON. -/
  | document
  deriving Repr, Inhabited

namespace Failure

def message : Failure → String
  | .file fault => fault.message
  | .config e => e.message
  | .cache path fault => "cache I/O on '" ++ path ++ "': " ++ fault.message
  | .manifest e => e.message
  | .validation e => e.message
  | .call e => e.message
  | .notPair raw => "parameter '" ++ raw ++ "' is not NAME=VALUE"
  | .wrongType name expected text =>
      "parameter '" ++ name ++ "' expects " ++ expected.name ++ ", got '" ++ text ++ "'"
  | .document => "the document is not JSON"

end Failure

/-- What a request has shown, with the lines that guests wrote, the newest one first. -/
structure Answer where
  report : Json
  lines : List Host.LogLine
  deriving Inhabited

/-! ### Parameters and documents -/

/-- The value of a parameter that the module does not declare. -/
def undeclared (text : String) : Json → Value
  | .bool b => .bool b
  | .integer n => .f64 (.ofInt n)
  | .number x => .f64 x
  | _ => .string text

/-- A parameter written as a name, an equals sign and JSON; anything else is a string. -/
def toParameter (d : Descriptor) (raw : String) : Except Failure (String × Value) :=
  match raw.toList.span (· != '=') with
  | (_, []) => .error (.notPair raw)
  | (name, _ :: rest) =>
      let name := String.ofList name
      let text := String.ofList rest
      let j := (Json.parse? text).getD (.string text)
      match d.param? name with
      | none => .ok (name, undeclared text j)
      | some p =>
          match Value.ofJson? p.type j with
          | some v => .ok (name, v)
          | none => .error (.wrongType name p.type text)

/-- Parameters by name; a later one takes the place of an earlier one. -/
def toArguments (d : Descriptor) (raw : List String) : Except Failure Arguments :=
  raw.foldlM (fun args r => do
    let (name, v) ← toParameter d r
    return args.filter (fun a => a.1 != name) ++ [(name, v)]) []

def readFields (path : Option String) : Script (Except Failure Fields) := do
  match path with
  | none => return .ok (.json (.object []))
  | some path =>
      match (← Script.readFile path).bind Files.text with
      | .error fault => return .error (.file fault)
      | .ok text =>
          match Json.parse? text with
          | some j => return .ok (.json j)
          | none => return .error .document

/-! ### Engines -/

abbrev WasmEngine : Type := Engine Unit Wasm.Instance

def readConfig (defaults : Config) (path : Option String) : Script (Except Failure Config) := do
  match path with
  | none => return .ok defaults
  | some path => return (← Config.load Script.readFile defaults path).mapError .config

/-- The operations that turn one listing of a directory into another. -/
def changes (before after : Directory) : List FileOp :=
  let gone := before.names.filter fun n => (after.file? n).isNone && (before.file? n).isSome
  let written := after.items.filterMap fun i => match i.2 with
    | .file data => if before.file? i.1 = some data then none else some (.write i.1 data)
    | .folder => none
  gone.map .remove ++ written

/-- Bring a directory from one listing to another. -/
def saveDirectory (path : String) (before : Directory) (after : Option Directory) :
    Script Unit := do
  match after with
  | some d => Script.changeDirectory path (changes before d)
  | none => return ()

/-- Open the cache of an engine, in the directory that is set for it.  What the cache drops is
dropped in the directory at once. -/
def openCache (c : Config) : Script (Except Failure Cache) := do
  match c.cacheDir with
  | none => return .ok (.inMemory c.cacheBudgetBytes)
  | some path =>
      match ← Script.directory path with
      | .error fault => return .error (.cache path fault)
      | .ok d =>
          let cache := Cache.ofDirectory d c.cacheBudgetBytes
          saveDirectory path d cache.directory
          return .ok cache

def openEngine (c : Config) : Script (Except Failure WasmEngine) := do
  match c.validate with
  | .error e => return .error (.config e)
  | .ok () =>
      match ← openCache c with
      | .error f => return .error f
      | .ok cache =>
          return (Engine.new c Wasm.interpreter (some Wasm.backend) cache
            ⟨.empty, ()⟩).mapError .config

/-- Write the cache of an engine back to its directory. -/
def saveCache (opened e : WasmEngine) : Script Unit := do
  match e.config.cacheDir, opened.cache.directory with
  | some path, some d => saveDirectory path d e.cache.directory
  | _, _ => return ()

/-! ### Running -/

def milliseconds (nanoseconds : Nat) : Nat := nanoseconds / 1000000

/-- Call a module once, and measure the call. -/
def callOnce (e : WasmEngine) (number : Nat) (document : Document) (args : Arguments) :
    Script (Except ExecError Invocation × WasmEngine) := do
  let began ← Script.now
  match e.enter number document args (milliseconds began) with
  | (.refused error, e) => return (.error error, e)
  | (.running call, e) =>
      let ((raw, body), e) := e.runGuest Wasm.caller call
      let ended ← Script.now
      return e.endCall number call raw body ⟨ended - began⟩ (milliseconds ended)

def callTimes (number : Nat) (document : Document) (args : Arguments) :
    Nat → Tally → WasmEngine → Script (Except ExecError Tally × WasmEngine)
  | 0, t, e => return (.ok t, e)
  | n + 1, t, e => do
      match ← callOnce e number document args with
      | (.error error, e) => return (.error error, e)
      | (.ok i, e) => callTimes number document args n (t.add i) e

def runReport (e : WasmEngine) (key : ModuleKey) (mode : Mode) (t : Tally) : Json :=
  record [("module", .string key.text), ("registered_mode", ofMode mode),
    ("results", Json.ofList Value.toJson t.last), ("calls", t.toJson),
    ("stats", Json.ofOption ofModule (e.report? key)), ("engine", ofEngine e.counters),
    ("cache", ofCache e.config.cacheDir e.cache.stats)]

/-- Register a module and call it. -/
def runModule (e : WasmEngine) (r : RunRequest) (d : Descriptor) (args : Arguments)
    (fields : Fields) : Script (Except Failure Json × WasmEngine) := do
  let began := milliseconds (← Script.now)
  match e.register d began with
  | (.error error, e) => return (.error (.validation error), e)
  | (.ok mode, e) =>
      let e := if r.waitMs.any (0 < ·) then e.runAllJobs began else e
      match e.number? d.key with
      | none => return (.error (.call (.notFound d.key)), e)
      | some number =>
          let document : Document := ⟨r.documentId, r.score, fields⟩
          match ← callTimes number document args r.iterations .empty e with
          | (.error error, e) => return (.error (.call error), e)
          | (.ok t, e) => return (.ok (runReport e d.key mode t), e)

/-- What a run needs besides its engine. -/
def readInputs (r : RunRequest) :
    Script (Except Failure (Descriptor × Arguments × Fields)) := do
  match ← Manifest.load Script.readFile r.manifest with
  | .error e => return .error (.manifest e)
  | .ok d =>
      match toArguments d r.params with
      | .error f => return .error f
      | .ok args => return (← readFields r.document).map fun fields => (d, args, fields)

def runManifest (defaults : Config) (r : RunRequest) : Script (Except Failure Answer) := do
  match ← readConfig defaults r.config with
  | .error f => return .error f
  | .ok c =>
      match ← openEngine c with
      | .error f => return .error f
      | .ok opened =>
          match ← readInputs r with
          | .error f => return .error f
          | .ok (d, args, fields) =>
              let (result, e) ← runModule opened r d args fields
              saveCache opened e
              return result.map fun report => ⟨report, e.world.host.lines⟩

/-- Check a module and tell what it imports and exports. -/
def inspect (path : String) (maxPages : Nat) : Script (Except Failure Answer) := do
  match ← Script.readFile path with
  | .error fault => return .error (.file fault)
  | .ok bytecode =>
      match ModuleShape.ofBytecode bytecode maxPages with
      | .error e => return .error (.validation e)
      | .ok s => return .ok ⟨ofInspection path bytecode s, []⟩

namespace Request

def script (defaults : Config) : Request → Script (Except Failure Answer)
  | .inspect path maxPages => CommandLine.inspect path maxPages
  | .run r => runManifest defaults r

end Request

end TieredUdf.CommandLine
