import TieredUdf.Guest.Memory
import TieredUdf.Host.Function
import TieredUdf.Wasm.Arithmetic
import TieredUdf.Wasm.Validity

/-!
# Programs

A program is a valid module made ready to run: its imports are host functions, every construct
of a body knows where it ends, and the values of its segments and globals are computed.
-/

namespace TieredUdf.Wasm

/-! ### Where constructs end -/

/-- A construct that is open while a body is scanned: its position and that of its `elseMark`. -/
structure OpenConstruct where
  start : Nat
  alternative : Option Nat

/-- Positions of the ends and alternatives of the constructs before a position. -/
structure Targets where
  position : Nat
  opened : List OpenConstruct
  ends : Array Nat
  alternatives : Array Nat

namespace Targets

def initial (length : Nat) : Targets :=
  ⟨0, [], Array.replicate length 0, Array.replicate length 0⟩

/-- Scan one instruction.  The position of an `elseMark` ends where its construct does, and a
construct without one has its end as the alternative. -/
def step (t : Targets) (i : Instr) : Targets :=
  let here := t.position
  let t := { t with position := here + 1 }
  match i with
  | .block _ | .loop _ | .ifThen _ => { t with opened := ⟨here, none⟩ :: t.opened }
  | .elseMark =>
      match t.opened with
      | c :: rest => { t with opened := { c with alternative := some here } :: rest }
      | [] => t
  | .endMark =>
      match t.opened with
      | c :: rest =>
          let ends := t.ends.setIfInBounds c.start here
          let ends := match c.alternative with
            | some mark => ends.setIfInBounds mark here
            | none => ends
          { t with
            opened := rest
            ends := ends
            alternatives :=
              t.alternatives.setIfInBounds c.start ((c.alternative.map (· + 1)).getD here) }
      | [] => t
  | _ => t

end Targets

/-! ### Functions and segments -/

structure FunctionCode where
  params : Nat
  results : Nat
  /-- The number of locals that are not parameters. -/
  locals : Nat
  code : Array Instr
  ends : Array Nat
  alternatives : Array Nat
  deriving Inhabited

namespace FunctionCode

def ofBody (t : FuncType) (b : Body) : FunctionCode :=
  let targets := b.code.foldl Targets.step (.initial b.code.length)
  { params := t.params.length
    results := t.results.length
    locals := Numeric.total (b.locals.map Prod.fst)
    code := b.code.toArray
    ends := targets.ends
    alternatives := targets.alternatives }

end FunctionCode

/-- A reference to a function as a word; the null reference is zero. -/
def funcRef (function : Nat) : UInt64 := .ofNat (function + 1)

def evalConstant (stack : List UInt64) (i : Instr) : List UInt64 :=
  match i, stack with
  | .const _ bits, stack => bits :: stack
  | .refNull _, stack => 0 :: stack
  | .refFunc f, stack => funcRef f :: stack
  | .intBinary w op, y :: x :: rest =>
      match op.apply w x y with
      | .ok r => r :: rest
      | .error _ => 0 :: rest
  | _, stack => stack

def constantValue (expr : List Instr) : UInt64 := (expr.foldl evalConstant []).headD 0

/-- A module made ready to run. -/
structure Program where
  module : Module
  types : Array FuncType
  functionTypes : Array FuncType
  /-- The imported functions, which are numbered first. -/
  hosts : Array Host.Function
  functions : Array FunctionCode
  /-- The items of every element segment. -/
  elements : Array (Array UInt64)
  /-- The bytes of every data segment. -/
  data : Array (Array UInt8)
  /-- Whether the host may reach the memory. -/
  exportsMemory : Bool

namespace Program

/-- Whether a body can be run: it has none of the instructions that are only checked, and all
its registers fit. -/
def canRun (t : FuncType) (b : Body) : Bool :=
  b.code.all (fun i => match i with
    | .foreign .. => false
    | _ => true) &&
  b.locals.all (fun l => l.2 != .v128) &&
  decide (t.params.length + Numeric.total (b.locals.map Prod.fst) ≤ 32767)

def hasVector (t : FuncType) : Bool := t.params.contains .v128 || t.results.contains .v128

/-- Whether a module uses only what can be run: no vectors, and at most one memory, which is not
shared. -/
def isSupported (m : Module) (functions : List FuncType) : Bool :=
  decide (m.memoryTypes.length ≤ 1) && m.memoryTypes.all (fun t => !t.shared) &&
    !m.types.any hasVector && m.globals.all (fun g => g.type.value != .v128) &&
    ((functions.drop m.importedFunctions.length).zip m.bodies).all fun (t, b) => canRun t b

/-- The host functions that a module imports; `none` when it imports anything else. -/
def hosts? (m : Module) : Option (List Host.Function) :=
  m.imports.mapM fun i => Host.Function.ofName? i.name

/-- The program of a valid module whose imports are host functions; `none` when it uses what
cannot be run. -/
def ofModule? (m : Module) : Option Program := do
  let functions ← m.functionTypesResolved?
  let hosts ← hosts? m
  if isSupported m functions then
    let defined := functions.drop m.importedFunctions.length
    some
      { module := m
        types := m.types.toArray
        functionTypes := functions.toArray
        hosts := hosts.toArray
        functions := ((defined.zip m.bodies).map fun (t, b) => FunctionCode.ofBody t b).toArray
        elements := (m.elements.map fun e => (e.items.map constantValue).toArray).toArray
        data := (m.data.map fun d => d.bytes.toArray).toArray
        exportsMemory := m.exports.any fun e => e.name == Host.memoryName && e.kind == .memory }
  else none

def exported? (p : Program) (name : String) : Option Nat :=
  (p.module.exports.find? fun e => e.name == name && e.kind == .func).map Export.index

end Program

end TieredUdf.Wasm
