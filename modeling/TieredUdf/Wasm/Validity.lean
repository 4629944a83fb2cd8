import TieredUdf.Wasm.ModuleReader
import TieredUdf.Wasm.Typing

/-!
# Valid modules

A module is valid when every index in it refers to something, its limits are in range, its
exports have different names and all its code is well typed.
-/

namespace TieredUdf.Wasm

namespace Limits

/-- Whether the limits stay below a bound and the minimum is not above the maximum. -/
def inRange (l : Limits) (bound : Nat) : Bool :=
  decide (l.initial ≤ bound) && l.maximum.all fun m => decide (l.initial ≤ m)

end Limits

namespace MemoryType

/-- A memory may have no more than the greatest number of pages, and a shared one says how many
it may have. -/
def isValid (t : MemoryType) : Bool :=
  t.limits.inRange maxPages && t.limits.maximum.all (fun m => decide (m ≤ maxPages)) &&
    (!t.shared || t.limits.maximum.isSome)

end MemoryType

namespace FuncType

def isValid (t : FuncType) : Bool :=
  decide (t.params.length ≤ maxSignatureLength ∧ t.results.length ≤ maxSignatureLength)

end FuncType

/-- Functions that a list of constant expressions refers to. -/
def referredFunctions (exprs : List (List Instr)) : List Nat :=
  exprs.flatten.filterMap fun i => match i with
    | .refFunc f => some f
    | _ => none

namespace Module

/-- Functions that code may take a reference of: those exported, and those that an element or
the value of a global refers to. -/
def referable (m : Module) : List Nat :=
  (m.exports.filterMap fun e => if e.kind = .func then some e.index else none) ++
    m.elements.flatMap (fun e => referredFunctions e.items) ++
    referredFunctions (m.globals.map GlobalDef.init)

def functionTypesResolved? (m : Module) : Option (List FuncType) :=
  m.functionTypes.mapM fun t => m.types[t]?

/-- What the bodies of a module may refer to, given the types of its functions. -/
def context (m : Module) (functions : List FuncType) : Context where
  types := m.types.toArray
  functions := functions.toArray
  tables := m.tableTypes.toArray
  memories := m.memoryTypes.toArray
  globals := m.globalTypes.toArray
  elements := (m.elements.map ElementSegment.type).toArray
  dataCount := m.dataCount
  referable := m.referable
  locals := #[]
  results := []

/-- Whether an instruction may stand in a constant expression.  Only an imported global that
never changes has a constant value. -/
def isConstant (m : Module) : Instr → Bool
  | .const .. | .refNull _ | .refFunc _ => true
  | .foreign none [] [.v128] => true
  | .globalGet i => match m.importedGlobals[i]? with
      | some g => !g.writable
      | none => false
  | .intBinary _ .add | .intBinary _ .sub | .intBinary _ .mul => true
  | _ => false

/-- Whether a constant expression has a given type.  It may refer to every function. -/
def exprOk (m : Module) (ctx : Context) (t : ValType) (expr : List Instr) : Bool :=
  let ctx := { ctx with referable := List.range ctx.functions.size, results := [t] }
  expr.all m.isConstant && ctx.codeOk (expr ++ [.endMark])

def exportOk (m : Module) (ctx : Context) (e : Export) : Bool :=
  match e.kind with
  | .func => decide (e.index < ctx.functions.size)
  | .table => decide (e.index < ctx.tables.size)
  | .memory => decide (e.index < ctx.memories.size)
  | .global => decide (e.index < m.globalTypes.length)

def elementOk (m : Module) (ctx : Context) (e : ElementSegment) : Bool :=
  e.items.all (m.exprOk ctx e.type) &&
    match e.mode with
    | .active table offset =>
        ctx.tableElement? table == some e.type && m.exprOk ctx .i32 offset
    | _ => true

def dataOk (m : Module) (ctx : Context) (d : DataSegment) : Bool :=
  match d.mode with
  | .active memory offset => ctx.hasMemory memory && m.exprOk ctx .i32 offset
  | _ => true

def importOk (m : Module) (i : Import) : Bool :=
  match i.kind with
  | .func t => decide (t < m.types.length)
  | .table t => t.limits.inRange maxTableElements
  | .memory t => t.isValid
  | .global _ => true

def bodyOk (ctx : Context) (t : FuncType) (b : Body) : Bool :=
  let count := t.params.length + Numeric.total (b.locals.map Prod.fst)
  if maxLocals < count then false
  else
    let locals := b.locals.foldl (fun ls (n, t) => ls ++ Array.replicate n t) t.params.toArray
    { ctx with locals := locals, results := t.results }.codeOk b.code

/-- Whether the function that runs first exists and takes and gives nothing. -/
def startOk (m : Module) : Bool :=
  match m.start with
  | none => true
  | some f => m.functionType? f == some ⟨[], []⟩

/-- Whether the number of data segments is the one announced. -/
def dataCountOk (m : Module) : Bool :=
  m.dataCount.all fun n => n == m.data.length

/-- The size of a module: one for itself, one for each import and export, and one for each
parameter and result of the functions among them. -/
def size (m : Module) (functions : List FuncType) : Nat :=
  let imported := functions.take m.importedFunctions.length
  let exported := m.exports.filterMap fun e => if e.kind = .func then functions[e.index]? else none
  1 + m.imports.length + m.exports.length +
    Numeric.total ((imported ++ exported).map fun t => t.params.length + t.results.length)

def countsOk (m : Module) (functions : List FuncType) : Bool :=
  decide (m.types.length ≤ maxDeclarations ∧ functions.length ≤ maxDeclarations ∧
    m.globalTypes.length ≤ maxDeclarations ∧ m.exports.length ≤ maxDeclarations ∧
    m.elements.length ≤ maxSegments ∧ m.data.length ≤ maxSegments ∧
    m.size functions < maxModuleSize) &&
    m.elements.all fun e => decide (e.items.length ≤ maxTableElements)

def allDistinct : List String → Bool
  | [] => true
  | n :: rest => !rest.contains n && allDistinct rest

def isValid (m : Module) : Bool :=
  match m.functionTypesResolved? with
  | none => false
  | some functions =>
      let ctx := m.context functions
      m.types.all FuncType.isValid && m.imports.all m.importOk &&
      m.tables.all (fun t => t.limits.inRange maxTableElements) &&
      m.memories.all MemoryType.isValid &&
      decide (m.memoryTypes.length ≤ maxStores ∧ m.tableTypes.length ≤ maxStores) &&
      m.globals.all (fun g => m.exprOk ctx g.type.value g.init) &&
      m.exports.all (m.exportOk ctx) && allDistinct (m.exports.map Export.name) &&
      m.startOk && m.elements.all (m.elementOk ctx) && m.dataCountOk &&
      decide (m.functions.length = m.bodies.length) &&
      ((functions.drop m.importedFunctions.length).zip m.bodies).all
        (fun (t, b) => bodyOk ctx t b) &&
      m.data.all (m.dataOk ctx) && m.countsOk functions

def ofBytes? (bytes : List UInt8) : Option Module :=
  match decode? bytes with
  | some m => if m.isValid then some m else none
  | none => none

end Module

end TieredUdf.Wasm
