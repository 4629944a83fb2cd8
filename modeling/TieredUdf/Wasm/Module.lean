import TieredUdf.Wasm.Instruction

/-!
# Modules

The parts of a module in the order of their sections, and the index spaces that they share:
imported functions, tables, memories and globals are numbered before those the module defines.
-/

namespace TieredUdf.Wasm

/-- What an import asks for. -/
inductive ImportKind where
  | func (type : Nat)
  | table (t : TableType)
  | memory (t : MemoryType)
  | global (t : GlobalType)
  deriving DecidableEq, Repr, Inhabited

structure Import where
  module : String
  name : String
  kind : ImportKind
  deriving DecidableEq, Repr, Inhabited

inductive ExportKind where
  | func
  | table
  | memory
  | global
  deriving DecidableEq, Repr, Inhabited

structure Export where
  name : String
  kind : ExportKind
  index : Nat
  deriving DecidableEq, Repr, Inhabited

structure GlobalDef where
  type : GlobalType
  init : List Instr
  deriving Inhabited

/-- What is done with a segment when the module is instantiated. -/
inductive SegmentMode where
  | passive
  | declared
  /-- Copied into a table or memory at an offset. -/
  | active (target : Nat) (offset : List Instr)
  deriving Inhabited

structure ElementSegment where
  mode : SegmentMode
  type : ValType
  items : List (List Instr)
  deriving Inhabited

structure DataSegment where
  mode : SegmentMode
  bytes : List UInt8
  deriving Inhabited

/-- A function body; the locals come in groups of one type. -/
structure Body where
  locals : List (Nat × ValType)
  code : List Instr
  deriving Inhabited

structure Module where
  types : List FuncType
  imports : List Import
  /-- Type indexes of the functions that the module defines. -/
  functions : List Nat
  tables : List TableType
  memories : List MemoryType
  globals : List GlobalDef
  exports : List Export
  start : Option Nat
  elements : List ElementSegment
  dataCount : Option Nat
  bodies : List Body
  data : List DataSegment
  deriving Inhabited

namespace Module

def empty : Module := ⟨[], [], [], [], [], [], [], none, [], none, [], []⟩

def importedFunctions (m : Module) : List Nat :=
  m.imports.filterMap fun i => match i.kind with
    | .func t => some t
    | _ => none

def functionTypes (m : Module) : List Nat := m.importedFunctions ++ m.functions

def tableTypes (m : Module) : List TableType :=
  (m.imports.filterMap fun i => match i.kind with
    | .table t => some t
    | _ => none) ++ m.tables

def memoryTypes (m : Module) : List MemoryType :=
  (m.imports.filterMap fun i => match i.kind with
    | .memory t => some t
    | _ => none) ++ m.memories

def importedGlobals (m : Module) : List GlobalType :=
  m.imports.filterMap fun i => match i.kind with
    | .global t => some t
    | _ => none

def globalTypes (m : Module) : List GlobalType :=
  m.importedGlobals ++ m.globals.map GlobalDef.type

/-- The type of a function of the index space. -/
def functionType? (m : Module) (index : Nat) : Option FuncType := do
  let type ← m.functionTypes[index]?
  m.types[type]?

end Module

end TieredUdf.Wasm
