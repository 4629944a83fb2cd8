import TieredUdf.Wasm.InstructionReader
import TieredUdf.Wasm.Module

/-!
# Reading modules

A module is eight bytes of heading and then sections, each with its number, its length and its
content.  Sections with a number other than 0 come at most once and in a fixed order; those with
the number 0 carry a name and nothing that matters here.
-/

namespace TieredUdf.Wasm

namespace Reader

def funcType : Reader FuncType := do
  if (← byte) ≠ 0x60 then refuse
  let params ← vector valType
  return ⟨params, ← vector valType⟩

/-- Limits whose maximum is present when the lowest bit of the flags is set. -/
def limits (flags : UInt8) : Reader Limits := do
  let initial ← u32
  if flags % 2 = 1 then return ⟨initial, some (← u32)⟩
  else return ⟨initial, none⟩

def tableType : Reader TableType := do
  let element ← refType
  let flags ← byte
  if 1 < flags then refuse
  return ⟨element, ← limits flags⟩

/-- The second bit of the flags marks a memory as shared; no higher bit is known. -/
def memoryType : Reader MemoryType := do
  let flags ← byte
  if 3 < flags then refuse
  return ⟨← limits flags, flags ≥ 2⟩

def globalType : Reader GlobalType := do
  let value ← valType
  match ← byte with
  | 0 => return ⟨value, false⟩
  | 1 => return ⟨value, true⟩
  | _ => refuse

def importEntry : Reader Import := do
  let module ← text
  let name ← text
  match ← byte with
  | 0 => return ⟨module, name, .func (← u32)⟩
  | 1 => return ⟨module, name, .table (← tableType)⟩
  | 2 => return ⟨module, name, .memory (← memoryType)⟩
  | 3 => return ⟨module, name, .global (← globalType)⟩
  | _ => refuse

def globalDef : Reader GlobalDef := do
  let type ← globalType
  return ⟨type, ← constantExpr⟩

def exportEntry : Reader Export := do
  let name ← text
  let kind ← match ← byte with
    | 0 => pure ExportKind.func
    | 1 => pure ExportKind.table
    | 2 => pure ExportKind.memory
    | 3 => pure ExportKind.global
    | _ => refuse
  return ⟨name, kind, ← u32⟩

/-- Functions as constant expressions. -/
def functionItems : Reader (List (List Instr)) := do
  return (← vector u32).map fun f => [.refFunc f]

/-- An element segment.  The lowest bit of the flags makes it passive or declared, the second
one gives it a table of its own or declares it, and the third one writes its items as
expressions. -/
def elementSegment : Reader ElementSegment := do
  let flags ← u32
  if 7 < flags then refuse
  let asExprs := 4 ≤ flags
  let explicit := flags / 2 % 2 = 1
  let mode ← if flags % 2 = 1 then
      pure (if explicit then SegmentMode.declared else .passive)
    else do
      let table ← if explicit then u32 else pure 0
      pure (.active table (← constantExpr))
  let type ← if flags % 4 = 0 then pure ValType.funcref
    else if asExprs then refType
    else do
      zeroByte
      pure .funcref
  let items ← if asExprs then vector constantExpr else functionItems
  return ⟨mode, type, items⟩

def dataSegment : Reader DataSegment := do
  let mode ← match ← u32 with
    | 0 => do pure (SegmentMode.active 0 (← constantExpr))
    | 1 => pure .passive
    | 2 => do
        let memory ← u32
        pure (.active memory (← constantExpr))
    | _ => refuse
  let length ← u32
  return ⟨mode, ← take length⟩

def localGroup : Reader (Nat × ValType) := do
  let count ← u32
  return (count, ← valType)

/-- A body fills the bytes that its length announces. -/
def body : Reader Body := do
  let content ← take (← u32)
  match vector localGroup content with
  | some (locals, code) =>
      match allOf instr code with
      | some code => return ⟨locals, code⟩
      | none => refuse
  | none => refuse

end Reader

structure Section where
  id : UInt8
  content : List UInt8

namespace Section

def reader : Reader Section := do
  let id ← Reader.byte
  return ⟨id, ← Reader.take (← Reader.u32)⟩

/-- Where a section stands among the others; `none` for an unknown number. -/
def rank? (id : UInt8) : Option Nat :=
  match id with
  | 1 => some 1
  | 2 => some 2
  | 3 => some 3
  | 4 => some 4
  | 5 => some 5
  | 6 => some 6
  | 7 => some 7
  | 8 => some 8
  | 9 => some 9
  | 12 => some 10
  | 10 => some 11
  | 11 => some 12
  | _ => none

def addTo? (s : Section) (m : Module) : Option Module :=
  let vectorOf {α : Type} (item : Reader α) := Reader.whole (Reader.vector item) s.content
  match s.id with
  | 1 => (vectorOf Reader.funcType).map fun x => { m with types := x }
  | 2 => (vectorOf Reader.importEntry).map fun x => { m with imports := x }
  | 3 => (vectorOf Reader.u32).map fun x => { m with functions := x }
  | 4 => (vectorOf Reader.tableType).map fun x => { m with tables := x }
  | 5 => (vectorOf Reader.memoryType).map fun x => { m with memories := x }
  | 6 => (vectorOf Reader.globalDef).map fun x => { m with globals := x }
  | 7 => (vectorOf Reader.exportEntry).map fun x => { m with exports := x }
  | 8 => (Reader.whole Reader.u32 s.content).map fun x => { m with start := some x }
  | 9 => (vectorOf Reader.elementSegment).map fun x => { m with elements := x }
  | 10 => (vectorOf Reader.body).map fun x => { m with bodies := x }
  | 11 => (vectorOf Reader.dataSegment).map fun x => { m with data := x }
  | 12 => (Reader.whole Reader.u32 s.content).map fun x => { m with dataCount := some x }
  | _ => none

/-- Whether the content of a section with the number 0 begins with a name. -/
def isNamed (s : Section) : Bool := (Reader.text s.content).isSome

/-- Add sections in order; `rank` is that of the last one that was not named. -/
def addAll? : List Section → Nat → Module → Option Module
  | [], _, m => some m
  | s :: rest, rank, m =>
      if s.id = 0 then if s.isNamed then addAll? rest rank m else none
      else do
        let next ← rank? s.id
        guard (rank < next)
        addAll? rest next (← s.addTo? m)

end Section

namespace Module

def heading : List UInt8 := [0x00, 0x61, 0x73, 0x6d, 0x01, 0x00, 0x00, 0x00]

/-- The first eight bytes of a component; only one without content is read, as a module that
declares nothing. -/
def componentHeading : List UInt8 := [0x00, 0x61, 0x73, 0x6d, 0x0d, 0x00, 0x01, 0x00]

/-- The module that some bytes write, its rules not yet checked. -/
def decode? (bytes : List UInt8) : Option Module := do
  let sections ← Reader.allOf Section.reader (bytes.drop 8)
  if bytes.take 8 = heading then Section.addAll? sections 0 empty
  else if bytes.take 8 = componentHeading then
    if sections.all fun s => s.id == 0 && s.isNamed then some empty else none
  else none

end Module

end TieredUdf.Wasm
