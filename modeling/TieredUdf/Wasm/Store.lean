import TieredUdf.Wasm.Program

/-!
# Stores

What a running module changes: its memory, its tables and its globals, and which segments it has
dropped.  Words in memory are little-endian.
-/

namespace TieredUdf.Wasm

open Guest (Memory)

structure Store where
  memory : Memory
  /-- The greatest number of pages the memory may grow to. -/
  maxPages : Nat
  tables : Array (Array UInt64)
  globals : Array UInt64
  droppedElements : Array Bool
  droppedData : Array Bool
  deriving Inhabited

namespace Store

/-! ### Memory -/

def readWord (m : Memory) : Nat → Nat → UInt64
  | _, 0 => 0
  | i, count + 1 => (m.byte i).toUInt64 ||| (readWord m (i + 1) count <<< 8)

def writeWord (m : Memory) : Nat → Nat → UInt64 → Memory
  | _, 0, _ => m
  | i, count + 1, word => writeWord (m.setByte i word.toUInt8) (i + 1) count (word >>> 8)

def extendLoaded (t : ValType) (bytes : Nat) (signed : Bool) (word : UInt64) : UInt64 :=
  if signed then
    .ofNat (IntUnary.signExtend (if t = .i64 then 64 else 32) (8 * bytes) word.toNat)
  else word

/-- Load a word; the whole of it has to lie inside of the memory. -/
def load (s : Store) (t : ValType) (bytes : Nat) (signed : Bool) (address : Nat) :
    Except Trap UInt64 :=
  if s.memory.covers address bytes then
    .ok (extendLoaded t bytes signed (readWord s.memory address bytes))
  else .error .memoryOutOfBounds

def store (s : Store) (bytes address : Nat) (word : UInt64) : Except Trap Store :=
  if s.memory.covers address bytes then
    .ok { s with memory := writeWord s.memory address bytes word }
  else .error .memoryOutOfBounds

def pages (s : Store) : Nat := s.memory.size / pageSize

/-- Add pages; the answer is the number before, or all ones when there would be too many. -/
def growMemory (s : Store) (extra : Nat) : Store × UInt64 :=
  let before := s.pages
  if before + extra ≤ s.maxPages then
    ({ s with memory := s.memory.grow (extra * pageSize) }, .ofNat before)
  else (s, 0xffffffff)

def fillMemory (s : Store) (start length : Nat) (byte : UInt8) : Except Trap Store :=
  if s.memory.covers start length then
    .ok { s with memory := s.memory.setBytes start (List.replicate length byte) }
  else .error .memoryOutOfBounds

/-- Copy a range, as if through a buffer. -/
def copyMemory (s : Store) (target source length : Nat) : Except Trap Store :=
  if s.memory.covers target length && s.memory.covers source length then
    .ok { s with memory := s.memory.setBytes target (s.memory.bytes source length) }
  else .error .memoryOutOfBounds

/-- Copy a part of a data segment; a dropped one is empty. -/
def initMemory (s : Store) (p : Program) (segment target source length : Nat) :
    Except Trap Store :=
  let data := if s.droppedData.getD segment true then #[] else p.data.getD segment #[]
  if source + length ≤ data.size ∧ s.memory.covers target length then
    let bytes := (data.extract source (source + length)).toList
    .ok { s with memory := s.memory.setBytes target bytes }
  else .error .memoryOutOfBounds

def dropData (s : Store) (segment : Nat) : Store :=
  { s with droppedData := s.droppedData.setIfInBounds segment true }

/-! ### Tables -/

def table (s : Store) (i : Nat) : Array UInt64 := s.tables.getD i #[]

def setTable (s : Store) (i : Nat) (items : Array UInt64) : Store :=
  { s with tables := s.tables.setIfInBounds i items }

def tableGet (s : Store) (i index : Nat) : Except Trap UInt64 :=
  match (s.table i)[index]? with
  | some item => .ok item
  | none => .error .tableOutOfBounds

def writeItems (items : Array UInt64) : Nat → List UInt64 → Array UInt64
  | _, [] => items
  | i, item :: rest => writeItems (items.setIfInBounds i item) (i + 1) rest

def tablePut (s : Store) (i start : Nat) (items : List UInt64) : Except Trap Store :=
  if start + items.length ≤ (s.table i).size then
    .ok (s.setTable i (writeItems (s.table i) start items))
  else .error .tableOutOfBounds

def tableCopy (s : Store) (target source place start length : Nat) : Except Trap Store :=
  if start + length ≤ (s.table source).size then
    s.tablePut target place ((s.table source).extract start (start + length)).toList
  else .error .tableOutOfBounds

/-- Copy a part of an element segment; a dropped one is empty. -/
def tableInit (s : Store) (p : Program) (segment i target source length : Nat) :
    Except Trap Store :=
  let items := if s.droppedElements.getD segment true then #[] else p.elements.getD segment #[]
  if source + length ≤ items.size then
    s.tablePut i target (items.extract source (source + length)).toList
  else .error .tableOutOfBounds

def dropElement (s : Store) (segment : Nat) : Store :=
  { s with droppedElements := s.droppedElements.setIfInBounds segment true }

/-- Add items; the answer is the size before, or all ones when there would be too many. -/
def growTable (s : Store) (p : Program) (i extra : Nat) (item : UInt64) : Store × UInt64 :=
  let items := s.table i
  let limit := match p.module.tables[i]? with
    | some t => t.limits.maximum.getD Numeric.maxWord32
    | none => 0
  if items.size + extra ≤ min limit maxTableElements then
    (s.setTable i (items ++ Array.replicate extra item), .ofNat items.size)
  else (s, 0xffffffff)

/-! ### Instantiation -/

/-- The store before segments are copied. -/
def initial (p : Program) (pageLimit : Nat) : Store :=
  let memory := p.module.memories.head?
  { memory := .zeros ((memory.map fun t => t.limits.initial * pageSize).getD 0)
    maxPages := match memory with
      | some t => min pageLimit (t.limits.maximum.getD Wasm.maxPages)
      | none => 0
    tables := (p.module.tables.map fun t => Array.replicate t.limits.initial 0).toArray
    globals := (p.module.globals.map fun g => constantValue g.init).toArray
    droppedElements := Array.replicate p.elements.size false
    droppedData := Array.replicate p.data.size false }

/-- The low half of a word as an address. -/
def address (word : UInt64) : Nat := word.toUInt32.toNat

def copyElements (p : Program) (s : Store) : Except Trap Store :=
  p.module.elements.zipIdx.foldlM (fun s (e, i) =>
    match e.mode with
    | .passive => .ok s
    | .declared => .ok (s.dropElement i)
    | .active table offset => do
        let s ← s.tableInit p i table (address (constantValue offset)) 0 e.items.length
        return s.dropElement i) s

def copyData (p : Program) (s : Store) : Except Trap Store :=
  p.module.data.zipIdx.foldlM (fun s (d, i) =>
    match d.mode with
    | .active _ offset => do
        let s ← s.initMemory p i (address (constantValue offset)) 0 d.bytes.length
        return s.dropData i
    | _ => .ok s) s

def instantiate (p : Program) (pageLimit : Nat) : Except Trap Store := do
  copyData p (← copyElements p (initial p pageLimit))

end Store

end TieredUdf.Wasm
