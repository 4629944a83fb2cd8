import TieredUdf.Wasm.Module

/-!
# Typing of instructions

Code is checked in one pass over its instructions.  Each open construct holds the operands that
were pushed inside of it; after an unconditional jump its operands are unknown until its end,
and any type may be popped.
-/

namespace TieredUdf.Wasm

/-- What the instructions of a body may refer to. -/
structure Context where
  types : Array FuncType
  /-- The type of every function. -/
  functions : Array FuncType
  tables : Array TableType
  memories : Array MemoryType
  globals : Array GlobalType
  elements : Array ValType
  /-- The number of data segments, when the module announces it. -/
  dataCount : Option Nat
  /-- Functions that a reference may be taken of. -/
  referable : List Nat
  locals : Array ValType
  results : List ValType

inductive Opener where
  | block
  | loop
  | ifThen
  | elseMark
  deriving DecidableEq, Repr

/-- An open construct: its type, and the operands pushed inside of it, the last one first.  An
operand of unknown type is `none`. -/
structure Construct where
  opener : Opener
  type : FuncType
  operands : List (Option ValType)
  /-- The end is not reached, so that missing operands count as unknown ones. -/
  unreached : Bool

namespace Construct

/-- What a jump to the construct takes. -/
def labelTypes (c : Construct) : List ValType :=
  match c.opener with
  | .loop => c.type.params
  | _ => c.type.results

def push (t : ValType) (c : Construct) : Construct :=
  { c with operands := some t :: c.operands }

def pushAll (ts : List ValType) (c : Construct) : Construct :=
  ts.foldl (fun c t => c.push t) c

def popAny? (c : Construct) : Option (Option ValType × Construct) :=
  match c.operands with
  | t :: rest => some (t, { c with operands := rest })
  | [] => if c.unreached then some (none, c) else none

def pop? (t : ValType) (c : Construct) : Option Construct :=
  match c.popAny? with
  | some (none, c) => some c
  | some (some found, c) => if found = t then some c else none
  | none => none

/-- Pop operands, the last type first. -/
def popAll? (ts : List ValType) (c : Construct) : Option Construct :=
  ts.reverse.foldlM (fun c t => c.pop? t) c

/-- Pop operands and put the same types back. -/
def match? (ts : List ValType) (c : Construct) : Option Construct :=
  (c.popAll? ts).map (pushAll ts)

/-- The rest of the construct is not reached. -/
def abandon (c : Construct) : Construct := { c with operands := [], unreached := true }

def closes (c : Construct) : Bool :=
  match c.popAll? c.type.results with
  | some rest => rest.operands.isEmpty
  | none => false

end Construct

/-- The open constructs, the innermost one first.  The body itself is the last of them, and none
is left after its end. -/
abbrev Typer : Type := List Construct

namespace Context

def blockType? (ctx : Context) : BlockType → Option FuncType
  | .empty => some ⟨[], []⟩
  | .value t => some ⟨[], [t]⟩
  | .index i => ctx.types[i]?

def tableElement? (ctx : Context) (table : Nat) : Option ValType :=
  ctx.tables[table]?.map TableType.element

/-- Whether an access is to a memory that exists and is not aligned too far. -/
def accessOk (ctx : Context) (a : Access) : Bool :=
  decide (a.arg.memory < ctx.memories.size) &&
    (if a.exact then a.arg.align == a.natural else decide (a.arg.align ≤ a.natural))

def hasMemory (ctx : Context) (memory : Nat) : Bool := decide (memory < ctx.memories.size)

/-- The alignment of a word of so many bytes. -/
def naturalAlign (bytes : Nat) : Nat := Nat.log2 bytes

def conversionType : Conversion → ValType × ValType
  | .wrap => (.i64, .i32)
  | .extend _ => (.i32, .i64)
  | .truncate source target _ _ => (source.float, target.int)
  | .convert source target _ => (source.int, target.float)
  | .demote => (.f64, .f32)
  | .promote => (.f32, .f64)
  | .reinterpretAsInt w => (w.float, w.int)
  | .reinterpretAsFloat w => (w.int, w.float)

/-- The type of an instruction that pops and pushes fixed types and jumps nowhere; `none` when a
reference of it is wrong, and for all other instructions. -/
def plainType? (ctx : Context) : Instr → Option (List ValType × List ValType)
  | .nop => some ([], [])
  | .localGet i => ctx.locals[i]?.map fun t => ([], [t])
  | .localSet i => ctx.locals[i]?.map fun t => ([t], [])
  | .localTee i => ctx.locals[i]?.map fun t => ([t], [t])
  | .globalGet i => ctx.globals[i]?.map fun g => ([], [g.value])
  | .globalSet i => do
      let g ← ctx.globals[i]?
      if g.writable then some ([g.value], []) else none
  | .tableGet i => (ctx.tableElement? i).map fun t => ([.i32], [t])
  | .tableSet i => (ctx.tableElement? i).map fun t => ([.i32, t], [])
  | .load t bytes _ arg =>
      if ctx.accessOk ⟨arg, naturalAlign bytes, false⟩ then some ([.i32], [t]) else none
  | .store t bytes arg =>
      if ctx.accessOk ⟨arg, naturalAlign bytes, false⟩ then some ([.i32, t], []) else none
  | .memorySize i => if ctx.hasMemory i then some ([], [.i32]) else none
  | .memoryGrow i => if ctx.hasMemory i then some ([.i32], [.i32]) else none
  | .const t _ => some ([], [.ofScalar t])
  | .intTest w => some ([w.int], [.i32])
  | .intUnary w _ => some ([w.int], [w.int])
  | .intBinary w _ => some ([w.int, w.int], [w.int])
  | .intCompare w _ => some ([w.int, w.int], [.i32])
  | .floatUnary w _ => some ([w.float], [w.float])
  | .floatBinary w _ => some ([w.float, w.float], [w.float])
  | .floatCompare w _ => some ([w.float, w.float], [.i32])
  | .convert c => some ([(conversionType c).1], [(conversionType c).2])
  | .refNull t => some ([], [t])
  | .refFunc f =>
      if f < ctx.functions.size ∧ ctx.referable.contains f then some ([], [.funcref]) else none
  | .memoryInit data memory => do
      let count ← ctx.dataCount
      if data < count ∧ ctx.hasMemory memory then some ([.i32, .i32, .i32], []) else none
  | .dataDrop data => do
      let count ← ctx.dataCount
      if data < count then some ([], []) else none
  | .memoryCopy target source =>
      if ctx.hasMemory target ∧ ctx.hasMemory source then some ([.i32, .i32, .i32], []) else none
  | .memoryFill i => if ctx.hasMemory i then some ([.i32, .i32, .i32], []) else none
  | .tableInit element table => do
      let t ← ctx.tableElement? table
      let e ← ctx.elements[element]?
      if t = e then some ([.i32, .i32, .i32], []) else none
  | .elemDrop element => do
      let _ ← ctx.elements[element]?
      some ([], [])
  | .tableCopy target source => do
      let t ← ctx.tableElement? target
      let s ← ctx.tableElement? source
      if t = s then some ([.i32, .i32, .i32], []) else none
  | .tableGrow i => (ctx.tableElement? i).map fun t => ([t, .i32], [.i32])
  | .tableSize i => (ctx.tableElement? i).map fun _ => ([], [.i32])
  | .tableFill i => (ctx.tableElement? i).map fun t => ([.i32, t, .i32], [])
  | .call f => ctx.functions[f]?.map fun t => (t.params, t.results)
  | .callIndirect type table => do
      let element ← ctx.tableElement? table
      let t ← ctx.types[type]?
      if element = .funcref then some (t.params ++ [.i32], t.results) else none
  | .foreign access params results =>
      if access.all ctx.accessOk then some (params, results) else none
  | _ => none

def open? (ctx : Context) (opener : Opener) (t : BlockType) : Typer → Option Typer
  | [] => none
  | c :: rest => do
      let type ← ctx.blockType? t
      let c ← c.popAll? type.params
      return Construct.pushAll type.params ⟨opener, type, [], false⟩ :: c :: rest

/-- Leave through a label: what it takes has to be on top. -/
def jump? (types : List ValType) : Typer → Option Typer
  | [] => none
  | c :: rest => (c.popAll? types).map fun c => c.abandon :: rest

def label? (typer : Typer) (label : Nat) : Option (List ValType) :=
  typer[label]?.map Construct.labelTypes

/-- Check a `select` without a type: two numbers of one type. -/
def select? (c : Construct) : Option Construct := do
  let c ← c.pop? .i32
  let (a, c) ← c.popAny?
  let (b, c) ← c.popAny?
  match a, b with
  | some t, some u => if t = u ∧ ¬t.isReference then some (c.push t) else none
  | some t, none | none, some t => if t.isReference then none else some (c.push t)
  | none, none => some { c with operands := none :: c.operands }

def step? (ctx : Context) (typer : Typer) (i : Instr) : Option Typer :=
  match typer with
  | [] => none
  | c :: rest =>
      match i with
      | .unreachable => some (c.abandon :: rest)
      | .block t => ctx.open? .block t typer
      | .loop t => ctx.open? .loop t typer
      | .ifThen t => do ctx.open? .ifThen t ((← c.pop? .i32) :: rest)
      | .elseMark =>
          if c.opener = .ifThen ∧ c.closes then
            some (Construct.pushAll c.type.params ⟨.elseMark, c.type, [], false⟩ :: rest)
          else none
      | .endMark =>
          if c.closes ∧ (c.opener ≠ .ifThen ∨ c.type.params = c.type.results) then
            match rest with
            | [] => some []
            | outer :: rest => some (outer.pushAll c.type.results :: rest)
          else none
      | .br label => do jump? (← label? typer label) typer
      | .brIf label => do
          let types ← label? typer label
          let c ← c.pop? .i32
          return (← c.match? types) :: rest
      | .brTable labels otherwise => do
          let c ← c.pop? .i32
          let types ← label? typer otherwise
          let agrees (label : Nat) : Bool := match label? typer label with
            | some ts => ts.length == types.length && (c.popAll? ts).isSome
            | none => false
          if labels.all agrees then jump? types (c :: rest) else none
      | .ret => jump? ctx.results typer
      | .returnCall f => do
          let t ← ctx.functions[f]?
          if t.results = ctx.results then jump? t.params typer else none
      | .returnCallIndirect type table => do
          let element ← ctx.tableElement? table
          let t ← ctx.types[type]?
          if element = .funcref ∧ t.results = ctx.results then
            jump? (t.params ++ [.i32]) typer
          else none
      | .drop => c.popAny?.map fun (_, c) => c :: rest
      | .select none => (select? c).map (· :: rest)
      | .select (some t) => (c.popAll? [t, t, .i32]).map fun c => c.push t :: rest
      | .refIsNull => do
          let (t, c) ← c.popAny?
          if t.all ValType.isReference then some (c.push .i32 :: rest) else none
      | i => do
          let (params, results) ← ctx.plainType? i
          return (← c.popAll? params).pushAll results :: rest

/-- Check code that takes nothing and leaves the results of the context. -/
def codeOk (ctx : Context) (code : List Instr) : Bool :=
  match code.foldlM ctx.step? [⟨.block, ⟨[], ctx.results⟩, [], false⟩] with
  | some [] => true
  | _ => false

end Context

end TieredUdf.Wasm
