import TieredUdf.Wasm.Type

/-!
# Instructions

A function body is a flat list of instructions, in which `block`, `loop` and `ifThen` open a
construct and `endMark` closes the innermost one.  Arithmetic is grouped by the shape of its
operands.  Vector and shared-memory instructions keep their types alone: such code can be
checked but not run.
-/

namespace TieredUdf.Wasm

inductive Width where
  | w32
  | w64
  deriving DecidableEq, Repr, Inhabited

namespace Width

def int : Width → ValType
  | .w32 => .i32
  | .w64 => .i64

def float : Width → ValType
  | .w32 => .f32
  | .w64 => .f64

def bits : Width → Nat
  | .w32 => 32
  | .w64 => 64

end Width

inductive IntUnary where
  | clz
  | ctz
  | popcnt
  /-- Sign extension from the low bits. -/
  | extend (bits : Nat)
  deriving DecidableEq, Repr

inductive IntBinary where
  | add | sub | mul | divS | divU | remS | remU
  | and | or | xor | shl | shrS | shrU | rotl | rotr
  deriving DecidableEq, Repr

inductive IntCompare where
  | eq | ne | ltS | ltU | gtS | gtU | leS | leU | geS | geU
  deriving DecidableEq, Repr

inductive FloatUnary where
  | abs | neg | ceil | floor | trunc | nearest | sqrt
  deriving DecidableEq, Repr

inductive FloatBinary where
  | add | sub | mul | div | min | max | copysign
  deriving DecidableEq, Repr

inductive FloatCompare where
  | eq | ne | lt | gt | le | ge
  deriving DecidableEq, Repr

inductive Conversion where
  /-- A 64-bit integer to its low 32 bits. -/
  | wrap
  /-- A 32-bit integer to 64 bits. -/
  | extend (signed : Bool)
  /-- A binary number to an integer; a saturating one takes the nearest end of the range. -/
  | truncate (source target : Width) (signed saturating : Bool)
  /-- An integer to the nearest binary number. -/
  | convert (source target : Width) (signed : Bool)
  | demote
  | promote
  | reinterpretAsInt (width : Width)
  | reinterpretAsFloat (width : Width)
  deriving DecidableEq, Repr

/-- Type of a block: no operands and at most one result, or a type of the module. -/
inductive BlockType where
  | empty
  | value (t : ValType)
  | index (i : Nat)
  deriving DecidableEq, Repr, Inhabited

/-- Immediate of a memory access: the alignment as a power of two, the offset and the memory. -/
structure MemArg where
  align : Nat
  offset : Nat
  memory : Nat
  deriving DecidableEq, Repr, Inhabited

/-- An access that is checked only: the largest alignment, and whether a smaller one is
refused. -/
structure Access where
  arg : MemArg
  natural : Nat
  exact : Bool
  deriving DecidableEq, Repr

inductive Instr where
  | unreachable
  | nop
  | block (t : BlockType)
  | loop (t : BlockType)
  | ifThen (t : BlockType)
  | elseMark
  | endMark
  | br (label : Nat)
  | brIf (label : Nat)
  | brTable (labels : List Nat) (otherwise : Nat)
  | ret
  | call (function : Nat)
  | callIndirect (type table : Nat)
  | returnCall (function : Nat)
  | returnCallIndirect (type table : Nat)
  | drop
  | select (t : Option ValType)
  | localGet (i : Nat)
  | localSet (i : Nat)
  | localTee (i : Nat)
  | globalGet (i : Nat)
  | globalSet (i : Nat)
  | tableGet (table : Nat)
  | tableSet (table : Nat)
  | load (t : ValType) (bytes : Nat) (signed : Bool) (arg : MemArg)
  | store (t : ValType) (bytes : Nat) (arg : MemArg)
  | memorySize (memory : Nat)
  | memoryGrow (memory : Nat)
  | const (t : ScalarType) (bits : UInt64)
  | intTest (w : Width)
  | intUnary (w : Width) (op : IntUnary)
  | intBinary (w : Width) (op : IntBinary)
  | intCompare (w : Width) (op : IntCompare)
  | floatUnary (w : Width) (op : FloatUnary)
  | floatBinary (w : Width) (op : FloatBinary)
  | floatCompare (w : Width) (op : FloatCompare)
  | convert (c : Conversion)
  | refNull (t : ValType)
  | refIsNull
  | refFunc (function : Nat)
  | memoryInit (data memory : Nat)
  | dataDrop (data : Nat)
  | memoryCopy (target source : Nat)
  | memoryFill (memory : Nat)
  | tableInit (element table : Nat)
  | elemDrop (element : Nat)
  | tableCopy (target source : Nat)
  | tableGrow (table : Nat)
  | tableSize (table : Nat)
  | tableFill (table : Nat)
  /-- An instruction of which only the types are kept. -/
  | foreign (access : Option Access) (params results : List ValType)
  deriving Inhabited

end TieredUdf.Wasm
