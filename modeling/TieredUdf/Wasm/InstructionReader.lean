import TieredUdf.Wasm.Instruction
import TieredUdf.Wasm.Reader

/-!
# Reading instructions

One reader a group of opcodes.  An opcode that no group knows is refused.
-/

namespace TieredUdf.Wasm

open Reader
open Numeric (powerOfTwo)

def ValType.ofCode? (code : UInt8) : Option ValType :=
  match code with
  | 0x7f => some .i32
  | 0x7e => some .i64
  | 0x7d => some .f32
  | 0x7c => some .f64
  | 0x7b => some .v128
  | 0x70 => some .funcref
  | 0x6f => some .externref
  | _ => none

namespace Reader

def ofOption {α : Type} : Option α → Reader α
  | some value => return value
  | none => refuse

/-- Type of a value; `0x63` begins the long form of a reference that may be null. -/
def valType : Reader ValType := do
  let code ← byte
  if code = 0x63 then
    match ← byte with
    | 0x70 => return .funcref
    | 0x6f => return .externref
    | _ => refuse
  else ofOption (ValType.ofCode? code)

def refType : Reader ValType := do
  let t ← valType
  if t.isReference then return t else refuse

/-- What a null reference refers to. -/
def heapType : Reader ValType := do
  match ← byte with
  | 0x70 => return .funcref
  | 0x6f => return .externref
  | _ => refuse

/-- Type of a block.  A type index is a 33-bit integer that is not negative. -/
def blockType : Reader BlockType := fun bytes =>
  match bytes with
  | 0x40 :: rest => some (.empty, rest)
  | code :: rest =>
      match ValType.ofCode? code with
      | some t => some (.value t, rest)
      | none =>
          if code = 0x63 then (valType bytes).map fun (t, rest) => (.value t, rest)
          else match signed 33 bytes with
            | some (i, rest) => if 0 ≤ i then some (.index i.toNat, rest) else none
            | none => none
  | [] => none

/-- Immediate of a memory access.  The sixth bit of the alignment announces a memory index. -/
def memArg : Reader MemArg := do
  let flags ← u32
  if flags < 64 then return ⟨flags, ← u32, 0⟩
  else if flags < 128 then
    let memory ← u32
    return ⟨flags - 64, ← u32, memory⟩
  else refuse

/-- An index that has to be the only one there is. -/
def zeroByte : Reader Unit := do
  if (← byte) = 0 then return () else refuse

end Reader

/-! ### Arithmetic by opcode -/

def intCompares : List IntCompare := [.eq, .ne, .ltS, .ltU, .gtS, .gtU, .leS, .leU, .geS, .geU]

def floatCompares : List FloatCompare := [.eq, .ne, .lt, .gt, .le, .ge]

def intUnaries : List IntUnary := [.clz, .ctz, .popcnt]

def intBinaries : List IntBinary :=
  [.add, .sub, .mul, .divS, .divU, .remS, .remU, .and, .or, .xor, .shl, .shrS, .shrU, .rotl, .rotr]

def floatUnaries : List FloatUnary := [.abs, .neg, .ceil, .floor, .trunc, .nearest, .sqrt]

def floatBinaries : List FloatBinary := [.add, .sub, .mul, .div, .min, .max, .copysign]

/-- The conversions, from the opcode `0xa7` on. -/
def conversions : List Conversion :=
  [.wrap,
   .truncate .w32 .w32 true false, .truncate .w32 .w32 false false,
   .truncate .w64 .w32 true false, .truncate .w64 .w32 false false,
   .extend true, .extend false,
   .truncate .w32 .w64 true false, .truncate .w32 .w64 false false,
   .truncate .w64 .w64 true false, .truncate .w64 .w64 false false,
   .convert .w32 .w32 true, .convert .w32 .w32 false,
   .convert .w64 .w32 true, .convert .w64 .w32 false,
   .demote,
   .convert .w32 .w64 true, .convert .w32 .w64 false,
   .convert .w64 .w64 true, .convert .w64 .w64 false,
   .promote,
   .reinterpretAsInt .w32, .reinterpretAsInt .w64,
   .reinterpretAsFloat .w32, .reinterpretAsFloat .w64]

/-- All arithmetic instructions, from the opcode `0x45` on. -/
def arithmetic : List Instr :=
  List.flatten
    [[.intTest .w32], intCompares.map (.intCompare .w32),
      [.intTest .w64], intCompares.map (.intCompare .w64),
      floatCompares.map (.floatCompare .w32), floatCompares.map (.floatCompare .w64),
      intUnaries.map (.intUnary .w32), intBinaries.map (.intBinary .w32),
      intUnaries.map (.intUnary .w64), intBinaries.map (.intBinary .w64),
      floatUnaries.map (.floatUnary .w32), floatBinaries.map (.floatBinary .w32),
      floatUnaries.map (.floatUnary .w64), floatBinaries.map (.floatBinary .w64),
      conversions.map .convert,
      [.intUnary .w32 (.extend 8), .intUnary .w32 (.extend 16), .intUnary .w64 (.extend 8),
        .intUnary .w64 (.extend 16), .intUnary .w64 (.extend 32)]]

/-- The same by position. -/
def arithmeticTable : Array Instr := arithmetic.toArray

/-- The loads, from the opcode `0x28` on: type, bytes and whether they are signed. -/
def loads : List (ValType × Nat × Bool) :=
  [(.i32, 4, false), (.i64, 8, false), (.f32, 4, false), (.f64, 8, false),
   (.i32, 1, true), (.i32, 1, false), (.i32, 2, true), (.i32, 2, false),
   (.i64, 1, true), (.i64, 1, false), (.i64, 2, true), (.i64, 2, false),
   (.i64, 4, true), (.i64, 4, false)]

/-- The stores, from the opcode `0x36` on: type and bytes. -/
def stores : List (ValType × Nat) :=
  [(.i32, 4), (.i64, 8), (.f32, 4), (.f64, 8), (.i32, 1), (.i32, 2), (.i64, 1), (.i64, 2),
   (.i64, 4)]

/-- Saturating truncations and bulk instructions, after the byte `0xfc`. -/
def bulkInstr : Reader Instr := do
  match ← u32 with
  | 0 => return .convert (.truncate .w32 .w32 true true)
  | 1 => return .convert (.truncate .w32 .w32 false true)
  | 2 => return .convert (.truncate .w64 .w32 true true)
  | 3 => return .convert (.truncate .w64 .w32 false true)
  | 4 => return .convert (.truncate .w32 .w64 true true)
  | 5 => return .convert (.truncate .w32 .w64 false true)
  | 6 => return .convert (.truncate .w64 .w64 true true)
  | 7 => return .convert (.truncate .w64 .w64 false true)
  | 8 => do
      let data ← u32
      return .memoryInit data (← u32)
  | 9 => return .dataDrop (← u32)
  | 10 => do
      let target ← u32
      return .memoryCopy target (← u32)
  | 11 => return .memoryFill (← u32)
  | 12 => do
      let element ← u32
      return .tableInit element (← u32)
  | 13 => return .elemDrop (← u32)
  | 14 => do
      let target ← u32
      return .tableCopy target (← u32)
  | 15 => return .tableGrow (← u32)
  | 16 => return .tableSize (← u32)
  | 17 => return .tableFill (← u32)
  | _ => refuse

/-! ### Vector instructions -/

def accessUpTo (natural : Nat) : Reader (Option Access) := do
  return some ⟨← memArg, natural, false⟩

def lane (count : Nat) : Reader Unit := do
  if (← byte).toNat < count then return () else refuse

/-- Vector opcodes that take one vector and give one. -/
def isVectorUnary (code : Nat) : Bool :=
  [77, 94, 95, 96, 97, 98, 103, 104, 105, 106, 116, 117, 122, 124, 125, 126, 127, 128, 129, 135,
   136, 137, 138, 148, 160, 161, 167, 168, 169, 170, 192, 193, 199, 200, 201, 202, 224, 225, 227,
   236, 237, 239, 248, 249, 250, 251, 252, 253, 254, 255, 257, 258, 259, 260].contains code

def isVectorTest (code : Nat) : Bool :=
  [83, 99, 100, 131, 132, 163, 164, 195, 196].contains code

def isVectorShift (code : Nat) : Bool :=
  [107, 108, 109, 139, 140, 141, 171, 172, 173, 203, 204, 205].contains code

/-- Vector opcodes that take three vectors. -/
def isVectorTernary (code : Nat) : Bool :=
  [82, 261, 262, 263, 264, 265, 266, 267, 268, 275].contains code

/-- Opcodes between 35 and 275 that no instruction has. -/
def isVectorGap (code : Nat) : Bool :=
  [154, 162, 165, 166, 175, 176, 178, 179, 180, 187, 194, 197, 198, 207, 208, 210, 211, 212, 226,
   238].contains code

/-- The lane instructions from 21 on: lanes, type of a lane, and whether one is replaced. -/
def laneInstrs : List (Nat × ValType × Bool) :=
  [(16, .i32, false), (16, .i32, false), (16, .i32, true),
   (8, .i32, false), (8, .i32, false), (8, .i32, true),
   (4, .i32, false), (4, .i32, true), (2, .i64, false), (2, .i64, true),
   (4, .f32, false), (4, .f32, true), (2, .f64, false), (2, .f64, true)]

/-- Types of the operands that are spread over a vector, from 15 on. -/
def splats : List ValType := [.i32, .i32, .i32, .i64, .f32, .f64]

/-- Vector instructions, after the byte `0xfd`. -/
def vectorInstr : Reader Instr := do
  let code ← u32
  if code ≤ 10 then
    let natural := if code = 0 then 4 else if code ≤ 6 then 3 else code - 7
    return .foreign (← accessUpTo natural) [.i32] [.v128]
  else if code = 11 then return .foreign (← accessUpTo 4) [.i32, .v128] []
  else if code = 12 then
    let _ ← take 16
    return .foreign none [] [.v128]
  else if code = 13 then
    let lanes ← take 16
    if lanes.all (· < 32) then return .foreign none [.v128, .v128] [.v128] else refuse
  else if code = 14 then return .foreign none [.v128, .v128] [.v128]
  else if code ≤ 20 then
    let t ← ofOption (splats[code - 15]?)
    return .foreign none [t] [.v128]
  else if code ≤ 34 then
    let (lanes, t, replaces) ← ofOption (laneInstrs[code - 21]?)
    lane lanes
    if replaces then return .foreign none [.v128, t] [.v128]
    else return .foreign none [.v128] [t]
  else if 84 ≤ code ∧ code ≤ 91 then
    let natural := (code - 84) % 4
    let access ← accessUpTo natural
    lane (16 / powerOfTwo natural)
    return .foreign access [.i32, .v128] (if code ≤ 87 then [.v128] else [])
  else if code = 92 then return .foreign (← accessUpTo 2) [.i32] [.v128]
  else if code = 93 then return .foreign (← accessUpTo 3) [.i32] [.v128]
  else if 275 < code ∨ isVectorGap code then refuse
  else if isVectorUnary code then return .foreign none [.v128] [.v128]
  else if isVectorTest code then return .foreign none [.v128] [.i32]
  else if isVectorShift code then return .foreign none [.v128, .i32] [.v128]
  else if isVectorTernary code then return .foreign none [.v128, .v128, .v128] [.v128]
  else return .foreign none [.v128, .v128] [.v128]

/-! ### Shared-memory instructions -/

def accessExact (natural : Nat) : Reader (Option Access) := do
  return some ⟨← memArg, natural, true⟩

def atomicShapes : List (ValType × Nat) :=
  [(.i32, 2), (.i64, 3), (.i32, 0), (.i32, 1), (.i64, 0), (.i64, 1), (.i64, 2)]

/-- Atomic instructions, after the byte `0xfe`. -/
def atomicInstr : Reader Instr := do
  let code ← u32
  if code = 0 then return .foreign (← accessExact 2) [.i32, .i32] [.i32]
  else if code = 1 then return .foreign (← accessExact 2) [.i32, .i32, .i64] [.i32]
  else if code = 2 then return .foreign (← accessExact 3) [.i32, .i64, .i64] [.i32]
  else if code = 3 then
    zeroByte
    return .foreign none [] []
  else if 0x10 ≤ code ∧ code ≤ 0x4e then
    let (t, natural) ← ofOption (atomicShapes[(code - 0x10) % 7]?)
    let access ← accessExact natural
    match (code - 0x10) / 7 with
    | 0 => return .foreign access [.i32] [t]
    | 1 => return .foreign access [.i32, t] []
    | 8 => return .foreign access [.i32, t, t] [t]
    | _ => return .foreign access [.i32, t] [t]
  else refuse

/-! ### All instructions -/

def instr : Reader Instr := do
  let code ← byte
  if 0x45 ≤ code ∧ code ≤ 0xc4 then ofOption (arithmeticTable[code.toNat - 0x45]?)
  else if 0x28 ≤ code ∧ code ≤ 0x35 then
    let (t, bytes, signed) ← ofOption (loads[code.toNat - 0x28]?)
    return .load t bytes signed (← memArg)
  else if 0x36 ≤ code ∧ code ≤ 0x3e then
    let (t, bytes) ← ofOption (stores[code.toNat - 0x36]?)
    return .store t bytes (← memArg)
  else match code with
    | 0x00 => return .unreachable
    | 0x01 => return .nop
    | 0x02 => return .block (← blockType)
    | 0x03 => return .loop (← blockType)
    | 0x04 => return .ifThen (← blockType)
    | 0x05 => return .elseMark
    | 0x0b => return .endMark
    | 0x0c => return .br (← u32)
    | 0x0d => return .brIf (← u32)
    | 0x0e =>
        let labels ← vector u32
        if maxLabels < labels.length then refuse
        return .brTable labels (← u32)
    | 0x0f => return .ret
    | 0x10 => return .call (← u32)
    | 0x11 =>
        let type ← u32
        return .callIndirect type (← u32)
    | 0x12 => return .returnCall (← u32)
    | 0x13 =>
        let type ← u32
        return .returnCallIndirect type (← u32)
    | 0x1a => return .drop
    | 0x1b => return .select none
    | 0x1c =>
        match ← vector valType with
        | [t] => return .select (some t)
        | _ => refuse
    | 0x20 => return .localGet (← u32)
    | 0x21 => return .localSet (← u32)
    | 0x22 => return .localTee (← u32)
    | 0x23 => return .globalGet (← u32)
    | 0x24 => return .globalSet (← u32)
    | 0x25 => return .tableGet (← u32)
    | 0x26 => return .tableSet (← u32)
    | 0x3f => return .memorySize (← u32)
    | 0x40 => return .memoryGrow (← u32)
    | 0x41 => return .const .i32 (.ofInt ((← signed 32) % powerOfTwo 32))
    | 0x42 => return .const .i64 (.ofInt ((← signed 64) % powerOfTwo 64))
    | 0x43 => return .const .f32 (.ofNat (← word 4))
    | 0x44 => return .const .f64 (.ofNat (← word 8))
    | 0xd0 => return .refNull (← heapType)
    | 0xd1 => return .refIsNull
    | 0xd2 => return .refFunc (← u32)
    | 0xfc => bulkInstr
    | 0xfd => vectorInstr
    | 0xfe => atomicInstr
    | _ => refuse

/-- Instructions up to the first `endMark`, which is taken and dropped. -/
def untilEnd : Nat → List Instr → Reader (List Instr)
  | 0, _ => refuse
  | fuel + 1, collected => do
      match ← instr with
      | .endMark => return collected.reverse
      | i => untilEnd fuel (i :: collected)

def constantExpr : Reader (List Instr) := fun bytes => untilEnd bytes.length [] bytes

end TieredUdf.Wasm
