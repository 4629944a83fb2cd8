import TieredUdf.Guest.Dialogue
import TieredUdf.Wasm.Store

/-!
# The machine

Runs the functions of a program.  A frame holds the operands of the innermost construct alone;
every label keeps the operands below it, so that a jump puts its values on top of them.  Each
instruction takes one unit of fuel, and a call of a host function hands over to the host.
-/

namespace TieredUdf.Wasm

open Guest (Memory Dialogue)
open Numeric (Double Single)

/-- An open construct of a running function. -/
structure Label where
  /-- How many values a jump to it takes. -/
  arity : Nat
  /-- Where a jump to it goes on. -/
  target : Nat
  isLoop : Bool
  /-- The operands below it. -/
  below : List UInt64

/-- A function that runs or waits for one that it called. -/
structure Frame where
  function : FunctionCode
  pc : Nat
  locals : Array UInt64
  operands : List UInt64
  labels : List Label

/-- Where a run stands: the running function and those that wait for it. -/
structure Control where
  frame : Frame
  callers : List Frame
  /-- The number of frames. -/
  depth : Nat

inductive StepResult where
  | next (store : Store) (c : Control)
  | trap (t : Trap)
  | ask (call : Host.Call) (store : Store) (c : Control)
  | done (results : List UInt64) (store : Store)

/-! ### Scalars and words -/

def wordOfScalar : Scalar → UInt64
  | .i32 n => n.toUInt32.toUInt64
  | .i64 n => n.toUInt64
  | .f32 x => x.bits.toUInt64
  | .f64 x => x.bits

def scalarOfWord (t : ScalarType) (word : UInt64) : Scalar :=
  match t with
  | .i32 => .i32 word.toUInt32.toInt32
  | .i64 => .i64 word.toInt64
  | .f32 => .f32 ⟨word.toUInt32⟩
  | .f64 => .f64 ⟨word⟩

namespace Control

/-! ### Moving on -/

/-- Go on after the current instruction with other operands. -/
def goOn (c : Control) (operands : List UInt64) : Control :=
  { c with frame := { c.frame with pc := c.frame.pc + 1, operands := operands } }

def setLocal (c : Control) (i : Nat) (word : UInt64) (operands : List UInt64) : Control :=
  { c with frame := { c.frame with
    pc := c.frame.pc + 1
    operands := operands
    locals := c.frame.locals.setIfInBounds i word } }

/-- Leave the function with its results on top of the operands. -/
def leave (c : Control) (store : Store) (operands : List UInt64) : StepResult :=
  let results := operands.take c.frame.function.results
  match c.callers with
  | [] => .done results.reverse store
  | caller :: rest =>
      .next store ⟨{ caller with operands := results ++ caller.operands }, rest, c.depth - 1⟩

/-- Jump to a label; one beyond all labels leaves the function. -/
def jump (c : Control) (store : Store) (label : Nat) (operands : List UInt64) : StepResult :=
  match c.frame.labels.drop label with
  | [] => c.leave store operands
  | l :: outer =>
      let values := operands.take l.arity
      if l.isLoop then
        .next store { c with frame := { c.frame with
          pc := l.target, operands := values, labels := l :: outer } }
      else
        .next store { c with frame := { c.frame with
          pc := l.target, operands := values ++ l.below, labels := outer } }

/-- The number of operands and results of a block. -/
def blockArity (p : Program) : BlockType → Nat × Nat
  | .empty => (0, 0)
  | .value _ => (0, 1)
  | .index i =>
      let t := p.types.getD i default
      (t.params.length, t.results.length)

def enter (c : Control) (p : Program) (t : BlockType) (isLoop : Bool) (pc : Nat)
    (operands : List UInt64) : Control :=
  let (params, results) := blockArity p t
  let label : Label :=
    if isLoop then ⟨params, c.frame.pc + 1, true, operands.drop params⟩
    else ⟨results, c.frame.function.ends.getD c.frame.pc 0 + 1, false, operands.drop params⟩
  { c with frame := { c.frame with
    pc := pc, operands := operands.take params, labels := label :: c.frame.labels } }

def close (c : Control) (store : Store) : StepResult :=
  match c.frame.labels with
  | [] => c.leave store c.frame.operands
  | l :: outer =>
      .next store { c with frame := { c.frame with
        pc := c.frame.pc + 1, operands := c.frame.operands ++ l.below, labels := outer } }

/-! ### Calls -/

/-- The frame of a function at its start, its arguments on top of the operands. -/
def frameOf (f : FunctionCode) (operands : List UInt64) : Frame :=
  { function := f
    pc := 0
    locals := (operands.take f.params).reverse.toArray ++ Array.replicate f.locals 0
    operands := []
    labels := [] }

/-- Call a host function whose arguments are on top of the operands. -/
def callHost (c : Control) (store : Store) (f : Host.Function) (operands : List UInt64) :
    StepResult :=
  let count := f.params.length
  let args := (f.params.zip (operands.take count).reverse).map fun (t, w) => scalarOfWord t w
  match Host.Call.ofArguments? f args with
  | some call => .ask call store (c.goOn (operands.drop count))
  | none => .trap .unreachable

def callFunction (c : Control) (p : Program) (maxDepth : Nat) (store : Store) (index : Nat)
    (operands : List UInt64) : StepResult :=
  match p.hosts[index]? with
  | some f => c.callHost store f operands
  | none =>
      match p.functions[index - p.hosts.size]? with
      | none => .trap .unreachable
      | some f =>
          if maxDepth ≤ c.depth then .trap .stackOverflow
          else
            let waiting := c.goOn (operands.drop f.params)
            .next store ⟨frameOf f operands, waiting.frame :: waiting.callers, c.depth + 1⟩

/-- Call a function in place of the running one.  For one of the host's the frame goes on at its
last instruction, which leaves it. -/
def replaceFunction (c : Control) (p : Program) (store : Store) (index : Nat)
    (operands : List UInt64) : StepResult :=
  match p.hosts[index]? with
  | some f =>
      let atEnd := { c with frame := { c.frame with
        pc := c.frame.function.code.size - 2, labels := [] } }
      atEnd.callHost store f operands
  | none =>
      match p.functions[index - p.hosts.size]? with
      | none => .trap .unreachable
      | some f => .next store { c with frame := frameOf f operands }

end Control

/-- The function that an element of a table refers to, of the type asked for. -/
def Store.indirect (s : Store) (p : Program) (type table : Nat) (index : UInt64) :
    Except Trap Nat := do
  let item ← s.tableGet table (address index)
  if item = 0 then .error .nullElement
  else
    let f := item.toNat - 1
    if p.functionTypes[f]? = p.types[type]? then .ok f else .error .signatureMismatch

/-! ### One instruction -/

/-- Go on with a changed store, unless the change failed. -/
def changed (c : Control) (after : Except Trap Store) (operands : List UInt64) : StepResult :=
  match after with
  | .ok store => .next store (c.goOn operands)
  | .error t => .trap t

/-- Go on with one more word, unless there is none. -/
def pushed (c : Control) (store : Store) (result : Except Trap UInt64) (operands : List UInt64) :
    StepResult :=
  match result with
  | .ok word => .next store (c.goOn (word :: operands))
  | .error t => .trap t

open Store (address)

def stepStore (p : Program) (s : Store) (c : Control) (i : Instr) (operands : List UInt64) :
    StepResult :=
  match i, operands with
  | .globalGet i, rest => .next s (c.goOn (s.globals.getD i 0 :: rest))
  | .globalSet i, x :: rest =>
      .next { s with globals := s.globals.setIfInBounds i x } (c.goOn rest)
  | .load t bytes signed arg, a :: rest =>
      pushed c s (s.load t bytes signed (address a + arg.offset)) rest
  | .store _ bytes arg, x :: a :: rest =>
      changed c (s.store bytes (address a + arg.offset) x) rest
  | .memorySize _, rest => .next s (c.goOn (.ofNat s.pages :: rest))
  | .memoryGrow _, n :: rest =>
      let (store, before) := s.growMemory (address n)
      .next store (c.goOn (before :: rest))
  | .memoryInit data _, n :: source :: target :: rest =>
      changed c (s.initMemory p data (address target) (address source) (address n)) rest
  | .dataDrop data, rest => .next (s.dropData data) (c.goOn rest)
  | .memoryCopy _ _, n :: source :: target :: rest =>
      changed c (s.copyMemory (address target) (address source) (address n)) rest
  | .memoryFill _, n :: byte :: start :: rest =>
      changed c (s.fillMemory (address start) (address n) byte.toUInt8) rest
  | .tableGet table, index :: rest => pushed c s (s.tableGet table (address index)) rest
  | .tableSet table, x :: index :: rest =>
      changed c (s.tablePut table (address index) [x]) rest
  | .tableInit element table, n :: source :: target :: rest =>
      changed c
        (s.tableInit p element table (address target) (address source) (address n)) rest
  | .elemDrop element, rest => .next (s.dropElement element) (c.goOn rest)
  | .tableCopy target source, n :: start :: place :: rest =>
      changed c
        (s.tableCopy target source (address place) (address start) (address n)) rest
  | .tableGrow table, n :: x :: rest =>
      let (store, before) := s.growTable p table (address n) x
      .next store (c.goOn (before :: rest))
  | .tableSize table, rest => .next s (c.goOn (.ofNat (s.table table).size :: rest))
  | .tableFill table, n :: x :: start :: rest =>
      if address start + address n ≤ (s.table table).size then
        changed c (s.tablePut table (address start) (List.replicate (address n) x)) rest
      else .trap .tableOutOfBounds
  | _, _ => .trap .unreachable

def step (p : Program) (maxDepth : Nat) (store : Store) (c : Control) : StepResult :=
  let s := c.frame.operands
  match c.frame.function.code[c.frame.pc]? with
  | none => c.leave store s
  | some i =>
      match i, s with
      | .localGet i, s => .next store (c.goOn (c.frame.locals.getD i 0 :: s))
      | .const _ bits, s => .next store (c.goOn (bits :: s))
      | .intBinary w op, y :: x :: s => pushed c store (op.apply w x y) s
      | .intCompare w op, y :: x :: s => .next store (c.goOn (ofBool (op.apply w x y) :: s))
      | .localSet i, x :: s => .next store (c.setLocal i x s)
      | .localTee i, x :: s => .next store (c.setLocal i x (x :: s))
      | .br label, s => c.jump store label s
      | .brIf label, x :: s => if x = 0 then .next store (c.goOn s) else c.jump store label s
      | .endMark, _ => c.close store
      | .block t, s => .next store (c.enter p t false (c.frame.pc + 1) s)
      | .loop t, s => .next store (c.enter p t true (c.frame.pc + 1) s)
      | .ifThen t, x :: s =>
          let pc := if x = 0 then c.frame.function.alternatives.getD c.frame.pc 0
            else c.frame.pc + 1
          .next store (c.enter p t false pc s)
      | .elseMark, s =>
          .next store { c with frame := { c.frame with
            pc := c.frame.function.ends.getD c.frame.pc 0, operands := s } }
      | .intTest _, x :: s => .next store (c.goOn (ofBool (x == 0) :: s))
      | .intUnary w op, x :: s => .next store (c.goOn (op.apply w.bits x :: s))
      | .floatUnary w op, x :: s => .next store (c.goOn (op.apply w x :: s))
      | .floatBinary w op, y :: x :: s => .next store (c.goOn (op.apply w x y :: s))
      | .floatCompare w op, y :: x :: s => .next store (c.goOn (ofBool (op.apply w x y) :: s))
      | .convert conversion, x :: s => pushed c store (conversion.apply x) s
      | .call f, s => c.callFunction p maxDepth store f s
      | .callIndirect type table, index :: s =>
          match store.indirect p type table index with
          | .ok f => c.callFunction p maxDepth store f s
          | .error t => .trap t
      | .returnCall f, s => c.replaceFunction p store f s
      | .returnCallIndirect type table, index :: s =>
          match store.indirect p type table index with
          | .ok f => c.replaceFunction p store f s
          | .error t => .trap t
      | .ret, s => c.leave store s
      | .brTable labels otherwise, index :: s =>
          c.jump store (labels[address index]?.getD otherwise) s
      | .drop, _ :: s => .next store (c.goOn s)
      | .select _, x :: b :: a :: s => .next store (c.goOn ((if x = 0 then b else a) :: s))
      | .nop, s => .next store (c.goOn s)
      | .unreachable, _ => .trap .unreachable
      | .refNull _, s => .next store (c.goOn (0 :: s))
      | .refIsNull, x :: s => .next store (c.goOn (ofBool (x == 0) :: s))
      | .refFunc f, s => .next store (c.goOn (funcRef f :: s))
      | i, s => stepStore p store c i s

/-! ### Running -/

/-- The memory that the host reaches, and the store without it. -/
def Store.handOver (s : Store) (p : Program) : Option Memory × Store :=
  if p.exportsMemory then (some s.memory, { s with memory := default }) else (none, s)

/-- The store with the memory that the host hands back. -/
def Store.takeBack (s : Store) : Option Memory → Store
  | some memory => { s with memory := memory }
  | none => s

/-- Run with so many instructions at most.  Only a run that reaches its end leaves a store. -/
def run (p : Program) (maxDepth : Nat) :
    Nat → Store → Control → Dialogue (Except Trap (List UInt64 × Store))
  | 0, _, _ => .done (.error .outOfFuel)
  | fuel + 1, store, c =>
      match step p maxDepth store c with
      | .next store c => run p maxDepth fuel store c
      | .trap t => .done (.error t)
      | .done results store => .done (.ok (results, store))
      | .ask call store c =>
          let (memory, store) := store.handOver p
          .ask call memory fun memory results =>
            let frame := { c.frame with
              operands := results.map wordOfScalar ++ c.frame.operands }
            run p maxDepth fuel (store.takeBack memory) { c with frame := frame }

/-- The dialogue of calling one function by its index.  One of the host's is asked at once, and
does not reach the memory. -/
def callIndex (p : Program) (maxDepth fuel : Nat) (store : Store) (index : Nat)
    (args : List Scalar) : Dialogue (Except Trap (List UInt64 × Store)) :=
  match p.hosts[index]? with
  | some f =>
      match Host.Call.ofArguments? f args with
      | some call => .ask call none fun _ results => .done (.ok (results.map wordOfScalar, store))
      | none => .done (.error .unreachable)
  | none =>
      match p.functions[index - p.hosts.size]? with
      | some f =>
          let frame := Control.frameOf f (args.map wordOfScalar).reverse
          run p maxDepth fuel store ⟨frame, [], 1⟩
      | none => .done (.error .unreachable)

end TieredUdf.Wasm
