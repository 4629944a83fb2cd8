import TieredUdf.Guest.Memory
import TieredUdf.Host.Function
import TieredUdf.Host.Registry

/-!
# Calls of host functions

A call names a context and ranges of guest memory.  A name is at most 1024 bytes of UTF-8; a
text result is copied to a range the guest gives, and the answer is its length or a negative
status.  Every field lookup that finds its context is counted there, whether or not the field
exists.
-/

namespace TieredUdf.Host

open Guest (Memory)
open Numeric (Double)

structure Range where
  ptr : Int32
  len : Int32
  deriving DecidableEq, Repr, Inhabited

inductive Level where
  | trace
  | debug
  | info
  | warn
  | error
  deriving DecidableEq, Repr, Inhabited

namespace Level

def ofNumber (n : Int32) : Level :=
  if n.toInt ≤ 0 then .trace
  else if n.toInt = 1 then .debug
  else if n.toInt = 2 then .info
  else if n.toInt = 3 then .warn
  else .error

end Level

structure LogLine where
  level : Level
  text : String
  deriving DecidableEq, Repr, Inhabited

inductive Call where
  | getScore (ctx : Int64)
  | getFieldF64 (ctx : Int64) (name : Range)
  | getFieldI64 (ctx : Int64) (name : Range)
  | getFieldBool (ctx : Int64) (name : Range)
  | hasField (ctx : Int64) (name : Range)
  | getFieldString (ctx : Int64) (name out : Range)
  | getDocumentId (ctx : Int64) (out : Range)
  | getParamString (ctx : Int64) (name out : Range)
  | log (level : Int32) (text : Range)
  deriving DecidableEq, Repr, Inhabited

namespace Call

/-- The call of a function with given arguments; `none` unless they have the types of its
parameters. -/
def ofArguments? (f : Function) (args : List Scalar) : Option Call :=
  match f, args with
  | .getScore, [.i64 ctx] => some (.getScore ctx)
  | .getFieldF64, [.i64 ctx, .i32 ptr, .i32 len] => some (.getFieldF64 ctx ⟨ptr, len⟩)
  | .getFieldI64, [.i64 ctx, .i32 ptr, .i32 len] => some (.getFieldI64 ctx ⟨ptr, len⟩)
  | .getFieldBool, [.i64 ctx, .i32 ptr, .i32 len] => some (.getFieldBool ctx ⟨ptr, len⟩)
  | .hasField, [.i64 ctx, .i32 ptr, .i32 len] => some (.hasField ctx ⟨ptr, len⟩)
  | .getFieldString, [.i64 ctx, .i32 ptr, .i32 len, .i32 out, .i32 cap] =>
      some (.getFieldString ctx ⟨ptr, len⟩ ⟨out, cap⟩)
  | .getDocumentId, [.i64 ctx, .i32 out, .i32 cap] => some (.getDocumentId ctx ⟨out, cap⟩)
  | .getParamString, [.i64 ctx, .i32 ptr, .i32 len, .i32 out, .i32 cap] =>
      some (.getParamString ctx ⟨ptr, len⟩ ⟨out, cap⟩)
  | .log, [.i32 level, .i32 ptr, .i32 len] => some (.log level ⟨ptr, len⟩)
  | _, _ => none

end Call

/-- Why a text could not be handed out. -/
inductive Failure where
  /-- The context or the text does not exist. -/
  | notFound
  /-- The text is longer than the range; nothing is written. -/
  | tooSmall
  /-- A range is negative or not inside of the memory, or a name is not readable. -/
  | memoryFault
  deriving DecidableEq, Repr, Inhabited

namespace Failure

def status : Failure → Int32
  | .notFound => -1
  | .tooSmall => -2
  | .memoryFault => -3

end Failure

def maxNameLength : Int := 1024

def maxLogLength : Int := 4096

/-- The text at a range; `none` when it is negative, too long, outside of the memory or not
UTF-8.  A guest without memory has no readable range. -/
def readText? (memory : Option Memory) (ptr len : Int) (maximum : Int) : Option String :=
  if ptr < 0 ∨ len < 0 ∨ maximum < len then none
  else do
    let bytes ← (← memory).read? ptr.toNat len.toNat
    String.fromUTF8? ⟨bytes.toArray⟩

def readName? (memory : Option Memory) (r : Range) : Option String :=
  readText? memory r.ptr.toInt r.len.toInt maxNameLength

/-- Copy a text to a range.  The answer is its length in bytes. -/
def copyOut (memory : Option Memory) (text : String) (out : Range) :
    Except Failure (Memory × Nat) :=
  let data := text.toUTF8.toList
  if out.ptr.toInt < 0 ∨ out.len.toInt < 0 then .error .memoryFault
  else if out.len.toInt < data.length then .error .tooSmall
  else match memory.bind fun m => m.write? out.ptr.toInt.toNat data with
    | some m => .ok (m, data.length)
    | none => .error .memoryFault

/-- What host functions act on: the contexts of all calls, and the log lines, the last one
first. -/
structure State where
  contexts : Registry
  lines : List LogLine
  deriving Inhabited

namespace State

def empty : State := ⟨.empty, []⟩

/-- What a call leaves behind and answers. -/
structure Effect where
  state : State
  memory : Option Memory
  results : List Scalar

/-- The field that a call looks up; the lookup is counted. -/
def lookup (s : State) (ctx : Int64) (path : String) : State × Option Field :=
  match s.contexts.resolve? ctx with
  | none => (s, none)
  | some c => ({ s with contexts := s.contexts.countRead ctx }, c.document.field? path)

def lookupAt (s : State) (memory : Option Memory) (ctx : Int64) (name : Range) :
    State × Option Field :=
  match readName? memory name with
  | none => (s, none)
  | some path => s.lookup ctx path

def fail (s : State) (memory : Option Memory) (f : Failure) : Effect :=
  ⟨s, memory, [.i32 f.status]⟩

def answerText (s : State) (memory : Option Memory) (text : Option String) (out : Range) :
    Effect :=
  match text with
  | none => s.fail memory .notFound
  | some t =>
      match copyOut memory t out with
      | .ok (m, length) => ⟨s, some m, [.i32 (.ofNat length)]⟩
      | .error f => s.fail memory f

/-- Write a log line.  A line longer than the limit is cut off after so many bytes, and one that
is not readable is not written. -/
def log (s : State) (memory : Option Memory) (level : Int32) (text : Range) : State :=
  match readText? memory text.ptr.toInt (min text.len.toInt maxLogLength) maxLogLength with
  | none => s
  | some t => { s with lines := ⟨.ofNumber level, t⟩ :: s.lines }

def perform (s : State) (memory : Option Memory) : Call → Effect
  | .getScore ctx =>
      let score := match s.contexts.resolve? ctx with
        | some c => c.document.score
        | none => .zero
      ⟨s, memory, [.f64 score]⟩
  | .getFieldF64 ctx name =>
      let (s, field) := s.lookupAt memory ctx name
      ⟨s, memory, [.f64 ((field.bind Field.toDouble?).getD .zero)]⟩
  | .getFieldI64 ctx name =>
      let (s, field) := s.lookupAt memory ctx name
      ⟨s, memory, [.i64 (.ofInt ((field.bind Field.toInt?).getD 0))]⟩
  | .getFieldBool ctx name =>
      let (s, field) := s.lookupAt memory ctx name
      ⟨s, memory, [.i32 (if (field.bind Field.toBool?).getD false then 1 else 0)]⟩
  | .hasField ctx name =>
      let (s, field) := s.lookupAt memory ctx name
      ⟨s, memory, [.i32 (if field.isSome then 1 else 0)]⟩
  | .getFieldString ctx name out =>
      match readName? memory name with
      | none => s.fail memory .memoryFault
      | some path =>
          let (s, field) := s.lookup ctx path
          s.answerText memory (field.bind Field.text?) out
  | .getDocumentId ctx out =>
      s.answerText memory ((s.contexts.resolve? ctx).map fun c => c.document.id) out
  | .getParamString ctx name out =>
      match readName? memory name with
      | none => s.fail memory .memoryFault
      | some n => s.answerText memory ((s.contexts.resolve? ctx).bind fun c => c.text? n) out
  | .log level text => ⟨s.log memory level text, memory, []⟩

end State

end TieredUdf.Host
