import TieredUdf.Proofs.Document.Fields
import TieredUdf.Proofs.Host.Answers
import TieredUdf.Proofs.Host.Reading

/-! # Documents without fields

The fields of a bare document are those of a JSON null.  No step leads on from it, so a path with a
step finds nothing.  A path of nothing but points has no step and finds the null itself, which a
guest is told is there; as a number, a truth value or a text it is not.
-/

namespace TieredUdf

namespace Document

open Numeric (Double)

theorem reaches_null {steps : List Step} {node : Json} :
    Reaches .null steps node ↔ steps = [] ∧ node = .null := by
  constructor
  · rintro ⟨⟩
    exact ⟨rfl, rfl⟩
  · rintro ⟨rfl, rfl⟩
    exact .here _

/-- What a bare document has at a path. -/
theorem bare_eq_some {id : String} {score : Double} {path : String} {f : Field} :
    (bare id score).field? path = some f ↔ (∀ c ∈ path.toList, c = '.') ∧ f = .other := by
  have other : Json.null.get? path = none := rfl
  rw [bare, field?, field?_of_no_member other, ← Path.parse?_eq_some_nil]
  simp only [Option.bind_eq_some_iff, Option.map_eq_some_iff, walk?_eq_some_iff, reaches_null]
  constructor
  · rintro ⟨_, read, _, ⟨rfl, rfl⟩, rfl⟩
    exact ⟨read, rfl⟩
  · rintro ⟨read, rfl⟩
    exact ⟨[], read, .null, ⟨rfl, rfl⟩, rfl⟩

theorem isSome_bare {id : String} {score : Double} {path : String} :
    ((bare id score).field? path).isSome = true ↔ ∀ c ∈ path.toList, c = '.' := by
  rw [Option.isSome_iff_exists]
  exact (exists_congr fun _ => bare_eq_some).trans (by simp)

theorem bare_eq_none {id : String} {score : Double} {path : String} :
    (bare id score).field? path = none ↔ ∃ c ∈ path.toList, c ≠ '.' := by
  rw [← Option.not_isSome_iff_eq_none, isSome_bare]
  push Not
  rfl

/-- A bare document has no number, truth value or text at any path. -/
theorem bare_bind {α : Type} (view : Field → Option α) (scalar : view .other = none) (id : String)
    (score : Double) (path : String) : ((bare id score).field? path).bind view = none := by
  cases found : (bare id score).field? path with
  | none => rfl
  | some f =>
      obtain ⟨_, rfl⟩ := bare_eq_some.mp found
      exact scalar

end Document

namespace Host

open Guest (Memory)
open Numeric (Double)

namespace State

variable {s : State} {ctx : Int64} {c : CallContext} {memory : Option Memory} {name : Range}
  {path : String}

/-! ## Lookups of running calls -/

theorem lookupAt_of_running (running : s.contexts.resolve? ctx = some c)
    (read : readName? memory name = some path) :
    (s.lookupAt memory ctx name).2 = c.document.field? path := by
  rw [lookupAt_field, read, Registry.view?, running]
  rfl

theorem answer_getFieldF64 (running : s.contexts.resolve? ctx = some c)
    (read : readName? memory name = some path) :
    s.answer memory (.getFieldF64 ctx name) =
      (memory, [.f64 (((c.document.field? path).bind Field.toDouble?).getD .zero)]) := by
  simp only [answer, perform, lookupAt_of_running running read]

theorem answer_getFieldI64 (running : s.contexts.resolve? ctx = some c)
    (read : readName? memory name = some path) :
    s.answer memory (.getFieldI64 ctx name) =
      (memory, [.i64 (.ofInt (((c.document.field? path).bind Field.toInt?).getD 0))]) := by
  simp only [answer, perform, lookupAt_of_running running read]

theorem answer_getFieldBool (running : s.contexts.resolve? ctx = some c)
    (read : readName? memory name = some path) :
    s.answer memory (.getFieldBool ctx name) = (memory,
      [.i32 (if ((c.document.field? path).bind Field.toBool?).getD false then 1 else 0)]) := by
  simp only [answer, perform, lookupAt_of_running running read]

theorem answer_hasField (running : s.contexts.resolve? ctx = some c)
    (read : readName? memory name = some path) :
    s.answer memory (.hasField ctx name) =
      (memory, [.i32 (if (c.document.field? path).isSome then 1 else 0)]) := by
  simp only [answer, perform, lookupAt_of_running running read]

/-- A guest that asks for the text of a field that has none is told so. -/
theorem answer_getFieldString (running : s.contexts.resolve? ctx = some c)
    (read : readName? memory name = some path)
    (missing : (c.document.field? path).bind Field.text? = none) (out : Range) :
    s.answer memory (.getFieldString ctx name out) = (memory, [.i32 (-1)]) := by
  have found : (s.lookup ctx path).2 = c.document.field? path := by
    rw [lookup_field, Registry.view?, running]
    rfl
  simp only [answer, perform, read, found, missing]
  rfl

end State

/-- A bare document has nothing at a path with anything but points in it, and at every other path,
the empty one included, it has something that is no scalar.  A guest that asks for a number, a truth
value or a text of it, by any name that it can read, is answered with zero or that there is none;
whether there is a field it is told truly if and only if its name has anything but points in it. -/
theorem bare_answers (id : String) (score : Double) :
    (∀ path, ((Document.bare id score).field? path = none ↔ ∃ c ∈ path.toList, c ≠ '.') ∧
      ((Document.bare id score).field? path = some .other ↔ ∀ c ∈ path.toList, c = '.')) ∧
    ∀ (s : State) (ctx : Int64) (c : CallContext) (memory : Option Memory) (name out : Range)
      (path : String), s.contexts.resolve? ctx = some c → c.document = .bare id score →
      TextAt memory name.ptr.toInt name.len.toInt path → name.len.toInt ≤ 1024 →
      s.answer memory (.getFieldF64 ctx name) = (memory, [.f64 .zero]) ∧
      s.answer memory (.getFieldI64 ctx name) = (memory, [.i64 0]) ∧
      s.answer memory (.getFieldBool ctx name) = (memory, [.i32 0]) ∧
      s.answer memory (.getFieldString ctx name out) = (memory, [.i32 (-1)]) ∧
      (s.answer memory (.hasField ctx name) = (memory, [.i32 0]) ↔
        ∃ c ∈ path.toList, c ≠ '.') ∧
      (s.answer memory (.hasField ctx name) = (memory, [.i32 1]) ↔ ∀ c ∈ path.toList, c = '.') := by
  refine ⟨fun path => ⟨Document.bare_eq_none, Document.bare_eq_some.trans (and_iff_left rfl)⟩, ?_⟩
  intro s ctx c memory name out path running isBare stands short
  have read : readName? memory name = some path := readName?_eq_some.mpr ⟨stands, short⟩
  have noScalar : ∀ {α : Type} (view : Field → Option α), view .other = none →
      (c.document.field? path).bind view = none := by
    intro α view scalar
    rw [isBare]
    exact Document.bare_bind view scalar id score path
  have present : (c.document.field? path).isSome = true ↔ ∀ c ∈ path.toList, c = '.' := by
    rw [isBare]
    exact Document.isSome_bare
  have absent : c.document.field? path = none ↔ ∃ c ∈ path.toList, c ≠ '.' := by
    rw [isBare]
    exact Document.bare_eq_none
  refine ⟨?_, ?_, ?_, State.answer_getFieldString running read (noScalar _ rfl) out, ?_, ?_⟩
  · rw [State.answer_getFieldF64 running read, noScalar _ rfl]
    rfl
  · rw [State.answer_getFieldI64 running read, noScalar _ rfl]
    rfl
  · rw [State.answer_getFieldBool running read, noScalar _ rfl]
    rfl
  · rw [State.answer_hasField running read, ← absent]
    cases c.document.field? path <;> simp
  · rw [State.answer_hasField running read, ← present]
    cases (c.document.field? path).isSome <;> simp

def bareCall : State := ⟨(Registry.empty.register (.ofDocument (.bare "d" .zero) [])).1, []⟩

theorem bare_answers_named :
    bareCall.contexts.resolve? 1 = some (.ofDocument (.bare "d" .zero) []) ∧
    TextAt (some (holding "a")) 0 1 "a" ∧
    bareCall.answer (some (holding "a")) (.hasField 1 ⟨0, 1⟩) = (some (holding "a"), [.i32 0]) ∧
    bareCall.answer (some (holding "a")) (.getFieldString 1 ⟨0, 1⟩ ⟨0, 1⟩) =
      (some (holding "a"), [.i32 (-1)]) := by
  have stands : TextAt (some (holding "a")) 0 1 "a" := textAt_holding "a"
  obtain ⟨_, _, _, text, absent, _⟩ := (bare_answers "d" .zero).2 bareCall 1
    (.ofDocument (.bare "d" .zero) []) _ ⟨0, 1⟩ ⟨0, 1⟩ "a" rfl rfl stands (by decide)
  exact ⟨rfl, stands, absent.mpr ⟨'a', by decide, by decide⟩, text⟩

/-- The empty name finds a field of a bare document. -/
theorem not_always_fieldless :
    (Document.bare "d" .zero).field? "" = some .other ∧
    TextAt (some (holding "")) 0 0 "" ∧
    bareCall.answer (some (holding "")) (.hasField 1 ⟨0, 0⟩) = (some (holding ""), [.i32 1]) ∧
    ¬ ∀ (id : String) (score : Double) (path : String),
      (Document.bare id score).field? path = none := by
  have found : (Document.bare "d" .zero).field? "" = some .other :=
    Document.bare_eq_some.mpr ⟨by simp, rfl⟩
  have stands : TextAt (some (holding "")) 0 0 "" := textAt_holding ""
  have read : readName? (some (holding "")) ⟨0, 0⟩ = some "" :=
    readName?_eq_some.mpr ⟨stands, by decide⟩
  have running : bareCall.contexts.resolve? 1 = some (.ofDocument (.bare "d" .zero) []) := rfl
  refine ⟨found, stands, ?_, fun never => ?_⟩
  · rw [State.answer_hasField running read, CallContext.ofDocument, found]
    rfl
  · cases (never "d" .zero "").symm.trans found

end Host

end TieredUdf
