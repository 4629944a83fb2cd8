import TieredUdf.Proofs.Host.Answers
import TieredUdf.Proofs.Host.Reading

/-! # Asking for a text

A guest asks for the text of a field, for a text parameter or for the identifier of its document.
Either it is told the length of the text and finds the text in its memory, with every other byte as
it was; or it is told why it gets none, and its memory is as it was.
-/

namespace TieredUdf.Host

open Guest (Memory)

variable {memory : Option Memory}

/-! ## Names that cannot be read -/

/-- Why no name can be read at a range. -/
inductive Unreadable (memory : Option Memory) (r : Range) : Prop where
  | noMemory (gone : memory = none)
  | negativeStart (below : r.ptr.toInt < 0)
  | negativeLength (below : r.len.toInt < 0)
  | long (above : 1024 < r.len.toInt)
  | outside (m : Memory) (here : memory = some m)
      (beyond : m.size < r.ptr.toInt + r.len.toInt)
  | undecodable (m : Memory) (here : memory = some m) (noText : ∀ text : String,
      text.toUTF8.toList ≠ m.bytes r.ptr.toInt.toNat r.len.toInt.toNat)

theorem unreadable_iff {r : Range} : Unreadable memory r ↔ ¬ Readable memory r := by
  constructor
  · rintro unreadable ⟨name, stands, short⟩
    have ptr := stands.ptr_nonneg
    have len := stands.len_nonneg
    obtain ⟨m, rfl, inside, bytes⟩ := stands.bytes
    cases unreadable with
    | noMemory gone => cases gone
    | negativeStart below => omega
    | negativeLength below => omega
    | long above => omega
    | outside m here beyond =>
        cases here
        omega
    | undecodable m here noText =>
        cases here
        exact noText name bytes.symm
  · intro refused
    cases memory with
    | none => exact .noMemory rfl
    | some m =>
        by_cases start : r.ptr.toInt < 0
        · exact .negativeStart start
        by_cases length : r.len.toInt < 0
        · exact .negativeLength length
        by_cases above : 1024 < r.len.toInt
        · exact .long above
        by_cases beyond : m.size < r.ptr.toInt + r.len.toInt
        · exact .outside m rfl beyond
        refine .undecodable m rfl fun text same => refused ⟨text, ?_, by omega⟩
        exact ⟨by omega, by omega, m, rfl, by omega, same.symm⟩

theorem readName?_eq_none {r : Range} : readName? memory r = none ↔ Unreadable memory r := by
  rw [unreadable_iff, ← isSome_readName?, Option.not_isSome_iff_eq_none]

/-! ## What is asked for -/

/-- What a guest asks a text of. -/
inductive Subject where
  /-- The field whose name stands at a range. -/
  | field (name : Range)
  /-- The text parameter whose name stands at a range. -/
  | param (name : Range)
  /-- The identifier of the document. -/
  | documentId

namespace Subject

/-- The call that asks for the text and gives the range where it is to be written. -/
def call (ctx : Int64) (out : Range) : Subject → Call
  | .field name => .getFieldString ctx name out
  | .param name => .getParamString ctx name out
  | .documentId => .getDocumentId ctx out

/-- A name is needed and cannot be read. -/
def Unreadable (memory : Option Memory) : Subject → Prop
  | .field name | .param name => Host.Unreadable memory name
  | .documentId => False

/-- The text that the context of an identifier has for it. -/
inductive Has (contexts : Registry) (memory : Option Memory) (ctx : Int64) :
    Subject → String → Prop where
  | field {name : Range} {n text : String} {c : CallContext} {f : Field}
      (stands : TextAt memory name.ptr.toInt name.len.toInt n) (short : name.len.toInt ≤ 1024)
      (running : contexts.resolve? ctx = some c) (found : c.document.field? n = some f)
      (isText : f.text? = some text) : Has contexts memory ctx (.field name) text
  | param {name : Range} {n text : String} {c : CallContext}
      (stands : TextAt memory name.ptr.toInt name.len.toInt n) (short : name.len.toInt ≤ 1024)
      (running : contexts.resolve? ctx = some c) (found : c.text? n = some text) :
      Has contexts memory ctx (.param name) text
  | documentId {c : CallContext} (running : contexts.resolve? ctx = some c) :
      Has contexts memory ctx .documentId c.document.id

def text? (contexts : Registry) (memory : Option Memory) (ctx : Int64) : Subject → Option String
  | .field name => do
      let n ← readName? memory name
      let c ← contexts.resolve? ctx
      (c.document.field? n).bind Field.text?
  | .param name => do
      let n ← readName? memory name
      let c ← contexts.resolve? ctx
      c.text? n
  | .documentId => (contexts.resolve? ctx).map fun c => c.document.id

variable {contexts : Registry} {ctx : Int64} {subject : Subject}

theorem text?_eq_some {text : String} :
    subject.text? contexts memory ctx = some text ↔ subject.Has contexts memory ctx text := by
  cases subject with
  | field name =>
      simp only [text?, Option.bind_eq_bind, Option.bind_eq_some_iff, readName?_eq_some]
      constructor
      · rintro ⟨n, ⟨stands, short⟩, c, running, f, found, isText⟩
        exact .field stands short running found isText
      · rintro ⟨⟩
        exact ⟨_, ⟨‹_›, ‹_›⟩, _, ‹_›, _, ‹_›, ‹_›⟩
  | param name =>
      simp only [text?, Option.bind_eq_bind, Option.bind_eq_some_iff, readName?_eq_some]
      constructor
      · rintro ⟨n, ⟨stands, short⟩, c, running, found⟩
        exact .param stands short running found
      · rintro ⟨⟩
        exact ⟨_, ⟨‹_›, ‹_›⟩, _, ‹_›, ‹_›⟩
  | documentId =>
      simp only [text?, Option.map_eq_some_iff]
      constructor
      · rintro ⟨c, running, rfl⟩
        exact .documentId running
      · rintro ⟨⟩
        exact ⟨_, ‹_›, rfl⟩

/-- At most one text is asked for. -/
theorem Has.exists_and {text : String} (has : subject.Has contexts memory ctx text)
    (P : String → Prop) : (∃ t, subject.Has contexts memory ctx t ∧ P t) ↔ P text := by
  refine ⟨fun ⟨t, other, holds⟩ => ?_, fun holds => ⟨text, has, holds⟩⟩
  have same := (text?_eq_some.mpr has).symm.trans (text?_eq_some.mpr other)
  cases same
  exact holds

theorem Has.readable {text : String} (has : subject.Has contexts memory ctx text) :
    ¬ subject.Unreadable memory := by
  cases has with
  | field stands short => exact fun h => unreadable_iff.mp h ⟨_, stands, short⟩
  | param stands short => exact fun h => unreadable_iff.mp h ⟨_, stands, short⟩
  | documentId running => exact id

end Subject

/-! ## How it is handed out -/

/-- What becomes of a text that is there, with the reason for each status. -/
inductive Handed (memory : Option Memory) (out : Range) (text : String) :
    Option Memory → Int32 → Prop where
  | negative (below : out.ptr.toInt < 0 ∨ out.len.toInt < 0) : Handed memory out text memory (-3)
  | tooSmall (ptr : 0 ≤ out.ptr.toInt) (len : 0 ≤ out.len.toInt)
      (long : out.len.toInt < text.utf8ByteSize) : Handed memory out text memory (-2)
  | outside (ptr : 0 ≤ out.ptr.toInt) (len : 0 ≤ out.len.toInt)
      (room : text.utf8ByteSize ≤ out.len.toInt)
      (beyond : ¬ Inside memory out.ptr.toInt text.utf8ByteSize) :
      Handed memory out text memory (-3)
  | written {before after : Memory} {status : Int32} (ptr : 0 ≤ out.ptr.toInt)
      (len : 0 ≤ out.len.toInt) (room : text.utf8ByteSize ≤ out.len.toInt)
      (here : memory = some before)
      (inside : out.ptr.toInt + text.utf8ByteSize ≤ before.size)
      (length : status.toInt = text.utf8ByteSize) (written : out.Written before after text) :
      Handed memory out text (some after) status

namespace State

theorem answerText_handed (s : State) (memory : Option Memory) (text : String) (out : Range) :
    ∃ after status, s.answerText memory (some text) out = ⟨s, after, [.i32 status]⟩ ∧
      Handed memory out text after status := by
  by_cases below : out.ptr.toInt < 0 ∨ out.len.toInt < 0
  · refine ⟨memory, -3, ?_, .negative below⟩
    have refused : copyOut memory text out = .error .memoryFault := if_pos below
    rw [answerText, refused]
    rfl
  obtain ⟨ptr, len⟩ : 0 ≤ out.ptr.toInt ∧ 0 ≤ out.len.toInt := by omega
  by_cases long : out.len.toInt < text.utf8ByteSize
  · refine ⟨memory, -2, ?_, .tooSmall ptr len long⟩
    have refused : copyOut memory text out = .error .tooSmall := by
      unfold copyOut
      dsimp only
      rw [if_neg below, Text.length_toUTF8, if_pos long]
    rw [answerText, refused]
    rfl
  have room : text.utf8ByteSize ≤ out.len.toInt := by omega
  by_cases inside : Inside memory out.ptr.toInt text.utf8ByteSize
  · obtain ⟨before, rfl, inside⟩ := inside
    obtain ⟨after, n, answer, length, written⟩ := s.answerText_of_fits ptr room inside
    exact ⟨some after, n, answer, .written ptr len room rfl inside length written⟩
  · refine ⟨memory, -3, ?_, .outside ptr len room inside⟩
    rw [answerText, copyOut_of_outside ptr room inside]
    rfl

/-- A call that asks for a text looks for it and hands it out. -/
theorem perform_subject (s : State) (memory : Option Memory) (ctx : Int64) (out : Range)
    (subject : Subject) :
    (subject.Unreadable memory ∧
      s.answer memory (subject.call ctx out) = (memory, [.i32 (-3)])) ∨
    (¬ subject.Unreadable memory ∧ ∃ t : State, s.answer memory (subject.call ctx out) =
      ((t.answerText memory (subject.text? s.contexts memory ctx) out).memory,
        (t.answerText memory (subject.text? s.contexts memory ctx) out).results)) := by
  cases subject with
  | field name =>
      simp only [Subject.Unreadable, ← readName?_eq_none, Subject.call, answer, perform,
        Subject.text?]
      cases readName? memory name with
      | none => exact Or.inl ⟨rfl, rfl⟩
      | some n =>
          refine Or.inr ⟨Option.some_ne_none n, (s.lookup ctx n).1, ?_⟩
          dsimp only [Option.bind_eq_bind, Option.bind_some]
          cases found : s.contexts.resolve? ctx with
          | none => simp [lookup, found]
          | some c => simp [lookup, found]
  | param name =>
      simp only [Subject.Unreadable, ← readName?_eq_none, Subject.call, answer, perform,
        Subject.text?]
      cases readName? memory name with
      | none => exact Or.inl ⟨rfl, rfl⟩
      | some n => exact Or.inr ⟨Option.some_ne_none n, s, rfl⟩
  | documentId => exact Or.inr ⟨id, s, rfl⟩

end State

/-- A guest that asks for a text, with whichever identifier and ranges and at whichever registry,
finds it written as it is told, or nothing is written.  The text is refused as unreadable or out of
reach, as missing, and as too long exactly for the reasons that are given here. -/
theorem texts_written_as_told (s : State) (memory : Option Memory) (ctx : Int64)
    (subject : Subject) (out : Range) :
    ∃ after status, s.answer memory (subject.call ctx out) = (after, [.i32 status]) ∧
      ((∃ before left text, memory = some before ∧ after = some left ∧
          subject.Has s.contexts memory ctx text ∧ status.toInt = text.utf8ByteSize ∧
          status.toInt ≤ out.len.toInt ∧ out.Written before left text) ∨
        (status.toInt < 0 ∧ after = memory)) ∧
      (status = -3 ↔ subject.Unreadable memory ∨
        ∃ text, subject.Has s.contexts memory ctx text ∧
          (out.ptr.toInt < 0 ∨ out.len.toInt < 0 ∨ text.utf8ByteSize ≤ out.len.toInt ∧
            ¬ Inside memory out.ptr.toInt text.utf8ByteSize)) ∧
      (status = -1 ↔ ¬ subject.Unreadable memory ∧
        ∀ text, ¬ subject.Has s.contexts memory ctx text) ∧
      (status = -2 ↔ ∃ text, subject.Has s.contexts memory ctx text ∧
        0 ≤ out.ptr.toInt ∧ 0 ≤ out.len.toInt ∧ out.len.toInt < text.utf8ByteSize) := by
  rcases s.perform_subject memory ctx out subject with ⟨unreadable, answer⟩ | ⟨readable, t, answer⟩
  · refine ⟨memory, -3, answer, Or.inr ⟨by decide, rfl⟩, ?_, ?_, ?_⟩
    · exact iff_of_true rfl (Or.inl unreadable)
    · exact iff_of_false (by decide) fun h => h.1 unreadable
    · exact iff_of_false (by decide) fun ⟨_, has, _⟩ => has.readable unreadable
  cases found : subject.text? s.contexts memory ctx with
  | none =>
      have missing : ∀ text, ¬ subject.Has s.contexts memory ctx text := fun text has => by
        rw [Subject.text?_eq_some.mpr has] at found
        cases found
      rw [found] at answer
      refine ⟨memory, -1, answer, Or.inr ⟨by decide, rfl⟩, ?_, ?_, ?_⟩
      · exact iff_of_false (by decide) (not_or.mpr ⟨readable, fun ⟨t, has, _⟩ => missing t has⟩)
      · exact iff_of_true rfl ⟨readable, missing⟩
      · exact iff_of_false (by decide) fun ⟨t, has, _⟩ => missing t has
  | some text =>
      have has := Subject.text?_eq_some.mp found
      obtain ⟨after, status, handed, reason⟩ := t.answerText_handed memory text out
      rw [found, handed] at answer
      refine ⟨after, status, answer, ?_⟩
      rw [has.exists_and, has.exists_and]
      have present : ¬ (¬ subject.Unreadable memory ∧
          ∀ text, ¬ subject.Has s.contexts memory ctx text) := fun h => h.2 text has
      cases reason with
      | negative below =>
          refine ⟨Or.inr ⟨by decide, rfl⟩, iff_of_true rfl (Or.inr ?_),
            iff_of_false (by decide) present, iff_of_false (by decide) (by omega)⟩
          exact below.imp_right Or.inl
      | tooSmall ptr len long =>
          refine ⟨Or.inr ⟨by decide, rfl⟩, iff_of_false (by decide) ?_,
            iff_of_false (by decide) present, iff_of_true rfl ⟨ptr, len, long⟩⟩
          rintro (unreadable | below | below | ⟨room, _⟩)
          · exact readable unreadable
          all_goals omega
      | outside ptr len room beyond =>
          refine ⟨Or.inr ⟨by decide, rfl⟩, iff_of_true rfl (Or.inr (Or.inr (Or.inr ?_))),
            iff_of_false (by decide) present, iff_of_false (by decide) (by omega)⟩
          exact ⟨room, beyond⟩
      | @written before left _ ptr len room here inside length written =>
          have nonneg : 0 ≤ status.toInt := by omega
          have other : ∀ k : Int32, k.toInt < 0 → status ≠ k := by
            rintro k negative rfl
            omega
          refine ⟨Or.inl ⟨before, left, text, here, rfl, has, length, by omega, written⟩,
            iff_of_false (other _ (by decide)) ?_, iff_of_false (other _ (by decide)) present,
            iff_of_false (other _ (by decide)) (by omega)⟩
          rintro (unreadable | below | below | ⟨_, beyond⟩)
          · exact readable unreadable
          · omega
          · omega
          · exact beyond ⟨before, here, inside⟩

end TieredUdf.Host
