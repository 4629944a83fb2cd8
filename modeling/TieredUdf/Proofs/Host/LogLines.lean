import TieredUdf.Proofs.Host.Reading

/-! # Log lines of guests

A guest logs a text that stands in its memory.  A text within the limit is written as it is.  Of a
longer one only the bytes up to the limit are read, and they are a text only if no character goes
across the limit; otherwise the line is lost as a whole.
-/

namespace TieredUdf.Host

open Guest (Memory)

/-! ## Beginnings of texts in memory -/

/-- The bytes before some place in a text are a text exactly if the text can be cut there. -/
theorem TextAt.cut {memory : Option Memory} {ptr len cut : Int} {text front : String}
    (stands : TextAt memory ptr len text) (nonneg : 0 ≤ cut) (within : cut ≤ len) :
    TextAt memory ptr cut front ↔
      (∃ back, text = front ++ back) ∧ front.utf8ByteSize = cut := by
  have length := stands.len_eq
  obtain ⟨m, here, inside, bytes⟩ := stands.bytes
  have taken : m.bytes ptr.toNat cut.toNat = text.toUTF8.toList.take cut.toNat := by
    rw [← bytes, Memory.bytes, Memory.bytes, ← List.map_take, List.take_range,
      Nat.min_eq_left (by omega)]
  have beginning : front.toUTF8.toList = text.toUTF8.toList.take cut.toNat ↔
      (∃ back, text = front ++ back) ∧ front.utf8ByteSize = cut.toNat :=
    Text.toUTF8_eq_take (by omega)
  constructor
  · intro begins
    obtain ⟨_, same, _, read⟩ := begins.bytes
    cases here.symm.trans same
    obtain ⟨begins, size⟩ := beginning.mp (read.symm.trans taken)
    exact ⟨begins, by omega⟩
  · rintro ⟨begins, size⟩
    have read := beginning.mpr ⟨begins, by omega⟩
    exact ⟨stands.ptr_nonneg, nonneg, m, here, by omega, taken.trans read.symm⟩

/-! ## What is written -/

namespace State

variable {s : State} {memory : Option Memory} {level : Int32} {r : Range} {text : String}

theorem log_of_short (stands : TextAt memory r.ptr.toInt r.len.toInt text)
    (short : text.utf8ByteSize ≤ 4096) :
    s.log memory level r = { s with lines := ⟨.ofNumber level, text⟩ :: s.lines } := by
  have length := stands.len_eq
  have whole : min r.len.toInt maxLogLength = r.len.toInt := by
    unfold maxLogLength
    omega
  have read : readText? memory r.ptr.toInt r.len.toInt maxLogLength = some text := by
    refine readText?_eq_some.mpr ⟨stands, ?_⟩
    unfold maxLogLength
    omega
  rw [log, whole, read]

/-- A longer line is read up to the limit. -/
theorem readText?_of_long (stands : TextAt memory r.ptr.toInt r.len.toInt text)
    (long : 4096 < text.utf8ByteSize) {line : String} :
    readText? memory r.ptr.toInt (min r.len.toInt maxLogLength) maxLogLength = some line ↔
      (∃ back, text = line ++ back) ∧ line.utf8ByteSize = 4096 := by
  have length := stands.len_eq
  have limit : min r.len.toInt maxLogLength = 4096 := by
    unfold maxLogLength
    omega
  rw [limit, readText?_eq_some, stands.cut (by decide) (by omega)]
  constructor
  · rintro ⟨⟨begins, size⟩, _⟩
    exact ⟨begins, by omega⟩
  · rintro ⟨begins, size⟩
    exact ⟨⟨begins, by omega⟩, Int.le_refl _⟩

theorem log_of_cut {front back : String}
    (stands : TextAt memory r.ptr.toInt r.len.toInt (front ++ back))
    (cut : front.utf8ByteSize = 4096) :
    s.log memory level r = { s with lines := ⟨.ofNumber level, front⟩ :: s.lines } := by
  -- A text of just the limit is not cut, so what holds of longer ones does not apply.
  by_cases more : back = ""
  · subst more
    rw [String.append_empty] at stands
    exact log_of_short stands (by omega)
  · have long : 4096 < (front ++ back).utf8ByteSize := by
      have := mt String.utf8ByteSize_eq_zero_iff.mp more
      rw [String.utf8ByteSize_append]
      omega
    have read := (readText?_of_long stands long).mpr ⟨⟨back, rfl⟩, cut⟩
    rw [log, read]

/-- A long line that cannot be cut at the limit is lost. -/
theorem log_of_across (stands : TextAt memory r.ptr.toInt r.len.toInt text)
    (long : 4096 < text.utf8ByteSize) (across : ¬ Text.CutAt text 4096) :
    s.log memory level r = s := by
  have refused :
      readText? memory r.ptr.toInt (min r.len.toInt maxLogLength) maxLogLength = none := by
    rw [Option.eq_none_iff_forall_ne_some]
    intro line read
    obtain ⟨⟨back, begins⟩, size⟩ := (readText?_of_long stands long).mp read
    exact across ⟨line, back, begins, size⟩
  rw [log, refused]

end State

/-! ## What a guest may expect -/

/-- Which severity the number of a guest stands for. -/
inductive Level.Numbered : Int → Level → Prop where
  | trace {n : Int} (low : n ≤ 0) : Numbered n .trace
  | debug : Numbered 1 .debug
  | info : Numbered 2 .info
  | warn : Numbered 3 .warn
  | error {n : Int} (high : 4 ≤ n) : Numbered n .error

theorem Level.numbered_ofNumber (n : Int32) : Numbered n.toInt (.ofNumber n) := by
  unfold ofNumber
  split
  · exact .trace ‹_›
  split
  · rename_i one
    exact one ▸ .debug
  split
  · rename_i two
    exact two ▸ .info
  split
  · rename_i three
    exact three ▸ .warn
  · exact .error (by omega)

/-- One line has been written for a text: the text itself if it is within the limit, and otherwise
some beginning of it within the limit that is not empty. -/
def State.Logged (before after : State) (level : Int) (text : String) : Prop :=
  ∃ severity line back, Level.Numbered level severity ∧
    after = { before with lines := ⟨severity, line⟩ :: before.lines } ∧ text = line ++ back ∧
    line.utf8ByteSize ≤ 4096 ∧ (text.utf8ByteSize ≤ 4096 → line = text) ∧ (line = "" → text = "")

theorem State.Logged.ne {s after : State} {level : Int} {text : String}
    (h : s.Logged after level text) : after ≠ s := by
  obtain ⟨severity, line, _, _, rfl, _⟩ := h
  intro same
  have lengths := congrArg (fun t : State => t.lines.length) same
  simp at lengths

/-- A guest that logs a text which stands in its memory finds its memory unchanged.  If the text is
within the limit, or no character goes across the limit, one line is written for it, in the latter
case with everything before the limit; and that is the case whenever a line is written at all: the
line of a longer text with a character across the limit is lost. -/
theorem log_line_kept_iff (s : State) {memory : Option Memory} (level : Int32) {r : Range}
    {text : String} (stands : TextAt memory r.ptr.toInt r.len.toInt text) :
    let effect := s.perform memory (.log level r)
    (effect.memory = memory ∧ effect.results = []) ∧
    (s.Logged effect.state level.toInt text ↔
      text.utf8ByteSize ≤ 4096 ∨ Text.CutAt text 4096) ∧
    (∀ front back, text = front ++ back → front.utf8ByteSize = 4096 →
      effect.state = { s with lines := ⟨.ofNumber level, front⟩ :: s.lines }) ∧
    (effect.state = s ↔ ¬ (text.utf8ByteSize ≤ 4096 ∨ Text.CutAt text 4096)) := by
  intro effect
  have state : effect.state = s.log memory level r := rfl
  have cut : ∀ front back, text = front ++ back → front.utf8ByteSize = 4096 →
      effect.state = { s with lines := ⟨.ofNumber level, front⟩ :: s.lines } := by
    rintro front back rfl size
    exact State.log_of_cut stands size
  have kept : text.utf8ByteSize ≤ 4096 ∨ Text.CutAt text 4096 →
      s.Logged effect.state level.toInt text := by
    rintro (short | ⟨front, back, begins, size⟩)
    · refine ⟨_, text, "", Level.numbered_ofNumber level, ?_, String.append_empty.symm, short,
        fun _ => rfl, id⟩
      rw [state, State.log_of_short stands short]
    · refine ⟨_, front, back, Level.numbered_ofNumber level, cut front back begins size, begins,
        Nat.le_of_eq size, fun short => ?_, fun empty => ?_⟩
      · have sizes := congrArg String.utf8ByteSize begins
        rw [String.utf8ByteSize_append] at sizes
        have rest : back = "" := String.utf8ByteSize_eq_zero_iff.mp (by omega)
        rw [begins, rest, String.append_empty]
      · rw [empty] at size
        cases size
  have lost : ¬ (text.utf8ByteSize ≤ 4096 ∨ Text.CutAt text 4096) → effect.state = s := by
    rintro neither
    obtain ⟨long, across⟩ := not_or.mp neither
    rw [state, State.log_of_across stands (by omega) across]
  refine ⟨⟨rfl, rfl⟩, ⟨fun logged => ?_, kept⟩, cut, ⟨fun same fits => (kept fits).ne same, lost⟩⟩
  by_contra neither
  exact logged.ne (lost neither)

/-! ## Lines at the limit -/

def letters (n : Nat) : String := String.ofList (List.replicate n 'a')

theorem utf8ByteSize_letters (n : Nat) : (letters n).utf8ByteSize = n := by
  induction n with
  | zero => rfl
  | succ n ih =>
      have first : letters (n + 1) = "a" ++ letters n :=
        String.toList_inj.mp (by simp [letters, List.replicate_succ])
      rw [first, String.utf8ByteSize_append, ih, Nat.add_comm]
      rfl

/-- A character of two bytes cannot be cut. -/
theorem not_cutAt_wide (front : String) :
    ¬ Text.CutAt (front ++ "é") (front.utf8ByteSize + 1) := by
  rintro ⟨cut, back, same, size⟩
  have characters : front.toList ++ ['é'] = cut.toList ++ back.toList := by
    rw [← String.toList_append, ← same, String.toList_append]
    rfl
  rcases List.append_eq_append_iff.mp characters with ⟨more, longer, rest⟩ | ⟨more, shorter, _⟩
  · have whole : cut = front ++ String.ofList more := by
      rw [← String.toList_inj, String.toList_append, longer, String.toList_ofList]
    rw [whole, String.utf8ByteSize_append] at size
    cases more with
    | nil => simp at size
    | cons c more =>
        rw [List.cons_append, List.cons.injEq] at rest
        obtain ⟨rfl, none⟩ := rest
        obtain ⟨rfl, _⟩ := List.append_eq_nil_iff.mp none.symm
        have wide : (String.ofList ['é']).utf8ByteSize = 2 := rfl
        omega
  · have whole : front = cut ++ String.ofList more := by
      rw [← String.toList_inj, String.toList_append, shorter, String.toList_ofList]
    have sizes := congrArg String.utf8ByteSize whole
    rw [String.utf8ByteSize_append] at sizes
    omega

theorem log_line_kept_iff_full :
    let text := letters 4096 ++ "é"
    TextAt (some (holding text)) 0 4098 text ∧
    (State.empty.perform (some (holding text)) (.log 2 ⟨0, 4098⟩)).state =
      ⟨.empty, [⟨.info, letters 4096⟩]⟩ := by
  intro text
  have size : text.utf8ByteSize = 4098 := by
    rw [String.utf8ByteSize_append, utf8ByteSize_letters]
    rfl
  have stands := textAt_holding text
  rw [size] at stands
  have written := (log_line_kept_iff State.empty 2 (r := ⟨0, 4098⟩) stands).2.2.1
  exact ⟨stands, written _ _ rfl (utf8ByteSize_letters _)⟩

/-- A character across the limit, and the line is lost. -/
theorem not_always_logged :
    let text := letters 4095 ++ "é"
    TextAt (some (holding text)) 0 4097 text ∧
    (State.empty.perform (some (holding text)) (.log 2 ⟨0, 4097⟩)).state = State.empty ∧
    ¬ ∀ (s : State) (memory : Option Memory) (level : Int32) (r : Range) (text : String),
      TextAt memory r.ptr.toInt r.len.toInt text →
      s.Logged (s.perform memory (.log level r)).state level.toInt text := by
  intro text
  have size : text.utf8ByteSize = 4097 := by
    rw [String.utf8ByteSize_append, utf8ByteSize_letters]
    rfl
  have stands := textAt_holding text
  rw [size] at stands
  have across : ¬ Text.CutAt text 4096 := by
    have wide := not_cutAt_wide (letters 4095)
    rwa [utf8ByteSize_letters] at wide
  have lost : State.empty.log (some (holding text)) 2 ⟨0, 4097⟩ = State.empty :=
    State.log_of_across (r := ⟨0, 4097⟩) stands (by omega) across
  exact ⟨stands, lost, fun always => (always State.empty _ 2 ⟨0, 4097⟩ text stands).ne lost⟩

end TieredUdf.Host
