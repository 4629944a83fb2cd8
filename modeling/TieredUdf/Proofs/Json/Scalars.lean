import TieredUdf.Proofs.Json.Tokens

/-! # The texts of scalars

A text is read as a scalar if and only if it is the text of that scalar with nothing but blanks
around it.  Everything else that is read as JSON begins with a bracket.
-/

namespace TieredUdf.Json

open Lexer (isBlank isNumberChar word?)

/-! ## The characters of numbers and words -/

theorem isNumberChar_of_isDigit {c : Char} (h : c.isDigit = true) : isNumberChar c = true := by
  simp [isNumberChar, h]

theorem spanDigits_eq {cs whole rest : List Char} (h : spanDigits cs = (whole, rest)) :
    cs = whole ++ rest ∧ ∀ c ∈ whole, c.isDigit = true := by
  rw [spanDigits, List.span_eq_takeWhile_dropWhile] at h
  obtain ⟨rfl, rfl⟩ := Prod.mk.inj h
  exact ⟨(List.takeWhile_append_dropWhile ..).symm, fun c mem => List.mem_takeWhile_imp mem⟩

theorem exponent?_chars {cs : List Char} {e : Option Int} (h : NumberText.exponent? cs = some e) :
    ∀ c ∈ cs, isNumberChar c = true := by
  cases cs with
  | nil => exact nofun
  | cons mark rest =>
      unfold NumberText.exponent? at h
      dsimp only at h
      by_cases none : mark ≠ 'e' ∧ mark ≠ 'E'
      · rw [if_pos none] at h
        cases h
      · rw [if_neg none] at h
        have isMark : isNumberChar mark = true := by
          by_cases small : mark = 'e'
          · subst small
            rfl
          · have great : mark = 'E' := by
              by_contra other
              exact none ⟨small, other⟩
            subst great
            rfl
        refine List.forall_mem_cons.mpr ⟨isMark, ?_⟩
        have all : ∀ digits : List Char, digits.all Char.isDigit = true →
            ∀ c ∈ digits, isNumberChar c = true := fun digits all c mem =>
          isNumberChar_of_isDigit (List.all_eq_true.mp all c mem)
        split at h
        · obtain ⟨⟨_, digits⟩, _⟩ := Option.ite_none_right_eq_some.mp h
          exact List.forall_mem_cons.mpr ⟨rfl, all _ digits⟩
        · obtain ⟨⟨_, digits⟩, _⟩ := Option.ite_none_right_eq_some.mp h
          exact List.forall_mem_cons.mpr ⟨rfl, all _ digits⟩
        · obtain ⟨⟨_, digits⟩, _⟩ := Option.ite_none_right_eq_some.mp h
          exact all _ digits

/-- A number text begins with a digit or a sign and has only the characters of numbers. -/
theorem ofChars?_chars {cs : List Char} {t : NumberText} (h : NumberText.ofChars? cs = some t) :
    ∃ c rest, cs = c :: rest ∧ (c.isDigit = true ∨ c = '-') ∧
      ∀ d ∈ rest, isNumberChar d = true := by
  unfold NumberText.ofChars? at h
  split at h
  rename_i negative body sign
  cases cut : spanDigits body with
  | mk whole rest =>
      simp only [cut, bind, Option.bind_eq_some_iff] at h
      obtain ⟨_, given, _, _, h⟩ := h
      obtain ⟨rfl, digits⟩ := spanDigits_eq cut
      have behind : ∀ c ∈ rest, isNumberChar c = true := by
        split at h
        · rename_i tail
          obtain ⟨_, _, h⟩ := Option.bind_eq_some_iff.mp h
          obtain ⟨e, exponent, _⟩ := Option.bind_eq_some_iff.mp h
          obtain ⟨same, places⟩ := spanDigits_eq (Prod.eta (spanDigits tail)).symm
          rw [same]
          refine List.forall_mem_cons.mpr ⟨rfl, List.forall_mem_append.mpr ⟨?_, ?_⟩⟩
          · exact fun c mem => isNumberChar_of_isDigit (places c mem)
          · exact exponent?_chars exponent
        · obtain ⟨e, exponent, _⟩ := Option.bind_eq_some_iff.mp h
          exact exponent?_chars exponent
      have inside : ∀ c ∈ whole ++ rest, isNumberChar c = true :=
        List.forall_mem_append.mpr ⟨fun c mem => isNumberChar_of_isDigit (digits c mem), behind⟩
      split at sign
      · obtain ⟨_, rfl⟩ := Prod.mk.inj sign
        exact ⟨'-', _, rfl, .inr rfl, inside⟩
      · obtain ⟨_, rfl⟩ := Prod.mk.inj sign
        cases whole with
        | nil => cases given
        | cons c whole =>
            exact ⟨c, whole ++ rest, rfl, .inl (digits c List.mem_cons_self),
              (List.forall_mem_cons.mp inside).2⟩

theorem word?_chars {cs : List Char} {v : Json} (h : word? cs = some v) :
    ∃ c rest, cs = c :: rest ∧ c.isLower = true ∧ ∀ d ∈ rest, d.isLower = true := by
  unfold word? at h
  split at h
  · exact ⟨_, _, rfl, rfl, List.all_eq_true.mp rfl⟩
  · exact ⟨_, _, rfl, rfl, List.all_eq_true.mp rfl⟩
  · exact ⟨_, _, rfl, rfl, List.all_eq_true.mp rfl⟩
  · cases h

theorem number?_chars {cs : List Char} {v : Json} (h : number? cs = some v) :
    ∃ c rest, cs = c :: rest ∧ (c.isDigit = true ∨ c = '-') ∧
      ∀ d ∈ rest, isNumberChar d = true := by
  obtain ⟨t, text, _⟩ := Option.bind_eq_some_iff.mp h
  exact ofChars?_chars text

/-! ## Scalars -/

def IsScalar : Json → Prop
  | .array _ => False
  | .object _ => False
  | _ => True

/-- The text of a scalar at the front of a text, and what follows it. -/
inductive ScalarText : List Char → Json → List Char → Prop
  | word {cs rest : List Char} {v : Json} (h : word? cs = some v) : ScalarText (cs ++ rest) v rest
  | number {cs rest : List Char} {v : Json} (h : number? cs = some v) :
      ScalarText (cs ++ rest) v rest
  | literal {cs text rest : List Char} (h : Quoted cs text rest) :
      ScalarText ('"' :: cs) (.string (String.ofList text)) rest

def Blank (cs : List Char) : Prop := ∀ c ∈ cs, isBlank c = true

/-- A text is that of a scalar with nothing but blanks around it. -/
def Writes (t : String) (v : Json) : Prop :=
  ∃ front cs back, t.toList = front ++ cs ∧ Blank front ∧ ScalarText cs v back ∧ Blank back

/-- The first thing in a text is an opening bracket. -/
def Bracketed (t : String) : Prop :=
  ∃ front c cs, t.toList = front ++ c :: cs ∧ Blank front ∧ (c = '[' ∨ c = '\x7b')

theorem Blank.lexes {front cs : List Char} {ts : List Token} (blank : Blank front)
    (h : Lexes cs ts) : Lexes (front ++ cs) ts := by
  induction front with
  | nil => exact h
  | cons c front ih =>
      obtain ⟨first, others⟩ := List.forall_mem_cons.mp blank
      exact .blank first (ih others)

theorem lexes_nil {cs : List Char} (h : Lexes cs []) : Blank cs := by
  generalize none : ([] : List Token) = ts at h
  induction h with
  | done => exact nofun
  | blank first _ ih => exact List.forall_mem_cons.mpr ⟨first, ih none⟩
  | mark => cases none
  | literal => cases none
  | number => cases none
  | word => cases none

/-- A run of characters that no blank is one of ends before blanks. -/
theorem run_before_blanks (part : Char → Bool) (never : ∀ c, isBlank c = true → part c = false)
    {cs back : List Char} (inside : ∀ c ∈ cs, part c = true) (blank : Blank back) :
    (cs ++ back).takeWhile part = cs ∧ (cs ++ back).dropWhile part = back := by
  rw [List.takeWhile_append_of_pos inside, List.dropWhile_append_of_pos inside]
  cases back with
  | nil => simp
  | cons c back => simp [never c (blank c List.mem_cons_self)]

theorem isBlank_cases {c : Char} (h : isBlank c = true) : c = ' ' ∨ c = '\n' ∨ c = '\t' ∨ c = '\r' := by
  simpa [isBlank, or_assoc] using h

theorem isLower_blank (c : Char) (h : isBlank c = true) : c.isLower = false := by
  rcases isBlank_cases h with rfl | rfl | rfl | rfl <;> rfl

theorem isNumberChar_blank (c : Char) (h : isBlank c = true) : isNumberChar c = false := by
  rcases isBlank_cases h with rfl | rfl | rfl | rfl <;> rfl

/-- A text has one token, and that a scalar, if it is the text of that scalar. -/
theorem ScalarText.lexes {cs back : List Char} {v : Json} (h : ScalarText cs v back)
    (blank : Blank back) : Lexes cs [.scalar v] := by
  have last : Lexes back [] := by
    have whole := blank.lexes .done
    rwa [List.append_nil] at whole
  cases h with
  | word value =>
      obtain ⟨c, rest, rfl, first, inside⟩ := word?_chars value
      obtain ⟨taken, left⟩ := run_before_blanks Char.isLower isLower_blank inside blank
      rw [List.cons_append]
      exact .word first (taken.symm ▸ value) (left.symm ▸ last)
  | number value =>
      obtain ⟨c, rest, rfl, first, inside⟩ := number?_chars value
      obtain ⟨taken, left⟩ := run_before_blanks isNumberChar isNumberChar_blank inside blank
      rw [List.cons_append]
      exact .number first (taken.symm ▸ value) (left.symm ▸ last)
  | literal quoted => exact .literal quoted last

theorem lexes_scalar {cs : List Char} {v : Json} (h : Lexes cs [.scalar v]) :
    ∃ front mid back, cs = front ++ mid ∧ Blank front ∧ ScalarText mid v back ∧ Blank back := by
  generalize only : [Token.scalar v] = ts at h
  induction h with
  | done => cases only
  | blank first _ ih =>
      obtain ⟨front, mid, back, rfl, blank, text, behind⟩ := ih only
      exact ⟨_ :: front, mid, back, rfl, List.forall_mem_cons.mpr ⟨first, blank⟩, text, behind⟩
  | mark is _ =>
      cases only
      unfold Token.mark? at is
      split at is <;> cases is
  | literal quoted others =>
      cases only
      exact ⟨[], _, _, rfl, nofun, .literal quoted, lexes_nil others⟩
  | @number c cs _ _ _ value others =>
      cases only
      have text : ScalarText _ v (cs.dropWhile isNumberChar) := .number value
      rw [List.cons_append, List.takeWhile_append_dropWhile] at text
      exact ⟨[], _, _, rfl, nofun, text, lexes_nil others⟩
  | @word c cs _ _ _ value others =>
      cases only
      have text : ScalarText _ v (cs.dropWhile Char.isLower) := .word value
      rw [List.cons_append, List.takeWhile_append_dropWhile] at text
      exact ⟨[], _, _, rfl, nofun, text, lexes_nil others⟩

/-! ## Readers -/

namespace Reader

/-- A reader inside of an array or an object, or behind one. -/
def Inside (r : Reader) : Prop :=
  match r.expect with
  | .value | .itemOrClose | .commaOrClose => r.frames ≠ []
  | .nameOrClose _ | .name _ | .colon _ _ => True
  | .nothing result => ¬ result.IsScalar

theorem complete_inside {frames : List Frame} {v : Json} (h : frames ≠ [] ∨ ¬ v.IsScalar) :
    (complete frames v).Inside := by
  unfold complete
  split
  · exact h.resolve_left fun some => some rfl
  · exact List.cons_ne_nil _ _
  · exact List.cons_ne_nil _ _

theorem begin?_inside {frames : List Frame} {t : Token} {r : Reader} (inner : frames ≠ [])
    (h : begin? frames t = some r) : r.Inside := by
  unfold begin? at h
  split at h
  · cases h
    exact complete_inside (.inl inner)
  · obtain ⟨_, opened⟩ := Option.ite_none_right_eq_some.mp h
    cases opened
    exact List.cons_ne_nil _ _
  · obtain ⟨_, opened⟩ := Option.ite_none_right_eq_some.mp h
    cases opened
    trivial
  · cases h

theorem name?_inside {frames : List Frame} {members : List (String × Json)} {t : Token}
    {r : Reader} (h : name? frames members t = some r) : r.Inside := by
  unfold name? at h
  split at h
  · cases h
    trivial
  · cases h

/-- What has been begun inside of an array or an object stays inside of it. -/
theorem step_inside {r next : Reader} {t : Token} (inside : r.Inside) (h : r.step t = some next) :
    next.Inside := by
  obtain ⟨frames, expect⟩ := r
  cases expect with
  | value => exact begin?_inside inside h
  | itemOrClose =>
      simp only [step] at h
      split at h
      · cases h
        exact complete_inside (.inr id)
      · exact begin?_inside inside h
  | nameOrClose members =>
      simp only [step] at h
      split at h
      · cases h
        exact complete_inside (.inr id)
      · exact name?_inside h
  | name members => exact name?_inside h
  | colon members name =>
      simp only [step] at h
      split at h
      · cases h
        exact List.cons_ne_nil _ _
      · cases h
  | commaOrClose =>
      simp only [step] at h
      split at h
      · cases h
        exact complete_inside (.inr id)
      · cases h
        exact inside
      · cases h
        exact complete_inside (.inr id)
      · cases h
        trivial
      · cases h
  | nothing result => cases h

theorem foldlM_inside {r last : Reader} {ts : List Token} (inside : r.Inside)
    (h : ts.foldlM step r = some last) : last.Inside := by
  induction ts generalizing r with
  | nil =>
      cases h
      exact inside
  | cons t ts ih =>
      rw [List.foldlM_cons] at h
      obtain ⟨next, taken, h⟩ := Option.bind_eq_some_iff.mp h
      exact ih (step_inside inside taken) h

/-- A scalar is the only token of its text; the tokens of everything else begin with a bracket. -/
theorem read_cases {ts : List Token} {j : Json}
    (h : (ts.foldlM step initial).bind finish = some j) :
    ts = [.scalar j] ∨
      ¬ j.IsScalar ∧ ∃ us, ts = .openArray :: us ∨ ts = .openObject :: us := by
  obtain ⟨last, read, done⟩ := Option.bind_eq_some_iff.mp h
  cases ts with
  | nil =>
      cases read
      cases done
  | cons t us =>
      rw [List.foldlM_cons] at read
      obtain ⟨next, taken, read⟩ := Option.bind_eq_some_iff.mp read
      have nested : next.Inside → ¬ j.IsScalar := by
        intro inside
        have still := foldlM_inside inside read
        unfold finish at done
        unfold Inside at still
        split at done
        · rename_i ends
          cases done
          simpa only [ends] using still
        · cases done
      cases t with
      | scalar v =>
          cases taken
          cases us with
          | nil =>
              cases read
              cases done
              exact .inl rfl
          | cons u us => cases read
      | openArray =>
          cases taken
          exact .inr ⟨nested (List.cons_ne_nil _ _), us, .inl rfl⟩
      | openObject =>
          cases taken
          exact .inr ⟨nested trivial, us, .inr rfl⟩
      | closeArray | closeObject | colon | comma => cases taken

end Reader

theorem parse?_eq (t : String) : parse? t =
    (tokens? t.toList).bind fun ts => (ts.foldlM Reader.step Reader.initial).bind Reader.finish := rfl

theorem Writes.parse? {t : String} {v : Json} (h : Writes t v) : parse? t = some v := by
  obtain ⟨front, cs, back, split, before, text, behind⟩ := h
  have tokens := tokens?_eq_some.mpr (before.lexes (text.lexes behind))
  rw [parse?_eq, split, tokens]
  rfl

theorem lexes_bracket {cs : List Char} {t : Token} {us : List Token} (h : Lexes cs (t :: us))
    (opens : t = .openArray ∨ t = .openObject) :
    ∃ front c rest, cs = front ++ c :: rest ∧ Blank front ∧ (c = '[' ∨ c = '\x7b') := by
  generalize first : t :: us = ts at h
  induction h with
  | done => cases first
  | blank blank _ ih =>
      obtain ⟨front, c, rest, rfl, before, bracket⟩ := ih first
      exact ⟨_ :: front, c, rest, rfl, List.forall_mem_cons.mpr ⟨blank, before⟩, bracket⟩
  | @mark c rest _ _ is _ =>
      cases first
      refine ⟨[], c, rest, rfl, nofun, ?_⟩
      unfold Token.mark? at is
      split at is <;> cases is <;> simp at opens ⊢
  | literal | number | word =>
      cases first
      rcases opens with opens | opens <;> cases opens

/-- What reads as JSON is the text of a scalar, or it is no scalar and begins with a bracket. -/
theorem parse?_cases {t : String} {j : Json} (h : parse? t = some j) :
    Writes t j ∨ ¬ j.IsScalar ∧ Bracketed t := by
  rw [parse?_eq] at h
  obtain ⟨ts, tokens, read⟩ := Option.bind_eq_some_iff.mp h
  have lexes := tokens?_eq_some.mp tokens
  rcases Reader.read_cases read with rfl | ⟨nested, us, first⟩
  · obtain ⟨front, mid, back, split, before, text, behind⟩ := lexes_scalar lexes
    exact .inl ⟨front, mid, back, split, before, text, behind⟩
  · rcases first with rfl | rfl
    · exact .inr ⟨nested, lexes_bracket lexes (.inl rfl)⟩
    · exact .inr ⟨nested, lexes_bracket lexes (.inr rfl)⟩

theorem parse?_eq_scalar {t : String} {v : Json} (scalar : v.IsScalar) :
    parse? t = some v ↔ Writes t v := by
  refine ⟨fun h => ?_, Writes.parse?⟩
  rcases parse?_cases h with writes | ⟨nested, _⟩
  · exact writes
  · exact absurd scalar nested

/-- The text of a scalar does not begin with a bracket. -/
theorem Bracketed.not_writes {t : String} (h : Bracketed t) (v : Json) : ¬ Writes t v := by
  rintro ⟨first, mid, back, split, before, text, behind⟩
  obtain ⟨front, c, cs, split', blank, bracket⟩ := h
  have tokens := tokens?_eq_some.mpr (before.lexes (text.lexes behind))
  rw [← split, split'] at tokens
  have opens : ∃ m, Token.mark? c = some m ∧ m ≠ .scalar v := by
    rcases bracket with rfl | rfl
    · exact ⟨_, rfl, nofun⟩
    · exact ⟨_, rfl, nofun⟩
  obtain ⟨m, mark, other⟩ := opens
  have read : Lexer.tokensFrom? ⟨[], .between⟩ (front ++ c :: cs) = some [.scalar v] := tokens
  rw [Lexer.tokensFrom?_blanks blank, Lexer.tokensFrom?_cons, Lexer.step, Lexer.start_mark mark,
    Option.bind_some] at read
  obtain ⟨us, _, same⟩ := Lexer.tokensFrom?_between.mp read
  exact other (List.cons.inj same).1.symm

/-! ## Texts and other values -/

theorem word?_not_string {cs : List Char} {s : String} : word? cs ≠ some (.string s) := by
  unfold word?
  split <;> simp

theorem number?_not_string {cs : List Char} {s : String} : number? cs ≠ some (.string s) := by
  intro h
  obtain ⟨t, _, value⟩ := Option.bind_eq_some_iff.mp h
  unfold NumberText.value? at value
  dsimp only at value
  -- The last cases are those of a number that is not kept as an integer.
  split at value
  · split at value
    · cases value
    · split at value
      · cases value
      · obtain ⟨x, _, same⟩ := Option.map_eq_some_iff.mp value
        cases same
  · obtain ⟨x, _, same⟩ := Option.map_eq_some_iff.mp value
    cases same

/-- A text is a literal of a string, with nothing but blanks around it. -/
def Literal (t s : String) : Prop :=
  ∃ front cs back, t.toList = front ++ '"' :: cs ∧ Blank front ∧ Quoted cs s.toList back ∧ Blank back

theorem writes_string {t s : String} : Writes t (.string s) ↔ Literal t s := by
  constructor
  · rintro ⟨front, mid, back, split, before, text, behind⟩
    generalize string : Json.string s = v at text
    cases text with
    | word value =>
        subst string
        exact absurd value word?_not_string
    | number value =>
        subst string
        exact absurd value number?_not_string
    | @literal cs text _ quoted =>
        cases string
        rw [← String.toList_ofList (l := text)] at quoted
        exact ⟨front, cs, back, split, before, quoted, behind⟩
  · rintro ⟨front, cs, back, split, before, quoted, behind⟩
    have text := ScalarText.literal quoted
    rw [String.ofList_toList] at text
    exact ⟨front, _, back, split, before, text, behind⟩

end TieredUdf.Json
