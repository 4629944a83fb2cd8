import TieredUdf.Proofs.Json.Literals

/-! # The tokens of any text

A grammar with one case for each kind of token, and the lexer's agreement with it: a text has
tokens if and only if the grammar gives them.
-/

namespace TieredUdf.Json

open Lexer (isBlank isNumberChar word?)

/-- The token that one character is. -/
def Token.mark? (c : Char) : Option Token :=
  match c with
  | '\x7b' => some .openObject
  | '\x7d' => some .closeObject
  | '[' => some .openArray
  | ']' => some .closeArray
  | ':' => some .colon
  | ',' => some .comma
  | _ => none

/-- The tokens of a text.  Words and numbers go on as long as they can. -/
inductive Lexes : List Char → List Token → Prop
  | done : Lexes [] []
  | blank {c : Char} {cs : List Char} {ts : List Token} (h : isBlank c = true)
      (others : Lexes cs ts) : Lexes (c :: cs) ts
  | mark {c : Char} {cs : List Char} {t : Token} {ts : List Token} (h : Token.mark? c = some t)
      (others : Lexes cs ts) : Lexes (c :: cs) (t :: ts)
  | literal {cs text rest : List Char} {ts : List Token} (h : Quoted cs text rest)
      (others : Lexes rest ts) :
      Lexes ('"' :: cs) (.scalar (.string (String.ofList text)) :: ts)
  | number {c : Char} {cs : List Char} {v : Json} {ts : List Token}
      (first : c.isDigit = true ∨ c = '-')
      (h : number? (c :: cs.takeWhile isNumberChar) = some v)
      (others : Lexes (cs.dropWhile isNumberChar) ts) : Lexes (c :: cs) (.scalar v :: ts)
  | word {c : Char} {cs : List Char} {v : Json} {ts : List Token} (first : c.isLower = true)
      (h : word? (c :: cs.takeWhile Char.isLower) = some v)
      (others : Lexes (cs.dropWhile Char.isLower) ts) : Lexes (c :: cs) (.scalar v :: ts)

namespace Lexer

/-- A token whose characters are collected as long as they are of its kind. -/
theorem tokensFrom?_run {mode : List Char → LexMode} {part : Char → Bool}
    {value : List Char → Option Json} {before : List Token}
    (goes : ∀ collected c, part c = true →
      step ⟨before, mode collected⟩ c = some ⟨before, mode (c :: collected)⟩)
    (stops : ∀ collected c, part c = false → step ⟨before, mode collected⟩ c =
      (value collected.reverse).bind fun v => start (.scalar v :: before) c)
    (ends : ∀ collected, finish ⟨before, mode collected⟩ =
      (value collected.reverse).map fun v => (.scalar v :: before).reverse)
    (collected cs : List Char) :
    tokensFrom? ⟨before, mode collected⟩ cs =
      (value (collected.reverse ++ cs.takeWhile part)).bind fun v =>
        tokensFrom? ⟨.scalar v :: before, .between⟩ (cs.dropWhile part) := by
  induction cs generalizing collected with
  | nil => simpa using tokensFrom?_ended (by simp) (ends collected)
  | cons c cs ih =>
      cases kind : part c with
      | true =>
          rw [tokensFrom?_cons, goes collected c kind, Option.bind_some, ih]
          simp [kind]
      | false =>
          have here : ∀ d ∈ (c :: cs).head?, step ⟨before, mode collected⟩ d =
              (value collected.reverse).bind fun v => start (.scalar v :: before) d := by
            rintro d ⟨⟩
            exact stops collected c kind
          simpa [kind] using
            tokensFrom?_ended here (ends collected)

theorem tokensFrom?_wholeNumber (before : List Token) (c : Char) (cs : List Char) :
    tokensFrom? ⟨before, .number [c]⟩ cs =
      (number? (c :: cs.takeWhile isNumberChar)).bind fun v =>
        tokensFrom? ⟨.scalar v :: before, .between⟩ (cs.dropWhile isNumberChar) := by
  refine tokensFrom?_run ?_ ?_ (fun _ => rfl) [c] cs
  · intro collected d more
    simp [step, more]
  · intro collected d other
    simp [step, other]

theorem tokensFrom?_wholeWord (before : List Token) (c : Char) (cs : List Char) :
    tokensFrom? ⟨before, .word [c]⟩ cs =
      (word? (c :: cs.takeWhile Char.isLower)).bind fun v =>
        tokensFrom? ⟨.scalar v :: before, .between⟩ (cs.dropWhile Char.isLower) := by
  refine tokensFrom?_run ?_ ?_ (fun _ => rfl) [c] cs
  · intro collected d more
    simp [step, more]
  · intro collected d other
    simp [step, other]

theorem start_mark {c : Char} {t : Token} (h : Token.mark? c = some t) (before : List Token) :
    start before c = some ⟨t :: before, .between⟩ := by
  unfold Token.mark? at h
  split at h <;> cases h <;> rfl

theorem isDigit_of_isLower {c : Char} (h : c.isLower = true) : c.isDigit = false := by
  obtain ⟨low, _⟩ := Bool.and_eq_true_iff.mp h
  refine Bool.eq_false_iff.mpr fun digit => ?_
  obtain ⟨_, high⟩ := Bool.and_eq_true_iff.mp digit
  have above : 97 ≤ c.toNat := of_decide_eq_true low
  have below : c.toNat ≤ 57 := of_decide_eq_true high
  omega

theorem start_word {c : Char} (h : c.isLower = true) (before : List Token) :
    start before c = some ⟨before, .word [c]⟩ := by
  have other : ∀ x : Char, x.isLower = false → c ≠ x := by
    rintro x no rfl
    rw [h] at no
    cases no
  have blank : isBlank c = false := by
    simp [isBlank, other ' ' rfl, other '\n' rfl, other '\t' rfl, other '\r' rfl]
  have digit := isDigit_of_isLower h
  simp [start, blank, digit, h, other '"' rfl, other '\x7b' rfl, other '\x7d' rfl, other '[' rfl,
    other ']' rfl, other ':' rfl, other ',' rfl, other '-' rfl]

/-- What may begin where no token is being read. -/
theorem start_cases {before : List Token} {c : Char} {l : Lexer} (h : start before c = some l) :
    (isBlank c = true ∧ l = ⟨before, .between⟩) ∨ (c = '"' ∧ l = ⟨before, .text []⟩) ∨
      (∃ t, Token.mark? c = some t ∧ l = ⟨t :: before, .between⟩) ∨
      ((c.isDigit = true ∨ c = '-') ∧ l = ⟨before, .number [c]⟩) ∨
      (c.isLower = true ∧ l = ⟨before, .word [c]⟩) := by
  by_cases mark : ∃ t, Token.mark? c = some t
  · obtain ⟨t, mark⟩ := mark
    rw [start_mark mark] at h
    cases h
    exact .inr (.inr (.inl ⟨t, mark, rfl⟩))
  · have other : ∀ x t, Token.mark? x = some t → c ≠ x := by
      rintro x t is rfl
      exact mark ⟨t, is⟩
    simp only [start, other '\x7b' _ rfl, other '\x7d' _ rfl, other '[' _ rfl, other ']' _ rfl,
      other ':' _ rfl, other ',' _ rfl, if_false] at h
    split at h
    · cases h
      exact .inl ⟨‹_›, rfl⟩
    split at h
    · cases h
      exact .inr (.inl ⟨‹_›, rfl⟩)
    split at h
    · rename_i first
      cases h
      rw [Bool.or_eq_true, beq_iff_eq] at first
      exact .inr (.inr (.inr (.inl ⟨first, rfl⟩)))
    split at h
    · cases h
      exact .inr (.inr (.inr (.inr ⟨‹_›, rfl⟩)))
    · cases h

/-- The lexer gives exactly the tokens of the grammar, behind those that it had. -/
theorem tokensFrom?_between {before : List Token} {cs : List Char} {ts : List Token} :
    tokensFrom? ⟨before, .between⟩ cs = some ts ↔ ∃ us, Lexes cs us ∧ ts = before.reverse ++ us := by
  constructor
  -- by what is left of the text: a token ends where the rest of the text begins
  · induction len : cs.length using Nat.strongRecOn generalizing cs before with
    | ind n ih =>
        intro read
        obtain _ | ⟨c, cs⟩ := cs
        · cases read
          exact ⟨[], .done, (List.append_nil _).symm⟩
        · rw [tokensFrom?_cons] at read
          obtain ⟨l, began, read⟩ := Option.bind_eq_some_iff.mp read
          subst len
          rcases start_cases began with ⟨blank, rfl⟩ | ⟨rfl, rfl⟩ | ⟨t, mark, rfl⟩ | ⟨first, rfl⟩ |
            ⟨first, rfl⟩
          · obtain ⟨us, others, rfl⟩ := ih cs.length (Nat.lt_succ_self _) rfl read
            exact ⟨us, .blank blank others, rfl⟩
          · obtain ⟨text, rest, quoted, read⟩ := tokensFrom?_quoted.mp read
            obtain ⟨us, others, rfl⟩ := ih rest.length (Nat.lt_succ_of_lt quoted.length_lt) rfl read
            refine ⟨_, .literal quoted others, ?_⟩
            simp
          · obtain ⟨us, others, rfl⟩ := ih cs.length (Nat.lt_succ_self _) rfl read
            refine ⟨_, .mark mark others, ?_⟩
            simp
          · rw [tokensFrom?_wholeNumber] at read
            obtain ⟨v, value, read⟩ := Option.bind_eq_some_iff.mp read
            have shorter := (List.dropWhile_suffix isNumberChar (l := cs)).length_le
            obtain ⟨us, others, rfl⟩ := ih _ (Nat.lt_succ_of_le shorter) rfl read
            refine ⟨_, .number first value others, ?_⟩
            simp
          · rw [tokensFrom?_wholeWord] at read
            obtain ⟨v, value, read⟩ := Option.bind_eq_some_iff.mp read
            have shorter := (List.dropWhile_suffix Char.isLower (l := cs)).length_le
            obtain ⟨us, others, rfl⟩ := ih _ (Nat.lt_succ_of_le shorter) rfl read
            refine ⟨_, .word first value others, ?_⟩
            simp
  · rintro ⟨us, lexes, rfl⟩
    induction lexes generalizing before with
    | done => simp [tokensFrom?, finish]
    | blank blank _ ih =>
        rw [tokensFrom?_cons, step, start, if_pos blank]
        exact ih
    | mark mark _ ih =>
        rw [tokensFrom?_cons, step, start_mark mark, Option.bind_some, ih]
        simp
    | literal quoted _ ih =>
        refine tokensFrom?_quoted.mpr ⟨_, _, quoted, ?_⟩
        rw [ih]
        simp
    | number first value _ ih =>
        rw [tokensFrom?_cons, step, start_number first, Option.bind_some, tokensFrom?_wholeNumber,
          value, Option.bind_some, ih]
        simp
    | word first value _ ih =>
        rw [tokensFrom?_cons, step, start_word first, Option.bind_some, tokensFrom?_wholeWord,
          value, Option.bind_some, ih]
        simp

end Lexer

/-- The tokens of a text are those of the grammar. -/
theorem tokens?_eq_some {cs : List Char} {ts : List Token} :
    tokens? cs = some ts ↔ Lexes cs ts := by
  have whole : tokens? cs = Lexer.tokensFrom? ⟨[], .between⟩ cs := rfl
  rw [whole, Lexer.tokensFrom?_between]
  simp

end TieredUdf.Json
