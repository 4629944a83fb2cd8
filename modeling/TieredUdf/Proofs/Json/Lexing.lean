import Mathlib.Data.List.Basic
import Mathlib.Data.List.TakeDrop
import Mathlib.Data.List.TakeWhile
import Mathlib.Data.Option.Basic
import TieredUdf.Json.Parser
import TieredUdf.Json.Printer

/-! # The tokens of a written text

What the printer writes for a text, an integer or a word is read as one token, whatever stands
before it, as long as it is not followed by a character that could be a part of it.
-/

namespace TieredUdf.Json

open Numeric (digitsValue)

namespace Lexer

def tokensFrom? (l : Lexer) (cs : List Char) : Option (List Token) :=
  (cs.foldlM step l).bind finish

theorem tokensFrom?_cons (l : Lexer) (c : Char) (cs : List Char) :
    l.tokensFrom? (c :: cs) = (l.step c).bind fun next => next.tokensFrom? cs := by
  unfold tokensFrom?
  rw [List.foldlM_cons]
  exact Option.bind_assoc ..

/-- No number and no word goes on with the first of some characters. -/
def Apart (cs : List Char) : Prop := ∀ c ∈ cs.head?, isNumberChar c = false ∧ c.isLower = false

/-- A text is read as some tokens, whatever was read before it, unless its last token goes on
after it. -/
def Reads (s : String) (ts : List Token) : Prop :=
  ∀ before after, Apart after →
    tokensFrom? ⟨before, .between⟩ (s.toList ++ after) =
      tokensFrom? ⟨ts.reverse ++ before, .between⟩ after

/-- A text is read as some tokens, whatever stands before it and after it. -/
def Delimits (s : String) (ts : List Token) : Prop :=
  ∀ before after,
    tokensFrom? ⟨before, .between⟩ (s.toList ++ after) =
      tokensFrom? ⟨ts.reverse ++ before, .between⟩ after

theorem Delimits.reads {s : String} {ts : List Token} (h : Delimits s ts) : Reads s ts :=
  fun before after _ => h before after

theorem Delimits.append {s t : String} {ts us : List Token} (h : Delimits s ts)
    (k : Reads t us) : Reads (s ++ t) (ts ++ us) := by
  intro before after apart
  have first := h before (t.toList ++ after)
  have second := k (ts.reverse ++ before) after apart
  rw [String.toList_append, List.append_assoc, first, second, List.reverse_append,
    List.append_assoc]

theorem Reads.append {s t : String} {ts us : List Token} (h : Reads s ts) (k : Reads t us)
    (apart : Apart t.toList) (given : t.toList ≠ []) : Reads (s ++ t) (ts ++ us) := by
  intro before after ha
  have apart' : Apart (t.toList ++ after) := by
    cases split : t.toList with
    | nil => exact absurd split given
    | cons c cs =>
        rw [split] at apart
        exact apart
  have first := h before (t.toList ++ after) apart'
  have second := k (ts.reverse ++ before) after ha
  rw [String.toList_append, List.append_assoc, first, second, List.reverse_append,
    List.append_assoc]

theorem Reads.tokens? {s : String} {ts : List Token} (h : Reads s ts) :
    tokens? s.toList = some ts := by
  have whole := h [] [] nofun
  simp only [List.append_nil] at whole
  refine whole.trans ?_
  simp [tokensFrom?, finish]

/-! ## Punctuation -/

theorem delimits_openObject : Delimits "\x7b" [.openObject] := fun _ _ => rfl

theorem delimits_closeObject : Delimits "\x7d" [.closeObject] := fun _ _ => rfl

theorem delimits_openArray : Delimits "[" [.openArray] := fun _ _ => rfl

theorem delimits_closeArray : Delimits "]" [.closeArray] := fun _ _ => rfl

theorem delimits_emptyArray : Delimits "[]" [.openArray, .closeArray] := fun _ _ => rfl

theorem delimits_emptyObject : Delimits "\x7b\x7d" [.openObject, .closeObject] := fun _ _ => rfl

theorem delimits_comma : Delimits "," [.comma] := fun _ _ => rfl

theorem delimits_colon : Delimits ": " [.colon] := fun _ _ => rfl

/-- Blanks between tokens are passed over. -/
theorem tokensFrom?_blanks {cs : List Char} (blank : ∀ c ∈ cs, isBlank c = true)
    (before : List Token) (after : List Char) :
    tokensFrom? ⟨before, .between⟩ (cs ++ after) = tokensFrom? ⟨before, .between⟩ after := by
  induction cs with
  | nil => rfl
  | cons c cs ih =>
      obtain ⟨first, others⟩ := List.forall_mem_cons.mp blank
      have here : Lexer.step ⟨before, .between⟩ c = some ⟨before, .between⟩ := by
        simp [Lexer.step, start, first]
      rw [List.cons_append, tokensFrom?_cons, here]
      exact ih others

theorem delimits_newline (depth : Nat) : Delimits (newline depth) [] := by
  intro before after
  refine tokensFrom?_blanks (fun c hc => ?_) before after
  rw [newline, String.toList_ofList] at hc
  rcases List.mem_cons.mp hc with rfl | space
  · rfl
  · rw [List.eq_of_mem_replicate space]
    rfl

/-! ## Words and numbers -/

/-- A scalar whose characters were collected ends where none of them goes on. -/
theorem tokensFrom?_ended {l : Lexer} {value : Option Json} {after : List Char}
    (stops : ∀ c ∈ after.head?, l.step c = value.bind fun v => start (.scalar v :: l.tokens) c)
    (finishes : l.finish = value.map fun v => (.scalar v :: l.tokens).reverse) :
    l.tokensFrom? after =
      value.bind fun v => tokensFrom? ⟨.scalar v :: l.tokens, .between⟩ after := by
  cases after with
  | nil => cases value <;> simpa [tokensFrom?, finish] using finishes
  | cons c after =>
      rw [tokensFrom?_cons, stops c rfl, Option.bind_assoc]
      refine Option.bind_congr fun v _ => ?_
      rw [tokensFrom?_cons]
      rfl

theorem tokensFrom?_number {after : List Char} (apart : Apart after) (before : List Token)
    (collected : List Char) :
    tokensFrom? ⟨before, .number collected⟩ after =
      (number? collected.reverse).bind fun v =>
        tokensFrom? ⟨.scalar v :: before, .between⟩ after := by
  have stops : ∀ c ∈ after.head?, Lexer.step ⟨before, .number collected⟩ c =
      (number? collected.reverse).bind fun v => start (.scalar v :: before) c :=
    fun c hc => by simp [Lexer.step, (apart c hc).1]
  exact tokensFrom?_ended stops rfl

theorem tokensFrom?_word {after : List Char} (apart : Apart after) (before : List Token)
    (collected : List Char) :
    tokensFrom? ⟨before, .word collected⟩ after =
      (word? collected.reverse).bind fun v =>
        tokensFrom? ⟨.scalar v :: before, .between⟩ after := by
  have stops : ∀ c ∈ after.head?, Lexer.step ⟨before, .word collected⟩ c =
      (word? collected.reverse).bind fun v => start (.scalar v :: before) c :=
    fun c hc => by simp [Lexer.step, (apart c hc).2]
  exact tokensFrom?_ended stops rfl

theorem reads_null : Reads "null" [.scalar .null] :=
  fun before _ apart => tokensFrom?_word apart before ['l', 'l', 'u', 'n']

theorem reads_true : Reads "true" [.scalar (.bool true)] :=
  fun before _ apart => tokensFrom?_word apart before ['e', 'u', 'r', 't']

theorem reads_false : Reads "false" [.scalar (.bool false)] :=
  fun before _ apart => tokensFrom?_word apart before ['e', 's', 'l', 'a', 'f']

/-- The characters of a number are collected. -/
theorem tokensFrom?_collect {cs : List Char} (digits : ∀ c ∈ cs, c.isDigit = true)
    (before : List Token) (collected after : List Char) :
    tokensFrom? ⟨before, .number collected⟩ (cs ++ after) =
      tokensFrom? ⟨before, .number (cs.reverse ++ collected)⟩ after := by
  induction cs generalizing collected with
  | nil => rfl
  | cons c cs ih =>
      obtain ⟨first, others⟩ := List.forall_mem_cons.mp digits
      have here : Lexer.step ⟨before, .number collected⟩ c =
          some ⟨before, .number (c :: collected)⟩ := by
        simp [Lexer.step, isNumberChar, first]
      rw [List.cons_append, tokensFrom?_cons, here]
      refine (ih others (c :: collected)).trans ?_
      simp

theorem start_number {c : Char} (h : c.isDigit = true ∨ c = '-') (before : List Token) :
    start before c = some ⟨before, .number [c]⟩ := by
  rcases h with digit | rfl
  · have other : ∀ x : Char, x.isDigit = false → c ≠ x := by
      rintro x no rfl
      rw [digit] at no
      cases no
    have blank : isBlank c = false := by
      simp [isBlank, other ' ' rfl, other '\n' rfl, other '\t' rfl, other '\r' rfl]
    simp [start, blank, digit, other '"' rfl, other '\x7b' rfl, other '\x7d' rfl, other '[' rfl,
      other ']' rfl, other ':' rfl, other ',' rfl]
  · rfl

/-- A number text that begins with a digit or a sign and goes on with digits. -/
theorem reads_number {s : String} {c : Char} {cs : List Char} {v : Json} (text : s.toList = c :: cs)
    (first : c.isDigit = true ∨ c = '-') (digits : ∀ d ∈ cs, d.isDigit = true)
    (value : number? (c :: cs) = some v) : Reads s [.scalar v] := by
  intro before after apart
  have here : Lexer.step ⟨before, .between⟩ c = some ⟨before, .number [c]⟩ :=
    start_number first before
  have collected := tokensFrom?_collect digits before [c] after
  have ended := tokensFrom?_number apart before (cs.reverse ++ [c])
  rw [List.reverse_append, List.reverse_reverse, List.reverse_singleton, List.singleton_append,
    value] at ended
  rw [text, List.cons_append, tokensFrom?_cons, here]
  exact collected.trans ended

end Lexer

/-! ## The digits of integers -/

theorem digitsValue_toDigits (n : Nat) : digitsValue (Nat.toDigits 10 n) = n := by
  rw [Numeric.digitsValue_eq, Nat.ofDigitChars_ten_toDigits]

theorem digits_of_toDigits (n : Nat) : ∀ c ∈ Nat.toDigits 10 n, c.isDigit = true :=
  fun _ hc => Nat.isDigit_of_mem_toDigits (by decide) (by decide) hc

theorem spanDigits_toDigits (n : Nat) : spanDigits (Nat.toDigits 10 n) = (Nat.toDigits 10 n, []) := by
  have all := digits_of_toDigits n
  rw [spanDigits, List.span_eq_takeWhile_dropWhile, List.takeWhile_eq_self_iff.mpr all,
    List.dropWhile_eq_nil_iff.mpr all]

/-- Only zero is written with a zero at the front. -/
theorem toDigits_head (n : Nat) (positive : 0 < n) : (Nat.toDigits 10 n).head? ≠ some '0' := by
  induction n using Nat.strongRecOn with
  | ind n ih =>
      by_cases small : n < 10
      · have digit : Nat.digitChar n ≠ '0' := by
          have all : ∀ k : Fin 10, 0 < k.val → Nat.digitChar k.val ≠ '0' := by decide
          exact all ⟨n, small⟩ positive
        rw [Nat.toDigits_of_lt_base small]
        simpa using digit
      · have split := Nat.toDigits_of_base_le (b := 10) (by decide) (Nat.le_of_not_lt small)
        have shorter := ih (n / 10) (by omega) (by omega)
        rw [split, List.head?_append_of_ne_nil _ Nat.toDigits_ne_nil]
        exact shorter

theorem toDigits_unpadded (n : Nat) :
    (Nat.toDigits 10 n).length = 1 ∨ (Nat.toDigits 10 n).head? ≠ some '0' := by
  cases n with
  | zero => exact Or.inl (by simp)
  | succ n => exact Or.inr (toDigits_head _ n.succ_pos)

theorem toDigits_unsigned (n : Nat) (cs : List Char) : Nat.toDigits 10 n ≠ '-' :: cs := by
  intro same
  have digit := digits_of_toDigits n '-' (by simp [same])
  cases digit

theorem ofChars?_toDigits (n : Nat) :
    NumberText.ofChars? (Nat.toDigits 10 n) = some ⟨false, Nat.toDigits 10 n, none, none⟩ := by
  have span := spanDigits_toDigits n
  have unpadded := toDigits_unpadded n
  have given : Nat.toDigits 10 n ≠ [] := Nat.toDigits_ne_nil
  unfold NumberText.ofChars?
  split
  rename_i negative cs parts
  split at parts
  · exact absurd ‹_› (toDigits_unsigned n _)
  · obtain ⟨rfl, rfl⟩ := Prod.mk.inj parts
    simp [span, unpadded, given, NumberText.exponent?]

theorem ofChars?_negative (n : Nat) :
    NumberText.ofChars? ('-' :: Nat.toDigits 10 n) =
      some ⟨true, Nat.toDigits 10 n, none, none⟩ := by
  have span := spanDigits_toDigits n
  have unpadded := toDigits_unpadded n
  have given : Nat.toDigits 10 n ≠ [] := Nat.toDigits_ne_nil
  simp [NumberText.ofChars?, span, unpadded, given, NumberText.exponent?]

/-- The integers that a JSON text can hold as integers. -/
def Representable (n : Int) : Prop := Numeric.minInt64 ≤ n ∧ n ≤ Numeric.maxWord64

theorem number?_toDigits {n : Nat} (h : Representable n) :
    number? (Nat.toDigits 10 n) = some (.integer n) := by
  have fits : n ≤ Numeric.maxWord64 := Int.ofNat_le.mp h.2
  simp [number?, ofChars?_toDigits, NumberText.value?, digitsValue_toDigits, Numeric.fitsWord64,
    fits]

theorem number?_negative {n : Nat} (h : Representable (-(n : Int))) (positive : 0 < n) :
    number? ('-' :: Nat.toDigits 10 n) = some (.integer (-(n : Int))) := by
  have fits : Numeric.minInt64 ≤ -(n : Int) ∧ -(n : Int) ≤ Numeric.maxInt64 := by
    refine ⟨h.1, ?_⟩
    unfold Numeric.maxInt64
    omega
  simp [number?, ofChars?_negative, NumberText.value?, digitsValue_toDigits, Numeric.fitsInt64,
    fits, positive]

theorem reads_integer {n : Int} (h : Representable n) :
    Lexer.Reads (toString n) [.scalar (.integer n)] := by
  cases n with
  | ofNat n =>
      have text : (toString (Int.ofNat n)).toList = Nat.toDigits 10 n := Nat.toList_repr
      have value := number?_toDigits h
      have digits := digits_of_toDigits n
      cases split : Nat.toDigits 10 n with
      | nil => exact absurd split Nat.toDigits_ne_nil
      | cons c cs =>
          rw [split] at text value digits
          obtain ⟨first, others⟩ := List.forall_mem_cons.mp digits
          exact Lexer.reads_number text (Or.inl first) others value
  | negSucc n =>
      have text : (toString (Int.negSucc n)).toList = '-' :: Nat.toDigits 10 (n + 1) := by
        change ("-" ++ Nat.repr (n + 1)).toList = _
        rw [String.toList_append, Nat.toList_repr]
        rfl
      have same : Int.negSucc n = -((n + 1 : Nat) : Int) := rfl
      rw [same] at h
      have value := number?_negative h n.succ_pos
      exact Lexer.reads_number text (Or.inr rfl) (digits_of_toDigits _) value

/-! ## Texts between quotes -/

namespace Lexer

theorem hexValue?_digit {k : Nat} (h : k < 16) :
    hexValue? (if k < 10 then Char.ofNat (48 + k) else Char.ofNat (87 + k)) = some k := by
  have all : ∀ k : Fin 16,
      hexValue? (if k.val < 10 then Char.ofNat (48 + k) else Char.ofNat (87 + k)) = some k.val := by
    decide
  exact all ⟨k, h⟩

/-- A control character that is written by its number. -/
theorem tokensFrom?_digits {c : Char} (control : c.toNat < 0x20) (before : List Token)
    (collected after : List Char) :
    tokensFrom? ⟨before, .text collected⟩ (escapeDigits c.toNat ++ after) =
      tokensFrom? ⟨before, .text (c :: collected)⟩ after := by
  have high := hexValue?_digit (k := c.toNat / 16) (by omega)
  have low := hexValue?_digit (k := c.toNat % 16) (by omega)
  have zero : hexValue? '0' = some 0 := rfl
  have value : c.toNat / 16 * 16 + c.toNat % 16 = c.toNat := by omega
  have plain : ¬ (0xd800 ≤ c.toNat ∧ c.toNat < 0xdc00) := by omega
  have alone : ¬ (0xdc00 ≤ c.toNat ∧ c.toNat < 0xe000) := by omega
  simp [escapeDigits, tokensFrom?_cons, Lexer.step, high, low, zero, value, finishUnicode, plain,
    alone]

/-- One character of a text, as it is written. -/
theorem tokensFrom?_escapeChar (c : Char) (before : List Token) (collected after : List Char) :
    tokensFrom? ⟨before, .text collected⟩ (escapeChar c ++ after) =
      tokensFrom? ⟨before, .text (c :: collected)⟩ after := by
  unfold escapeChar
  split
  · subst_vars; rfl
  split
  · subst_vars; rfl
  split
  · subst_vars; rfl
  split
  · subst_vars; rfl
  split
  · subst_vars; rfl
  split
  · subst_vars; rfl
  split
  · subst_vars; rfl
  split
  · exact tokensFrom?_digits ‹_› before collected after
  · rename_i quote slash _ _ _ _ _ control
    simp [tokensFrom?_cons, Lexer.step, quote, slash, control]

theorem tokensFrom?_escaped (cs : List Char) (before : List Token) (collected after : List Char) :
    tokensFrom? ⟨before, .text collected⟩ (cs.flatMap escapeChar ++ after) =
      tokensFrom? ⟨before, .text (cs.reverse ++ collected)⟩ after := by
  induction cs generalizing collected with
  | nil => rfl
  | cons c cs ih =>
      rw [List.flatMap_cons, List.append_assoc, tokensFrom?_escapeChar, ih]
      simp

/-- A text is read back as it was, whatever characters are in it. -/
theorem delimits_string (s : String) : Delimits (renderString s) [.scalar (.string s)] := by
  intro before after
  have text : (renderString s).toList ++ after =
      '"' :: (s.toList.flatMap escapeChar ++ '"' :: after) := by
    rw [renderString, String.toList_ofList]
    simp
  have opened : Lexer.step ⟨before, .between⟩ '"' = some ⟨before, .text []⟩ := rfl
  have closed : Lexer.step ⟨before, .text s.toList.reverse⟩ '"' =
      some ⟨.scalar (.string s) :: before, .between⟩ := by
    simp [Lexer.step]
  rw [text, tokensFrom?_cons, opened]
  refine (tokensFrom?_escaped s.toList before [] ('"' :: after)).trans ?_
  rw [List.append_nil, tokensFrom?_cons, closed]
  rfl

end Lexer

end TieredUdf.Json
