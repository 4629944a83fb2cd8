import TieredUdf.Proofs.Json.Lexing

/-! # String literals

A grammar of what may stand between quotes, apart from the lexer, and the lexer's agreement with
it: once a quote is read, a text has tokens if and only if it goes on with the rest of a literal,
and then the first of them is the string that the grammar gives.
-/

namespace TieredUdf.Json

open Lexer (escaped? hexValue? finishUnicode)

/-- Four hexadecimal digits, their number and what follows them. -/
inductive Hex4 : List Char → Nat → List Char → Prop
  | digits {a b c d : Char} {x y z w : Nat} {rest : List Char} (first : hexValue? a = some x)
      (second : hexValue? b = some y) (third : hexValue? c = some z)
      (fourth : hexValue? d = some w) :
      Hex4 (a :: b :: c :: d :: rest) (((x * 16 + y) * 16 + z) * 16 + w) rest

/-- One character between quotes as it is written, what it stands for and what follows it.  A
character past the first 65536 may be written as two numbers, as in UTF-16. -/
inductive Letter : List Char → Char → List Char → Prop
  | plain {c : Char} {rest : List Char} (quote : c ≠ '"') (slash : c ≠ '\\')
      (printable : 0x20 ≤ c.toNat) : Letter (c :: rest) c rest
  | short {mark c : Char} {rest : List Char} (stands : escaped? mark = some c) :
      Letter ('\\' :: mark :: rest) c rest
  | numbered {cs rest : List Char} {c : Char} (number : Hex4 cs c.toNat rest) :
      Letter ('\\' :: 'u' :: cs) c rest
  | paired {cs ds rest : List Char} {c : Char} {high low : Nat}
      (first : Hex4 cs high ('\\' :: 'u' :: ds)) (isHigh : 0xd800 ≤ high ∧ high < 0xdc00)
      (second : Hex4 ds low rest) (isLow : 0xdc00 ≤ low ∧ low < 0xe000)
      (number : c.toNat = 0x10000 + (high - 0xd800) * 0x400 + (low - 0xdc00)) :
      Letter ('\\' :: 'u' :: cs) c rest

/-- What stands behind an opening quote, the text it denotes and what follows the closing one. -/
inductive Quoted : List Char → List Char → List Char → Prop
  | close {rest : List Char} : Quoted ('"' :: rest) [] rest
  | letter {cs mid text rest : List Char} {c : Char} (first : Letter cs c mid)
      (others : Quoted mid text rest) : Quoted cs (c :: text) rest

theorem Hex4.length_lt {cs rest : List Char} {n : Nat} (h : Hex4 cs n rest) :
    rest.length < cs.length := by
  cases h
  simp only [List.length_cons]
  omega

theorem Letter.length_lt {cs rest : List Char} {c : Char} (h : Letter cs c rest) :
    rest.length < cs.length := by
  cases h with
  | plain => exact Nat.lt_succ_self _
  | short =>
      simp only [List.length_cons]
      omega
  | numbered number =>
      have shorter := number.length_lt
      simp only [List.length_cons]
      omega
  | paired first _ second =>
      have before := first.length_lt
      have after := second.length_lt
      simp only [List.length_cons] at before ⊢
      omega

theorem Quoted.length_lt {cs text rest : List Char} (h : Quoted cs text rest) :
    rest.length < cs.length := by
  induction h with
  | close => exact Nat.lt_succ_self _
  | letter first _ ih => exact ih.trans first.length_lt

/-! ## Numbers of four digits -/

namespace Lexer

theorem hexValue?_lt {c : Char} {x : Nat} (h : hexValue? c = some x) : x < 16 := by
  unfold hexValue? at h
  split at h
  · rename_i digit
    have upper : c.toNat ≤ 57 := of_decide_eq_true (Bool.and_eq_true_iff.mp digit).2
    cases h
    omega
  · split at h
    · rename_i small
      have upper : c.toNat ≤ 102 := small.2
      cases h
      omega
    · split at h
      · rename_i capital
        have upper : c.toNat ≤ 70 := capital.2
        cases h
        omega
      · cases h

end Lexer

theorem Hex4.lt {cs rest : List Char} {n : Nat} (h : Hex4 cs n rest) : n < 0x10000 := by
  cases h with
  | digits first second third fourth =>
      have a := Lexer.hexValue?_lt first
      have b := Lexer.hexValue?_lt second
      have c := Lexer.hexValue?_lt third
      have d := Lexer.hexValue?_lt fourth
      omega

namespace Lexer

variable {before : List Token} {collected cs : List Char} {high : Option Nat} {ts : List Token}

/-- The tokens from a digit of an escape on. -/
theorem tokensFrom?_hexDigit {missing value : Nat} :
    tokensFrom? ⟨before, .unicode collected high missing value⟩ cs = some ts ↔
      ∃ c rest x, cs = c :: rest ∧ hexValue? c = some x ∧
        ((if missing ≤ 1 then finishUnicode before collected high (value * 16 + x)
          else some ⟨before, .unicode collected high (missing - 1) (value * 16 + x)⟩).bind
            fun next => next.tokensFrom? rest) = some ts := by
  cases cs with
  | nil => simp [tokensFrom?, finish]
  | cons c rest =>
      rw [tokensFrom?_cons]
      cases digit : hexValue? c with
      | none => simp [step, digit]
      | some x => simp [step, digit]

/-- The tokens from the four digits of an escape on. -/
theorem tokensFrom?_hex4 :
    tokensFrom? ⟨before, .unicode collected high 4 0⟩ cs = some ts ↔
      ∃ n rest, Hex4 cs n rest ∧
        ((finishUnicode before collected high n).bind fun next => next.tokensFrom? rest) =
          some ts := by
  constructor
  · intro h
    obtain ⟨a, cs, x, rfl, first, h⟩ := tokensFrom?_hexDigit.mp h
    obtain ⟨b, cs, y, rfl, second, h⟩ := tokensFrom?_hexDigit.mp h
    obtain ⟨c, cs, z, rfl, third, h⟩ := tokensFrom?_hexDigit.mp h
    obtain ⟨d, cs, w, rfl, fourth, h⟩ := tokensFrom?_hexDigit.mp h
    refine ⟨_, cs, .digits first second third fourth, ?_⟩
    simpa using h
  · rintro ⟨_, rest, ⟨first, second, third, fourth⟩, h⟩
    refine tokensFrom?_hexDigit.mpr ⟨_, _, _, rfl, first, ?_⟩
    refine tokensFrom?_hexDigit.mpr ⟨_, _, _, rfl, second, ?_⟩
    refine tokensFrom?_hexDigit.mpr ⟨_, _, _, rfl, third, ?_⟩
    refine tokensFrom?_hexDigit.mpr ⟨_, _, _, rfl, fourth, ?_⟩
    simpa using h

/-! ## Between quotes -/

theorem toNat_ofNat {n : Nat} (valid : n < 0xd800 ∨ 0xe000 ≤ n ∧ n < 0x110000) :
    (Char.ofNat n).toNat = n := by
  have isChar : n.isValidChar := valid
  rw [Char.ofNat, dif_pos isChar]
  rfl

theorem toNat_valid (c : Char) : c.toNat < 0xd800 ∨ 0xe000 ≤ c.toNat ∧ c.toNat < 0x110000 := c.valid

/-- The tokens between a high surrogate and the end of its character. -/
theorem tokensFrom?_low {h : Nat} (isHigh : 0xd800 ≤ h ∧ h < 0xdc00) :
    tokensFrom? ⟨before, .lowSlash collected h⟩ cs = some ts ↔
      ∃ ds low rest c, cs = '\\' :: 'u' :: ds ∧ Hex4 ds low rest ∧ (0xdc00 ≤ low ∧ low < 0xe000) ∧
        c.toNat = 0x10000 + (h - 0xd800) * 0x400 + (low - 0xdc00) ∧
        tokensFrom? ⟨before, .text (c :: collected)⟩ rest = some ts := by
  constructor
  · intro read
    obtain _ | ⟨slash, _ | ⟨mark, ds⟩⟩ := cs
    · cases read
    · rw [tokensFrom?_cons] at read
      by_cases isSlash : slash = '\\'
      · simp [step, isSlash, tokensFrom?, finish] at read
      · simp [step, isSlash] at read
    · rw [tokensFrom?_cons] at read
      by_cases isSlash : slash = '\\'
      · by_cases isMark : mark = 'u'
        · subst isSlash isMark
          obtain ⟨low, rest, digits, read⟩ := tokensFrom?_hex4.mp read
          by_cases isLow : 0xdc00 ≤ low ∧ low < 0xe000
          · simp only [finishUnicode, isLow, and_self, if_true, Option.bind_some] at read
            exact ⟨ds, low, rest, _, rfl, digits, isLow, toNat_ofNat (by omega), read⟩
          · simp [finishUnicode, isLow] at read
        · simp [step, isSlash, isMark, tokensFrom?_cons] at read
      · simp [step, isSlash] at read
  · rintro ⟨ds, low, rest, c, rfl, digits, isLow, number, read⟩
    refine tokensFrom?_hex4.mpr ⟨low, rest, digits, ?_⟩
    simp only [finishUnicode, isLow, and_self, if_true, Option.bind_some]
    rwa [← number, Char.ofNat_toNat]

/-- The tokens from an escape's number on. -/
theorem tokensFrom?_numbered :
    tokensFrom? ⟨before, .unicode collected none 4 0⟩ cs = some ts ↔
      ∃ c rest, Letter ('\\' :: 'u' :: cs) c rest ∧
        tokensFrom? ⟨before, .text (c :: collected)⟩ rest = some ts := by
  rw [tokensFrom?_hex4]
  constructor
  · rintro ⟨n, rest, digits, read⟩
    by_cases isHigh : 0xd800 ≤ n ∧ n < 0xdc00
    · simp only [finishUnicode, isHigh, and_self, if_true, Option.bind_some] at read
      obtain ⟨ds, low, rest, c, rfl, second, isLow, number, read⟩ := (tokensFrom?_low isHigh).mp read
      exact ⟨c, rest, .paired digits isHigh second isLow number, read⟩
    · by_cases isLow : 0xdc00 ≤ n ∧ n < 0xe000
      · simp [finishUnicode, isHigh, isLow] at read
      · simp only [finishUnicode, isHigh, isLow, if_false, Option.bind_some] at read
        have small := digits.lt
        have value := toNat_ofNat (n := n) (by omega)
        exact ⟨_, rest, .numbered (value.symm ▸ digits), read⟩
  · rintro ⟨c, rest, letter, read⟩
    cases letter with
    | plain _ slash => exact absurd rfl slash
    | short stands => cases stands
    | numbered number =>
        have scalar := toNat_valid c
        have isHigh : ¬ (0xd800 ≤ c.toNat ∧ c.toNat < 0xdc00) := by omega
        have isLow : ¬ (0xdc00 ≤ c.toNat ∧ c.toNat < 0xe000) := by omega
        refine ⟨_, rest, number, ?_⟩
        simp only [finishUnicode, isHigh, isLow, if_false, Option.bind_some]
        rwa [Char.ofNat_toNat]
    | paired first isHigh second isLow number =>
        refine ⟨_, _, first, ?_⟩
        simp only [finishUnicode, isHigh, and_self, if_true, Option.bind_some]
        exact (tokensFrom?_low isHigh).mpr ⟨_, _, rest, c, rfl, second, isLow, number, read⟩

/-- The tokens behind a backslash. -/
theorem tokensFrom?_escape :
    tokensFrom? ⟨before, .escape collected⟩ cs = some ts ↔
      ∃ c rest, Letter ('\\' :: cs) c rest ∧
        tokensFrom? ⟨before, .text (c :: collected)⟩ rest = some ts := by
  obtain _ | ⟨mark, cs⟩ := cs
  · refine ⟨nofun, ?_⟩
    rintro ⟨c, rest, letter, -⟩
    cases letter with
    | plain _ slash => exact absurd rfl slash
  · rw [tokensFrom?_cons]
    by_cases isNumber : mark = 'u'
    · subst isNumber
      exact tokensFrom?_numbered
    · constructor
      · intro read
        obtain ⟨next, taken, read⟩ := Option.bind_eq_some_iff.mp read
        simp only [step, isNumber, if_false] at taken
        obtain ⟨c, stands, rfl⟩ := Option.map_eq_some_iff.mp taken
        exact ⟨c, cs, .short stands, read⟩
      · rintro ⟨c, rest, letter, read⟩
        cases letter with
        | plain _ slash => exact absurd rfl slash
        | short stands => simpa [step, isNumber, stands] using read
        | numbered => exact absurd rfl isNumber
        | paired => exact absurd rfl isNumber

/-- Between quotes, the literal ends or a letter follows. -/
theorem tokensFrom?_text :
    tokensFrom? ⟨before, .text collected⟩ cs = some ts ↔
      (∃ rest, cs = '"' :: rest ∧ tokensFrom?
        ⟨.scalar (.string (String.ofList collected.reverse)) :: before, .between⟩ rest = some ts) ∨
      ∃ c rest, Letter cs c rest ∧
        tokensFrom? ⟨before, .text (c :: collected)⟩ rest = some ts := by
  constructor
  · intro read
    obtain _ | ⟨c, rest⟩ := cs
    · cases read
    · rw [tokensFrom?_cons] at read
      by_cases quote : c = '"'
      · subst quote
        exact .inl ⟨rest, rfl, read⟩
      · by_cases slash : c = '\\'
        · subst slash
          refine .inr (tokensFrom?_escape.mp ?_)
          exact read
        · by_cases control : c.toNat < 0x20
          · simp [step, quote, slash, control] at read
          · simp only [step, quote, slash, control, if_false, Option.bind_some] at read
            exact .inr ⟨c, rest, .plain quote slash (Nat.le_of_not_lt control), read⟩
  · rintro (⟨rest, rfl, read⟩ | ⟨c, rest, letter, read⟩)
    · exact read
    · cases letter with
      | plain quote slash printable =>
          have control : ¬ c.toNat < 0x20 := Nat.not_lt.mpr printable
          simpa [tokensFrom?_cons, step, quote, slash, control] using read
      | short stands => exact tokensFrom?_escape.mpr ⟨c, rest, .short stands, read⟩
      | numbered number => exact tokensFrom?_escape.mpr ⟨c, rest, .numbered number, read⟩
      | paired first isHigh second isLow number =>
          exact tokensFrom?_escape.mpr ⟨c, rest, .paired first isHigh second isLow number, read⟩

/-- Between quotes, the rest of the literal follows. -/
theorem tokensFrom?_quoted :
    tokensFrom? ⟨before, .text collected⟩ cs = some ts ↔
      ∃ text rest, Quoted cs text rest ∧ tokensFrom?
        ⟨.scalar (.string (String.ofList (collected.reverse ++ text))) :: before, .between⟩ rest =
          some ts := by
  constructor
  -- by what is left of the text, since an escape takes several characters at once
  · induction len : cs.length using Nat.strongRecOn generalizing cs collected with
    | ind n ih =>
        intro read
        rcases tokensFrom?_text.mp read with ⟨rest, rfl, read⟩ | ⟨c, mid, letter, read⟩
        · refine ⟨[], rest, .close, ?_⟩
          rwa [List.append_nil]
        · obtain ⟨text, rest, others, read⟩ := ih mid.length (len ▸ letter.length_lt) rfl read
          refine ⟨c :: text, rest, .letter letter others, ?_⟩
          simpa using read
  · rintro ⟨text, rest, quoted, read⟩
    induction quoted generalizing collected with
    | close =>
        rw [List.append_nil] at read
        exact tokensFrom?_text.mpr (.inl ⟨_, rfl, read⟩)
    | letter first _ ih =>
        refine tokensFrom?_text.mpr (.inr ⟨_, _, first, ih ?_⟩)
        simpa using read

end Lexer

end TieredUdf.Json
