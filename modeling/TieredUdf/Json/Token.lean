import TieredUdf.Json.Basic
import TieredUdf.Numeric.Decimal

/-!
# JSON tokens

The lexer reads one character at a time and keeps the token it is inside of as its mode, so that
a text is read by one fold.  Number texts are cut out first and read as a whole.
-/

namespace TieredUdf.Json

open Numeric (collectDigits digitsValue fitsInt64 fitsWord64 steppedDecimal?)

inductive Token where
  | openObject
  | closeObject
  | openArray
  | closeArray
  | colon
  | comma
  | scalar (value : Json)
  deriving Inhabited

/-! ### Numbers -/

def spanDigits (cs : List Char) : List Char × List Char := cs.span Char.isDigit

/-- The parts of a number text: sign, digits before the point, digits after it and the exponent
where they are given. -/
structure NumberText where
  negative : Bool
  whole : List Char
  fraction : Option (List Char)
  exponent : Option Int

namespace NumberText

/-- An exponent part, with everything before it already read. -/
def exponent? : List Char → Option (Option Int)
  | [] => some none
  | mark :: rest =>
      if mark ≠ 'e' ∧ mark ≠ 'E' then none
      else
        let (negative, digits) := match rest with
          | '-' :: ds => (true, ds)
          | '+' :: ds => (false, ds)
          | ds => (false, ds)
        if digits ≠ [] ∧ digits.all Char.isDigit then
          let n : Int := digitsValue digits
          some (some (if negative then -n else n))
        else none

/-- Split a number text.  The digits before the point have no leading zero, and a point is
followed by a digit. -/
def ofChars? (cs : List Char) : Option NumberText := do
  let (negative, cs) := match cs with
    | '-' :: rest => (true, rest)
    | cs => (false, cs)
  let (whole, rest) := spanDigits cs
  guard (whole ≠ [])
  guard (whole.length = 1 ∨ whole.head? ≠ some '0')
  match rest with
  | '.' :: rest =>
      let (fraction, rest) := spanDigits rest
      guard (fraction ≠ [])
      return ⟨negative, whole, some fraction, ← exponent? rest⟩
  | rest => return ⟨negative, whole, none, ← exponent? rest⟩

/-- The value of a number text.  An integer that fits 64 bits stays one; the negative zero does
not.  Of digits that fit no more only the places before the point count. -/
def value? (t : NumberText) : Option Json :=
  let (significand, dropped) := collectDigits 0 t.whole
  match t.fraction, t.exponent with
  | none, none =>
      let n := digitsValue t.whole
      if t.negative ∧ 0 < n ∧ fitsInt64 (-n) then some (.integer (-n))
      else if ¬t.negative ∧ fitsWord64 n then some (.integer n)
      else (steppedDecimal? t.negative significand dropped.length).map .number
  | fraction, exponent =>
      let places := fraction.getD []
      let (significand, unread) := collectDigits significand places
      let read := places.length - unread.length
      let exponent := dropped.length - read + exponent.getD 0
      (steppedDecimal? t.negative significand exponent).map .number

end NumberText

def number? (cs : List Char) : Option Json := (NumberText.ofChars? cs).bind NumberText.value?

/-! ### The lexer -/

/-- Where the lexer stands.  Collected characters are held last one first. -/
inductive LexMode where
  | between
  | word (collected : List Char)
  | number (collected : List Char)
  | text (collected : List Char)
  | escape (collected : List Char)
  /-- Inside a `\u` escape with so many digits to come; `high` is a high surrogate before it. -/
  | unicode (collected : List Char) (high : Option Nat) (missing value : Nat)
  /-- After a high surrogate, before the backslash of the low one. -/
  | lowSlash (collected : List Char) (high : Nat)
  /-- After that backslash, before its `u`. -/
  | lowMark (collected : List Char) (high : Nat)

/-- A lexer in the middle of a text; the tokens are held last one first. -/
structure Lexer where
  tokens : List Token
  mode : LexMode

namespace Lexer

def initial : Lexer := ⟨[], .between⟩

def isBlank (c : Char) : Bool := c == ' ' || c == '\n' || c == '\t' || c == '\r'

def isNumberChar (c : Char) : Bool :=
  c.isDigit || c == '-' || c == '+' || c == '.' || c == 'e' || c == 'E'

def word? : List Char → Option Json
  | ['n', 'u', 'l', 'l'] => some .null
  | ['t', 'r', 'u', 'e'] => some (.bool true)
  | ['f', 'a', 'l', 's', 'e'] => some (.bool false)
  | _ => none

/-- Begin a token outside of every other one. -/
def start (tokens : List Token) (c : Char) : Option Lexer :=
  if isBlank c then some ⟨tokens, .between⟩
  else if c = '"' then some ⟨tokens, .text []⟩
  else if c = '\x7b' then some ⟨.openObject :: tokens, .between⟩
  else if c = '\x7d' then some ⟨.closeObject :: tokens, .between⟩
  else if c = '[' then some ⟨.openArray :: tokens, .between⟩
  else if c = ']' then some ⟨.closeArray :: tokens, .between⟩
  else if c = ':' then some ⟨.colon :: tokens, .between⟩
  else if c = ',' then some ⟨.comma :: tokens, .between⟩
  else if c.isDigit || c == '-' then some ⟨tokens, .number [c]⟩
  else if c.isLower then some ⟨tokens, .word [c]⟩
  else none

def escaped? (c : Char) : Option Char :=
  match c with
  | '"' => some '"'
  | '\\' => some '\\'
  | '/' => some '/'
  | 'b' => some '\x08'
  | 'f' => some '\x0c'
  | 'n' => some '\n'
  | 'r' => some '\r'
  | 't' => some '\t'
  | _ => none

def hexValue? (c : Char) : Option Nat :=
  if c.isDigit then some (c.toNat - 48)
  else if 'a' ≤ c ∧ c ≤ 'f' then some (c.toNat - 87)
  else if 'A' ≤ c ∧ c ≤ 'F' then some (c.toNat - 55)
  else none

/-- What follows once all four digits of an escape are read.  A low surrogate counts only right
after a high one. -/
def finishUnicode (tokens : List Token) (collected : List Char) (high : Option Nat)
    (value : Nat) : Option Lexer :=
  match high with
  | none =>
      if 0xd800 ≤ value ∧ value < 0xdc00 then some ⟨tokens, .lowSlash collected value⟩
      else if 0xdc00 ≤ value ∧ value < 0xe000 then none
      else some ⟨tokens, .text (Char.ofNat value :: collected)⟩
  | some h =>
      if 0xdc00 ≤ value ∧ value < 0xe000 then
        let c := Char.ofNat (0x10000 + (h - 0xd800) * 0x400 + (value - 0xdc00))
        some ⟨tokens, .text (c :: collected)⟩
      else none

def step (l : Lexer) (c : Char) : Option Lexer :=
  match l.mode with
  | .between => start l.tokens c
  | .word collected =>
      if c.isLower then some ⟨l.tokens, .word (c :: collected)⟩
      else do
        let value ← word? collected.reverse
        start (.scalar value :: l.tokens) c
  | .number collected =>
      if isNumberChar c then some ⟨l.tokens, .number (c :: collected)⟩
      else do
        let value ← number? collected.reverse
        start (.scalar value :: l.tokens) c
  | .text collected =>
      if c = '"' then
        some ⟨.scalar (.string (String.ofList collected.reverse)) :: l.tokens, .between⟩
      else if c = '\\' then some ⟨l.tokens, .escape collected⟩
      else if c.toNat < 0x20 then none
      else some ⟨l.tokens, .text (c :: collected)⟩
  | .escape collected =>
      if c = 'u' then some ⟨l.tokens, .unicode collected none 4 0⟩
      else (escaped? c).map fun e => ⟨l.tokens, .text (e :: collected)⟩
  | .unicode collected high missing value => do
      let digit ← hexValue? c
      let value := value * 16 + digit
      if missing ≤ 1 then finishUnicode l.tokens collected high value
      else some ⟨l.tokens, .unicode collected high (missing - 1) value⟩
  | .lowSlash collected high =>
      if c = '\\' then some ⟨l.tokens, .lowMark collected high⟩ else none
  | .lowMark collected high =>
      if c = 'u' then some ⟨l.tokens, .unicode collected (some high) 4 0⟩ else none

def finish (l : Lexer) : Option (List Token) :=
  match l.mode with
  | .between => some l.tokens.reverse
  | .word collected => (word? collected.reverse).map fun v => (.scalar v :: l.tokens).reverse
  | .number collected => (number? collected.reverse).map fun v => (.scalar v :: l.tokens).reverse
  | _ => none

end Lexer

def tokens? (cs : List Char) : Option (List Token) :=
  (cs.foldlM Lexer.step Lexer.initial).bind Lexer.finish

end TieredUdf.Json
