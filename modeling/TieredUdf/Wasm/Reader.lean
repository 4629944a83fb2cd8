import TieredUdf.Numeric.Range

/-!
# Reading bytes

A reader takes bytes off the front of a list.  Integers are in the variable-length form with
seven bits a byte, the lowest first; a reader of a given width refuses a longer form and bits
beyond the width.
-/

namespace TieredUdf.Wasm

open Numeric (powerOfTwo)

/-- Takes a value off the front of some bytes, or refuses them. -/
abbrev Reader (α : Type) : Type := StateT (List UInt8) Option α

namespace Reader

def refuse {α : Type} : Reader α := fun _ => none

def byte : Reader UInt8
  | [] => none
  | b :: rest => some (b, rest)

def take (count : Nat) : Reader (List UInt8) := fun bytes =>
  if count ≤ bytes.length then some (bytes.take count, bytes.drop count) else none

def atEnd : Reader Bool := fun bytes => some (bytes.isEmpty, bytes)

/-- Run a reader on bytes that it has to take completely. -/
def whole {α : Type} (r : Reader α) (bytes : List UInt8) : Option α :=
  match r bytes with
  | some (value, []) => some value
  | _ => none

/-- Groups of seven bits, at most `fuel` of them, of which the first weighs `2 ^ shift`.  The
last group of all may not exceed what is left of `bits`. -/
def unsignedGroups (bits : Nat) : Nat → Nat → Nat → Reader Nat
  | 0, _, _ => refuse
  | fuel + 1, shift, sum => do
      let b ← byte
      let group := b.toNat % 128
      if bits < shift + 7 ∧ powerOfTwo (bits - shift) ≤ group then refuse
      else if b < 128 then return sum + group * powerOfTwo shift
      else unsignedGroups bits fuel (shift + 7) (sum + group * powerOfTwo shift)

def unsigned (bits : Nat) : Reader Nat := unsignedGroups bits ((bits + 6) / 7) 0 0

/-- Groups of seven bits of a signed integer.  The top bit of the last group is the sign, and in
the last possible group every unused bit equals it. -/
def signedGroups (bits : Nat) : Nat → Nat → Int → Reader Int
  | 0, _, _ => refuse
  | fuel + 1, shift, sum => do
      let b ← byte
      if b < 128 then
        let group : Int := if b.toNat < 64 then b.toNat else (b.toNat : Int) - 128
        let half : Int := powerOfTwo (bits - shift - 1)
        if bits < shift + 7 ∧ ¬(-half ≤ group ∧ group < half) then refuse
        else return sum + group * powerOfTwo shift
      else signedGroups bits fuel (shift + 7) (sum + (b.toNat % 128 : Nat) * powerOfTwo shift)

def signed (bits : Nat) : Reader Int := signedGroups bits ((bits + 6) / 7) 0 0

def u32 : Reader Nat := unsigned 32

def word (bytes : Nat) : Reader Nat := do
  return (← take bytes).foldr (fun b n => b.toNat + 256 * n) 0

def maxTextLength : Nat := 100000

/-- A text: its length in bytes and then its UTF-8 form. -/
def text : Reader String := do
  let length ← u32
  if maxTextLength < length then refuse
  let bytes ← take length
  match String.fromUTF8? ⟨bytes.toArray⟩ with
  | some s => return s
  | none => refuse

/-- So many values of one kind, after those already collected (last one first). -/
def collect {α : Type} (item : Reader α) : Nat → List α → Reader (List α)
  | 0, collected => return collected.reverse
  | count + 1, collected => do
      let value ← item
      collect item count (value :: collected)

def vector {α : Type} (item : Reader α) : Reader (List α) := do
  let count ← u32
  collect item count []

/-- Values of one kind up to the end of the bytes; each has to take at least one. -/
def many {α : Type} (item : Reader α) : Nat → List α → Reader (List α)
  | 0, _ => refuse
  | fuel + 1, collected => do
      if ← atEnd then return collected.reverse
      else
        let value ← item
        many item fuel (value :: collected)

def allOf {α : Type} (item : Reader α) (bytes : List UInt8) : Option (List α) :=
  whole (many item (bytes.length + 1) []) bytes

end Reader

end TieredUdf.Wasm
