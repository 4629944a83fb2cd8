import TieredUdf.Host.Call
import TieredUdf.Proofs.Guest.Memory
import TieredUdf.Proofs.Text.Encoding

/-! # Texts in guest memory

A name can be read when it stands as a whole inside of the memory and is not too long, and a text
is handed out as a whole or not at all.
-/

namespace TieredUdf.Host

open Guest (Memory)

/-- A text stands in memory, so many bytes from an address on. -/
structure TextAt (memory : Option Memory) (ptr len : Int) (text : String) : Prop where
  ptr_nonneg : 0 ≤ ptr
  len_nonneg : 0 ≤ len
  bytes : ∃ m, memory = some m ∧ ptr + len ≤ m.size ∧
    m.bytes ptr.toNat len.toNat = text.toUTF8.toList

theorem TextAt.len_eq {memory : Option Memory} {ptr len : Int} {text : String}
    (h : TextAt memory ptr len text) : len = text.utf8ByteSize := by
  obtain ⟨m, _, _, bytes⟩ := h.bytes
  have lengths := congrArg List.length bytes
  rw [Memory.length_bytes, Text.length_toUTF8] at lengths
  have := h.len_nonneg
  omega

theorem readText?_eq_some {memory : Option Memory} {ptr len maximum : Int} {text : String} :
    readText? memory ptr len maximum = some text ↔ TextAt memory ptr len text ∧ len ≤ maximum := by
  unfold readText?
  split
  · rename_i refused
    refine ⟨nofun, fun ⟨stands, short⟩ => ?_⟩
    have := stands.ptr_nonneg
    have := stands.len_nonneg
    omega
  · rename_i accepted
    constructor
    · intro read
      obtain ⟨m, here, read⟩ := Option.bind_eq_some_iff.mp read
      obtain ⟨bytes, copied, decoded⟩ := Option.bind_eq_some_iff.mp read
      unfold Memory.read? Memory.covers at copied
      split at copied
      · rename_i inside
        cases copied
        have inside := of_decide_eq_true inside
        refine ⟨⟨by omega, by omega, m, here, by omega, ?_⟩, by omega⟩
        exact (Text.fromUTF8?_eq_some.mp decoded).symm
      · cases copied
    · rintro ⟨⟨_, _, m, rfl, inside, bytes⟩, _⟩
      have copied : m.read? ptr.toNat len.toNat = some text.toUTF8.toList := by
        rw [← bytes]
        exact if_pos (decide_eq_true (by omega))
      refine Option.bind_eq_some_iff.mpr ⟨m, rfl, ?_⟩
      exact Option.bind_eq_some_iff.mpr ⟨_, copied, Text.fromUTF8?_toUTF8 text⟩

/-- The name at a range, which is at most 1024 bytes long. -/
theorem readName?_eq_some {memory : Option Memory} {r : Range} {text : String} :
    readName? memory r = some text ↔
      TextAt memory r.ptr.toInt r.len.toInt text ∧ r.len.toInt ≤ 1024 :=
  readText?_eq_some

/-- The memory that holds a text and nothing else. -/
def holding (text : String) : Memory :=
  (Memory.zeros text.utf8ByteSize).setBytes 0 text.toUTF8.toList

theorem textAt_holding (text : String) : TextAt (some (holding text)) 0 text.utf8ByteSize text := by
  have size : (holding text).size = text.utf8ByteSize := Memory.size_setBytes _ _ _
  have bytes : (holding text).bytes 0 text.utf8ByteSize = text.toUTF8.toList := by
    rw [← Text.length_toUTF8]
    exact Memory.bytes_setBytes _ _ _
  exact ⟨Int.le_refl _, Int.natCast_nonneg _, _, rfl, by omega, by simpa using bytes⟩

/-- A name can be read at a range. -/
def Readable (memory : Option Memory) (r : Range) : Prop :=
  ∃ name, TextAt memory r.ptr.toInt r.len.toInt name ∧ r.len.toInt ≤ 1024

theorem isSome_readName? {memory : Option Memory} {r : Range} :
    (readName? memory r).isSome ↔ Readable memory r := by
  rw [Option.isSome_iff_exists]
  exact exists_congr fun _ => readName?_eq_some

instance (memory : Option Memory) (r : Range) : Decidable (Readable memory r) :=
  decidable_of_iff _ isSome_readName?

/-! ## Handing out -/

/-- A range lies inside of a memory and has room for a text. -/
structure Range.Takes (out : Range) (m : Memory) (text : String) : Prop where
  ptr_nonneg : 0 ≤ out.ptr.toInt
  inside : out.ptr.toInt + out.len.toInt ≤ m.size
  room : text.utf8ByteSize ≤ out.len.toInt

/-- A text has been written to a range, and nothing else. -/
structure Range.Written (out : Range) (before after : Memory) (text : String) : Prop where
  size : after.size = before.size
  bytes : after.bytes out.ptr.toInt.toNat text.utf8ByteSize = text.toUTF8.toList
  outside : ∀ a : Nat, a < out.ptr.toInt ∨ out.ptr.toInt + text.utf8ByteSize ≤ a →
    after.byte a = before.byte a

/-- A text is handed out when there is room for it in the range and its bytes lie inside. -/
theorem copyOut_of_fits {out : Range} {m : Memory} {text : String} (ptr : 0 ≤ out.ptr.toInt)
    (room : text.utf8ByteSize ≤ out.len.toInt)
    (inside : out.ptr.toInt + text.utf8ByteSize ≤ m.size) :
    ∃ after, copyOut (some m) text out = .ok (after, text.utf8ByteSize) ∧
      out.Written m after text := by
  have length : text.toUTF8.toList.length = text.utf8ByteSize := Text.length_toUTF8 text
  have written : m.write? out.ptr.toInt.toNat text.toUTF8.toList =
      some (m.setBytes out.ptr.toInt.toNat text.toUTF8.toList) :=
    if_pos (decide_eq_true (by omega))
  refine ⟨m.setBytes out.ptr.toInt.toNat text.toUTF8.toList, ?_, ?_, ?_, fun a away => ?_⟩
  · unfold copyOut
    dsimp only
    rw [if_neg (by omega), if_neg (by omega), Option.bind_some, written, length]
  · exact m.size_setBytes _ _
  · rw [← length]
    exact m.bytes_setBytes _ _
  · exact m.byte_setBytes_outside (by omega)

/-- So many bytes from an address on lie inside of the memory. -/
def Inside (memory : Option Memory) (ptr : Int) (length : Nat) : Prop :=
  ∃ m, memory = some m ∧ ptr + length ≤ m.size

theorem copyOut_of_outside {memory : Option Memory} {out : Range} {text : String}
    (ptr : 0 ≤ out.ptr.toInt) (room : text.utf8ByteSize ≤ out.len.toInt)
    (beyond : ¬ Inside memory out.ptr.toInt text.utf8ByteSize) :
    copyOut memory text out = .error .memoryFault := by
  have length : text.toUTF8.toList.length = text.utf8ByteSize := Text.length_toUTF8 text
  unfold copyOut
  dsimp only
  rw [if_neg (by omega), if_neg (by omega)]
  cases memory with
  | none => rfl
  | some m =>
      have refused : m.write? out.ptr.toInt.toNat text.toUTF8.toList = none :=
        if_neg fun covered => beyond ⟨m, rfl, by have := of_decide_eq_true covered; omega⟩
      rw [Option.bind_some, refused]

/-- A text that fits is handed out, and the answer is its length in bytes. -/
theorem State.answerText_of_fits (s : State) {out : Range} {m : Memory} {text : String}
    (ptr : 0 ≤ out.ptr.toInt) (room : text.utf8ByteSize ≤ out.len.toInt)
    (inside : out.ptr.toInt + text.utf8ByteSize ≤ m.size) :
    ∃ after n, s.answerText (some m) (some text) out = ⟨s, some after, [.i32 n]⟩ ∧
      n.toInt = text.utf8ByteSize ∧ out.Written m after text := by
  obtain ⟨after, copied, written⟩ := copyOut_of_fits ptr room inside
  have limit := out.len.toInt_lt
  refine ⟨after, .ofNat text.utf8ByteSize, ?_, Int32.toInt_ofNat_of_lt (by omega), written⟩
  unfold State.answerText
  dsimp only
  rw [copied]

theorem Range.Takes.answerText {out : Range} {m : Memory} {text : String} (h : out.Takes m text)
    (s : State) :
    ∃ after n, s.answerText (some m) (some text) out = ⟨s, some after, [.i32 n]⟩ ∧
      n.toInt = text.utf8ByteSize ∧ out.Written m after text := by
  obtain ⟨ptr, inside, room⟩ := h
  exact s.answerText_of_fits ptr room (by omega)

end TieredUdf.Host
