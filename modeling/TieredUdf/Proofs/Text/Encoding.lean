import Mathlib.Data.List.Basic

/-! # Texts as bytes

The bytes of a text are read back as that text, and no other bytes are.  The first bytes of a text
are those of a text as well exactly if no character goes across the end of them.
-/

namespace TieredUdf.Text

theorem toList_loop (bytes : ByteArray) (i : Nat) (read : List UInt8) :
    ByteArray.toList.loop bytes i read = read.reverse ++ bytes.data.toList.drop i := by
  rw [ByteArray.toList.loop]
  by_cases inside : i < bytes.size
  · have bound : i < bytes.data.toList.length := inside
    have here : bytes.get! i = bytes.data.toList[i] := getElem!_pos bytes.data i inside
    rw [if_pos inside, toList_loop bytes (i + 1), here, List.reverse_cons, List.append_assoc,
      List.singleton_append, ← List.drop_eq_getElem_cons bound]
  · have done : bytes.data.toList.length ≤ i := Nat.le_of_not_lt inside
    rw [if_neg inside, List.drop_eq_nil_of_le done, List.append_nil]
termination_by bytes.size - i

theorem toList_eq (bytes : ByteArray) : bytes.toList = bytes.data.toList := by
  unfold ByteArray.toList
  rw [toList_loop, List.reverse_nil, List.nil_append, List.drop_zero]

theorem toArray_toList (bytes : ByteArray) : (⟨bytes.toList.toArray⟩ : ByteArray) = bytes := by
  rw [toList_eq]

theorem length_toUTF8 (s : String) : s.toUTF8.toList.length = s.utf8ByteSize := by
  rw [toList_eq]
  rfl

theorem fromUTF8?_toUTF8 (s : String) : String.fromUTF8? ⟨s.toUTF8.toList.toArray⟩ = some s := by
  rw [toArray_toList]
  exact dif_pos s.isValidUTF8

theorem fromUTF8?_eq_some {bytes : List UInt8} {s : String} :
    String.fromUTF8? ⟨bytes.toArray⟩ = some s ↔ s.toUTF8.toList = bytes := by
  constructor
  · intro read
    unfold String.fromUTF8? at read
    split at read
    · cases read
      exact toList_eq _
    · cases read
  · rintro rfl
    exact fromUTF8?_toUTF8 s

/-! ## Cutting -/

/-- A text can be cut after so many bytes: no character of it goes across. -/
def CutAt (text : String) (n : Nat) : Prop :=
  ∃ front back, text = front ++ back ∧ front.utf8ByteSize = n

theorem cutAt_iff {text : String} {n : Nat} :
    CutAt text n ↔ String.Pos.Raw.IsValid text ⟨n⟩ := by
  rw [String.Pos.Raw.isValid_iff_exists_append]
  simp only [CutAt, String.Pos.Raw.ext_iff, String.byteIdx_rawEndPos, eq_comm]

instance (text : String) (n : Nat) : Decidable (CutAt text n) := decidable_of_iff' _ cutAt_iff

theorem toUTF8_append (front back : String) :
    (front ++ back).toUTF8.toList = front.toUTF8.toList ++ back.toUTF8.toList := by
  simp [toList_eq, String.toUTF8_eq_toByteArray]

/-- Only a text that begins another one has the first bytes of that other one. -/
theorem exists_append_of_bytes {front text : String} {rest : List UInt8}
    (bytes : text.toUTF8.toList = front.toUTF8.toList ++ rest) : ∃ back, text = front ++ back := by
  have encoded : front.toList.utf8Encode ++ ⟨rest.toArray⟩ = text.toList.utf8Encode := by
    rw [String.utf8Encode_toList, String.utf8Encode_toList]
    rw [toList_eq, toList_eq] at bytes
    refine ByteArray.ext (Array.toList_inj.mp ?_)
    simpa using bytes.symm
  obtain ⟨back, letters⟩ := List.isPrefix_of_utf8Encode_append_eq_utf8Encode _ encoded
  refine ⟨String.ofList back, String.toList_inj.mp ?_⟩
  rw [String.toList_append, String.toList_ofList, letters]

/-- The first bytes of a text are those of another text exactly if it begins with it. -/
theorem toUTF8_eq_take {front text : String} {n : Nat} (within : n ≤ text.utf8ByteSize) :
    front.toUTF8.toList = text.toUTF8.toList.take n ↔
      (∃ back, text = front ++ back) ∧ front.utf8ByteSize = n := by
  constructor
  · intro bytes
    have length := congrArg List.length bytes
    rw [List.length_take, length_toUTF8, length_toUTF8, Nat.min_eq_left within] at length
    have split : text.toUTF8.toList = front.toUTF8.toList ++ text.toUTF8.toList.drop n := by
      rw [bytes, List.take_append_drop]
    exact ⟨exists_append_of_bytes split, length⟩
  · rintro ⟨⟨back, rfl⟩, rfl⟩
    rw [toUTF8_append, ← length_toUTF8, List.take_left]

end TieredUdf.Text
