import Mathlib.Data.List.GetD
import TieredUdf.Guest.Memory

/-! # Laws of guest memory

What is written to a range of a memory is read there afterwards, and every byte outside of the
range is what it was.
-/

namespace TieredUdf.Guest.Memory

/-! ## Bytes -/

theorem byte_eq (m : Memory) (i : Nat) : m.byte i = m.stored.data.toList.getD i 0 := by
  unfold byte
  split
  · rename_i inside
    have bound : i < m.stored.data.toList.length := inside
    rw [List.getD_eq_getElem _ _ bound]
    rfl
  · rename_i outside
    have bound : m.stored.data.toList.length ≤ i := Nat.le_of_not_lt outside
    rw [List.getD_eq_default _ _ bound]

theorem toList_pad (missing : Nat) (stored : ByteArray) :
    (pad missing stored).data.toList = stored.data.toList ++ List.replicate missing 0 := by
  induction missing generalizing stored with
  | zero => simp [pad]
  | succ missing ih => simp [pad, ih, List.replicate_succ]

/-- Zeros after some bytes are not seen. -/
theorem getD_append_zeros (bytes : List UInt8) (n a : Nat) :
    (bytes ++ List.replicate n 0).getD a 0 = bytes.getD a 0 := by
  by_cases inside : a < bytes.length
  · rw [List.getD_append _ _ _ _ inside]
  · rw [List.getD_append_right _ _ _ _ (by omega), List.getD_eq_default bytes _ (by omega)]
    by_cases zero : a - bytes.length < n
    · rw [List.getD_replicate _ zero]
    · rw [List.getD_eq_default _ _ (by rw [List.length_replicate]; omega)]

theorem byte_setByte (m : Memory) (i : Nat) (b : UInt8) (a : Nat) :
    (m.setByte i b).byte a = if a = i then b else m.byte a := by
  rw [byte_eq, byte_eq]
  unfold setByte
  split
  · rename_i beyond
    have full : (pad (i - m.stored.size) m.stored).data.toList.length = i := by
      rw [toList_pad, List.length_append, List.length_replicate]
      exact Nat.add_sub_of_le beyond
    have pushed : ((pad (i - m.stored.size) m.stored).push b).data.toList =
        (pad (i - m.stored.size) m.stored).data.toList ++ [b] := Array.toList_push
    dsimp only
    rw [pushed]
    rcases Nat.lt_trichotomy a i with below | rfl | above
    · rw [if_neg (by omega), List.getD_append _ _ _ _ (by omega), toList_pad, getD_append_zeros]
    · rw [if_pos rfl, List.getD_append_right _ _ _ _ (by omega), full, Nat.sub_self]
      rfl
    · have outside : m.stored.data.toList.length ≤ a :=
        Nat.le_of_lt (Nat.lt_of_le_of_lt beyond above)
      rw [if_neg (by omega), List.getD_eq_default _ _ outside, List.getD_eq_default]
      rw [List.length_append, full]
      exact above
  · rename_i inside
    have replaced : (m.stored.set! i b).data.toList = m.stored.data.toList.set i b :=
      Array.toList_setIfInBounds
    dsimp only
    rw [replaced, List.getD_eq_getElem?_getD, List.getElem?_set, List.getD_eq_getElem?_getD]
    have bound : i < m.stored.data.toList.length := Nat.lt_of_not_le inside
    by_cases own : i = a
    · rw [if_pos own, if_pos bound, if_pos own.symm]
      rfl
    · rw [if_neg own, if_neg (Ne.symm own)]

theorem size_setByte (m : Memory) (i : Nat) (b : UInt8) : (m.setByte i b).size = m.size := by
  unfold setByte
  split <;> rfl

/-! ## Ranges -/

theorem size_setBytes (m : Memory) (start : Nat) (data : List UInt8) :
    (m.setBytes start data).size = m.size := by
  induction data generalizing m start with
  | nil => rfl
  | cons b data ih => rw [setBytes, ih, size_setByte]

/-- Bytes outside of the range that is written stay as they are. -/
theorem byte_setBytes_outside (m : Memory) {start a : Nat} {data : List UInt8}
    (outside : a < start ∨ start + data.length ≤ a) :
    (m.setBytes start data).byte a = m.byte a := by
  induction data generalizing m start with
  | nil => rfl
  | cons b data ih =>
      rw [List.length_cons] at outside
      rw [setBytes, ih _ (by omega), byte_setByte, if_neg (by omega)]

theorem byte_setBytes_inside (m : Memory) (start : Nat) {data : List UInt8} {i : Nat}
    (inside : i < data.length) : (m.setBytes start data).byte (start + i) = data[i] := by
  induction data generalizing m start i with
  | nil => cases inside
  | cons b data ih =>
      rw [setBytes]
      cases i with
      | zero =>
          change ((m.setByte start b).setBytes (start + 1) data).byte start = b
          rw [byte_setBytes_outside _ (Or.inl (Nat.lt_succ_self start)), byte_setByte, if_pos rfl]
      | succ i =>
          have shifted := ih (m.setByte start b) (start + 1) (Nat.lt_of_succ_lt_succ inside)
          rw [Nat.add_right_comm] at shifted
          exact shifted

theorem length_bytes (m : Memory) (start length : Nat) :
    (m.bytes start length).length = length := by
  rw [bytes, List.length_map, List.length_range]

theorem bytes_setBytes (m : Memory) (start : Nat) (data : List UInt8) :
    (m.setBytes start data).bytes start data.length = data := by
  refine List.ext_getElem (length_bytes _ _ _) fun i _ written => ?_
  simp only [bytes, List.getElem_map, List.getElem_range, byte_setBytes_inside _ _ written]

end TieredUdf.Guest.Memory
