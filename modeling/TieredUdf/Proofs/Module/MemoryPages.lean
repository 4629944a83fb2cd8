import Mathlib.Algebra.GroupWithZero.Nat
import Mathlib.Algebra.Order.BigOperators.Group.List
import Mathlib.Algebra.Order.Group.Nat
import TieredUdf.Proofs.Module.Sandbox

/-! # The pages of all memories

The page limit is kept by each memory of a module on its own, and the shape of a module tells the
initial pages of its last memory.  Both are about the module as a whole exactly if every memory
but the last one starts without a page.
-/

namespace TieredUdf

namespace Wasm.Module

/-- The pages that all memories of a module start with together. -/
def totalPages (m : Module) : Nat := (m.memories.map fun t => t.limits.initial).sum

theorem memories_length_le {m : Module} (valid : m.isValid = true) : m.memories.length ≤ 100 := by
  unfold isValid at valid
  split at valid
  · cases valid
  · simp only [Bool.and_eq_true, decide_eq_true_eq] at valid
    have few : m.memoryTypes.length ≤ maxStores := valid.1.1.1.1.1.1.1.1.1.1.2.1
    simp [memoryTypes, maxStores] at few
    omega

/-- The last memory and the other ones. -/
theorem totalPages_eq (m : Module) :
    m.totalPages = (m.memories.dropLast.map fun t => t.limits.initial).sum +
      (m.memories.getLast?.map fun t => t.limits.initial).getD 0 := by
  unfold totalPages
  rcases m.memories.eq_nil_or_concat with empty | ⟨front, last, all⟩
  · simp [empty]
  · simp [all]

theorem totalPages_eq_last_iff {m : Module} :
    m.totalPages = (m.memories.getLast?.map fun t => t.limits.initial).getD 0 ↔
      ∀ t ∈ m.memories.dropLast, t.limits.initial = 0 := by
  rw [totalPages_eq, Nat.add_eq_right, List.sum_eq_zero_iff, List.forall_mem_map]

theorem totalPages_le {m : Module} {limit : Nat}
    (each : ∀ t ∈ m.memories, t.limits.initial ≤ limit) :
    m.totalPages ≤ m.memories.length * limit := by
  have bound := List.sum_le_card_nsmul (m.memories.map fun t => t.limits.initial) limit
    (List.forall_mem_map.mpr each)
  simpa [totalPages] using bound

theorem last_le {m : Module} {limit : Nat} (each : ∀ t ∈ m.memories, t.limits.initial ≤ limit) :
    (m.memories.getLast?.map fun t => t.limits.initial).getD 0 ≤ limit := by
  cases last : m.memories.getLast? with
  | none => simp
  | some t => exact each t (List.mem_of_getLast? last)

end Wasm.Module

namespace ModuleShape

theorem ofModule_of_ofBytecode {bytes : List UInt8} {limit : Nat} {s : ModuleShape}
    (h : ofBytecode bytes limit = .ok s) :
    ∃ m, Wasm.Module.ofBytes? bytes = some m ∧ ofModule m limit = .ok s := by
  unfold ofBytecode at h
  split at h
  · cases h
  · split at h
    · rename_i m read
      exact ⟨m, read, h⟩
    · cases h

/-- An admitted core module starts each of its memories within the limit, and all of them, a
hundred at most, within a hundred times the limit; its shape tells the pages of the last one.  All
memories together stay within the limit and are what is told if and only if every memory but the
last one starts without a page. -/
theorem ofBytecode_pages {bytes : List UInt8} (core : bytes.take 8 = Wasm.Module.heading)
    {limit : Nat} {s : ModuleShape} (admitted : ofBytecode bytes limit = .ok s) :
    ∃ m sections, Wasm.Module.ofBytes? bytes = some m ∧ Wasm.Layout (bytes.drop 8) sections ∧
      m.ReadFrom sections ∧ (∀ t ∈ m.memories, t.limits.initial ≤ limit) ∧
      m.totalPages ≤ 100 * limit ∧
      s.initialPages = (m.memories.getLast?.map fun t => t.limits.initial).getD 0 ∧
      (m.totalPages ≤ limit ∧ s.initialPages = m.totalPages ↔
        ∀ t ∈ m.memories.dropLast, t.limits.initial = 0) := by
  obtain ⟨m, read, checked⟩ := ofModule_of_ofBytecode admitted
  obtain ⟨decoded, valid⟩ := ofBytes?_eq_some.mp read
  obtain ⟨⟨_, each⟩, _, _, rfl⟩ := (ofModule_eq_ok valid).mp checked
  obtain ⟨sections, layout, parts⟩ := Wasm.Module.readFrom_of_decode? core decoded
  have total : m.totalPages ≤ 100 * limit :=
    (Wasm.Module.totalPages_le each).trans
      (Nat.mul_le_mul_right limit (Wasm.Module.memories_length_le valid))
  refine ⟨m, sections, read, layout, parts, each, total, rfl, ?_⟩
  rw [← Wasm.Module.totalPages_eq_last_iff]
  constructor
  · rintro ⟨-, same⟩
    exact same.symm
  · intro same
    exact ⟨same ▸ Wasm.Module.last_le each, same.symm⟩

def twoMemories (first last : UInt8) : List UInt8 :=
  Wasm.Module.heading ++ [0x05, 0x05, 0x02, 0x00, first, 0x00, last]

theorem ofBytecode_pages_lastOnly :
    (twoMemories 0 2).take 8 = Wasm.Module.heading ∧
    ofBytecode (twoMemories 0 2) 2 = .ok ⟨[], [], false, 2⟩ ∧
    ∃ m, Wasm.Module.ofBytes? (twoMemories 0 2) = some m ∧ m.totalPages = 2 := by
  have core : (twoMemories 0 2).take 8 = Wasm.Module.heading := by decide
  have admitted : ofBytecode (twoMemories 0 2) 2 = .ok ⟨[], [], false, 2⟩ := by decide +kernel
  have memories : (Wasm.Module.ofBytes? (twoMemories 0 2)).map (fun m => m.memories) =
      some [⟨⟨0, none⟩, false⟩, ⟨⟨2, none⟩, false⟩] := by decide +kernel
  obtain ⟨m, _, read, _, _, _, _, _, whole⟩ := ofBytecode_pages core admitted
  rw [read, Option.map_some, Option.some.injEq] at memories
  have bounded := whole.mpr (by simp [memories])
  exact ⟨core, admitted, m, read, bounded.2.symm⟩

/-- Two memories within the limit start with more pages than the limit, and the pages of the first
one are not told. -/
theorem not_always_bounded :
    ofBytecode (twoMemories 2 1) 2 = .ok ⟨[], [], false, 1⟩ ∧
    (Wasm.Module.ofBytes? (twoMemories 2 1)).map Wasm.Module.totalPages = some 3 ∧
    ¬ ∀ (bytes : List UInt8) (limit : Nat) (s : ModuleShape) (m : Wasm.Module),
      bytes.take 8 = Wasm.Module.heading → ofBytecode bytes limit = .ok s →
      Wasm.Module.ofBytes? bytes = some m → m.totalPages ≤ limit ∧ s.initialPages = m.totalPages := by
  have admitted : ofBytecode (twoMemories 2 1) 2 = .ok ⟨[], [], false, 1⟩ := by decide +kernel
  have total : (Wasm.Module.ofBytes? (twoMemories 2 1)).map Wasm.Module.totalPages = some 3 := by
    decide +kernel
  refine ⟨admitted, total, fun always => ?_⟩
  obtain ⟨m, read, three⟩ := Option.map_eq_some_iff.mp total
  have bounded := (always _ _ _ m (by decide) admitted read).1
  omega

end ModuleShape

end TieredUdf
