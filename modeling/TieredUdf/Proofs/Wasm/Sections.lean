import Mathlib.Data.Option.Basic
import TieredUdf.Wasm.ModuleReader

/-! # Modules and their sections

A module is read section by section.  Here its parts are tied to the bytes without the order in
which the reader goes through them: each part is the content of the one section that has its
number, and is empty when there is no such section.
-/

namespace TieredUdf.Wasm

/-! ## Readers in sequence -/

namespace Reader

variable {α β : Type}

theorem bind_eq_some {x : Reader α} {f : α → Reader β} {bytes rest : List UInt8} {b : β} :
    (x >>= f) bytes = some (b, rest) ↔
      ∃ a middle, x bytes = some (a, middle) ∧ f a middle = some (b, rest) := by
  simp [bind, StateT.bind, Option.bind_eq_some_iff, Prod.exists]

theorem take_eq_some {count : Nat} {bytes taken rest : List UInt8}
    (h : take count bytes = some (taken, rest)) : taken.length = count ∧ bytes = taken ++ rest := by
  unfold take at h
  split at h
  · rename_i enough
    cases h
    exact ⟨List.length_take_of_le enough, (List.take_append_drop count bytes).symm⟩
  · cases h

theorem whole_eq_some {r : Reader α} {bytes : List UInt8} {value : α}
    (h : whole r bytes = some value) : r bytes = some (value, []) := by
  unfold whole at h
  split at h
  · cases h
    assumption
  · cases h

end Reader

/-! ## The layout of sections -/

/-- Some bytes are sections one after the other, each written as its number, the length of its
content and the content. -/
inductive Layout : List UInt8 → List Section → Prop where
  | nil : Layout [] []
  | cons {s : Section} {length rest : List UInt8} {sections : List Section}
      (size : Reader.u32 length = some (s.content.length, s.content ++ rest))
      (more : Layout rest sections) : Layout (s.id :: length) (s :: sections)

theorem Section.reader_eq_some {s : Section} {bytes rest : List UInt8}
    (h : Section.reader bytes = some (s, rest)) :
    ∃ length, bytes = s.id :: length ∧
      Reader.u32 length = some (s.content.length, s.content ++ rest) := by
  simp only [Section.reader, Reader.bind_eq_some] at h
  obtain ⟨id, length, hid, size, middle, hsize, content, after, hcontent, hs⟩ := h
  cases bytes with
  | nil => simp [Reader.byte] at hid
  | cons b bytes =>
      cases hid
      cases hs
      obtain ⟨hl, rfl⟩ := Reader.take_eq_some hcontent
      exact ⟨length, rfl, by rw [hl]; exact hsize⟩

theorem Section.layout_of_many {fuel : Nat} {bytes : List UInt8} {collected found : List Section}
    (h : Reader.many Section.reader fuel collected bytes = some (found, [])) :
    ∃ sections, found = collected.reverse ++ sections ∧ Layout bytes sections := by
  induction fuel generalizing bytes collected with
  | zero => simp [Reader.many, Reader.refuse] at h
  | succ fuel ih =>
      simp only [Reader.many, Reader.bind_eq_some] at h
      obtain ⟨ended, middle, hend, h⟩ := h
      cases hend
      cases bytes with
      | nil =>
          cases h
          exact ⟨[], by simp, .nil⟩
      | cons b bytes =>
          simp only [List.isEmpty_cons, Bool.false_eq_true, if_false, Reader.bind_eq_some] at h
          obtain ⟨s, rest, hs, h⟩ := h
          obtain ⟨length, hb, hsize⟩ := Section.reader_eq_some hs
          obtain ⟨sections, hfound, hlayout⟩ := ih h
          rw [hb]
          exact ⟨s :: sections, by simp [hfound], .cons hsize hlayout⟩

/-! ## Parts of a module -/

/-- The values of one kind that fill a section. -/
def Section.values? {α : Type} (item : Reader α) (s : Section) : Option (List α) :=
  Reader.whole (Reader.vector item) s.content

/-- A part of a module is the content of the sections with its number: there is at most one, and
without one the part is empty. -/
structure IsPart {α : Type} (sections : List Section) (id : UInt8) (item : Reader α)
    (part : List α) : Prop where
  present : ∀ s ∈ sections, s.id = id → s.values? item = some part
  absent : (∀ s ∈ sections, s.id ≠ id) → part = []

theorem IsPart.cons {α : Type} {sections : List Section} {id : UInt8} {item : Reader α}
    {part : List α} {s : Section} (h : IsPart sections id item part) (other : s.id ≠ id) :
    IsPart (s :: sections) id item part where
  present := List.forall_mem_cons.mpr ⟨fun e => absurd e other, h.present⟩
  absent := fun none => h.absent fun r hr => none r (List.mem_cons_of_mem s hr)

/-- The parts through which a module meets its surroundings are those of its sections. -/
structure Module.ReadFrom (m : Module) (sections : List Section) : Prop where
  types : IsPart sections 1 Reader.funcType m.types
  imports : IsPart sections 2 Reader.importEntry m.imports
  functions : IsPart sections 3 Reader.u32 m.functions
  memories : IsPart sections 5 Reader.memoryType m.memories
  exports : IsPart sections 7 Reader.exportEntry m.exports

namespace Section

variable {α : Type} {id : UInt8} {item : Reader α} {part : Module → List α}

/-- How the reader of a section treats one part of the module. -/
structure Fills (id : UInt8) (item : Reader α) (part : Module → List α) : Prop where
  sets : ∀ (s : Section) (m after : Module), s.id = id → s.addTo? m = some after →
    s.values? item = some (part after)
  keeps : ∀ (s : Section) (m after : Module), s.id ≠ id → s.addTo? m = some after →
    part after = part m

/-- A section either carries a name and changes nothing, or its rank is above that of the ones
before it and its content is put into the module. -/
theorem addAll?_cons {s : Section} {sections : List Section} {rank : Nat} {m after : Module}
    (h : addAll? (s :: sections) rank m = some after) :
    (s.id = 0 ∧ addAll? sections rank m = some after) ∨
    (s.id ≠ 0 ∧ ∃ next middle, rank? s.id = some next ∧ rank < next ∧
      s.addTo? m = some middle ∧ addAll? sections next middle = some after) := by
  unfold addAll? at h
  by_cases hz : s.id = 0
  · rw [if_pos hz] at h
    split at h
    · exact Or.inl ⟨hz, h⟩
    · cases h
  · rw [if_neg hz] at h
    simp only [Option.bind_eq_bind, Option.bind_eq_some_iff, Option.guard_eq_some'] at h
    obtain ⟨next, hnext, _, hrank, middle, hs, h⟩ := h
    exact Or.inr ⟨hz, next, middle, hnext, hrank, hs, h⟩

/-- After a section of a certain rank no section with a number of that rank or below follows. -/
theorem part_kept {low : Nat} (h : Fills id item part) (positive : id ≠ 0)
    (hid : rank? id = some low) {sections : List Section} {rank : Nat} {m after : Module}
    (hlow : low ≤ rank) (added : addAll? sections rank m = some after) :
    part after = part m ∧ ∀ s ∈ sections, s.id ≠ id := by
  induction sections generalizing rank m with
  | nil =>
      cases added
      exact ⟨rfl, by simp⟩
  | cons s sections ih =>
      rcases addAll?_cons added with ⟨hz, added⟩ | ⟨_, next, middle, hnext, hrank, hs, added⟩
      · obtain ⟨kept, others⟩ := ih hlow added
        exact ⟨kept, List.forall_mem_cons.mpr ⟨hz ▸ positive.symm, others⟩⟩
      · have other : s.id ≠ id := fun e => by
          rw [e, hid] at hnext
          cases hnext
          omega
        obtain ⟨kept, others⟩ := ih (by omega) added
        exact ⟨kept.trans (h.keeps s m middle other hs), List.forall_mem_cons.mpr ⟨other, others⟩⟩

/-- A part that starts out empty is the content of the section with its number. -/
theorem isPart_of_addAll? {low : Nat} (h : Fills id item part) (positive : id ≠ 0)
    (hid : rank? id = some low) {sections : List Section} {rank : Nat} {m after : Module}
    (empty : part m = []) (added : addAll? sections rank m = some after) :
    IsPart sections id item (part after) := by
  induction sections generalizing rank m with
  | nil =>
      cases added
      exact ⟨by simp, fun _ => empty⟩
  | cons s sections ih =>
      rcases addAll?_cons added with ⟨hz, added⟩ | ⟨_, next, middle, hnext, hrank, hs, added⟩
      · have other : s.id ≠ id := hz ▸ positive.symm
        exact (ih empty added).cons other
      · by_cases same : s.id = id
        · obtain ⟨kept, others⟩ := part_kept h positive hid
            (by rw [same, hid] at hnext; cases hnext; exact Nat.le_refl _) added
          refine ⟨fun r hr hrid => ?_, fun none => absurd same (none s List.mem_cons_self)⟩
          rcases List.mem_cons.mp hr with rfl | hr
          · rw [kept]; exact h.sets r m middle same hs
          · exact absurd hrid (others r hr)
        · exact (ih ((h.keeps s m middle same hs).trans empty) added).cons same

/-- What one section does to the parts of a module, by its number. -/
theorem addTo?_parts {s : Section} {m after : Module} (h : s.addTo? m = some after) :
    (if s.id = 1 then s.values? Reader.funcType = some after.types
      else after.types = m.types) ∧
    (if s.id = 2 then s.values? Reader.importEntry = some after.imports
      else after.imports = m.imports) ∧
    (if s.id = 3 then s.values? Reader.u32 = some after.functions
      else after.functions = m.functions) ∧
    (if s.id = 5 then s.values? Reader.memoryType = some after.memories
      else after.memories = m.memories) ∧
    (if s.id = 7 then s.values? Reader.exportEntry = some after.exports
      else after.exports = m.exports) := by
  obtain ⟨id, content⟩ := s
  simp only [addTo?] at h
  split at h
  all_goals first
    | (obtain ⟨x, hx, rfl⟩ := Option.map_eq_some_iff.mp h; simp [values?, hx])
    | cases h

theorem fills_types : Fills 1 Reader.funcType Module.types where
  sets := fun _ _ _ hid h => by simpa [hid] using (addTo?_parts h).1
  keeps := fun _ _ _ hid h => by simpa [hid] using (addTo?_parts h).1

theorem fills_imports : Fills 2 Reader.importEntry Module.imports where
  sets := fun _ _ _ hid h => by simpa [hid] using (addTo?_parts h).2.1
  keeps := fun _ _ _ hid h => by simpa [hid] using (addTo?_parts h).2.1

theorem fills_functions : Fills 3 Reader.u32 Module.functions where
  sets := fun _ _ _ hid h => by simpa [hid] using (addTo?_parts h).2.2.1
  keeps := fun _ _ _ hid h => by simpa [hid] using (addTo?_parts h).2.2.1

theorem fills_memories : Fills 5 Reader.memoryType Module.memories where
  sets := fun _ _ _ hid h => by simpa [hid] using (addTo?_parts h).2.2.2.1
  keeps := fun _ _ _ hid h => by simpa [hid] using (addTo?_parts h).2.2.2.1

theorem fills_exports : Fills 7 Reader.exportEntry Module.exports where
  sets := fun _ _ _ hid h => by simpa [hid] using (addTo?_parts h).2.2.2.2
  keeps := fun _ _ _ hid h => by simpa [hid] using (addTo?_parts h).2.2.2.2

end Section

/-! ## Reading a module -/

/-- A core module that is read is the heading and then sections, and its parts are theirs. -/
theorem Module.readFrom_of_decode? {bytes : List UInt8} {m : Module}
    (core : bytes.take 8 = heading) (h : decode? bytes = some m) :
    ∃ sections, Layout (bytes.drop 8) sections ∧ m.ReadFrom sections := by
  simp only [decode?, core, if_true, Option.bind_eq_bind, Option.bind_eq_some_iff] at h
  obtain ⟨sections, hread, hadd⟩ := h
  obtain ⟨found, same, layout⟩ := Section.layout_of_many (Reader.whole_eq_some hread)
  rw [List.reverse_nil, List.nil_append] at same
  rw [← same] at layout
  exact ⟨sections, layout,
    { types := Section.isPart_of_addAll? Section.fills_types (by decide) rfl rfl hadd
      imports := Section.isPart_of_addAll? Section.fills_imports (by decide) rfl rfl hadd
      functions := Section.isPart_of_addAll? Section.fills_functions (by decide) rfl rfl hadd
      memories := Section.isPart_of_addAll? Section.fills_memories (by decide) rfl rfl hadd
      exports := Section.isPart_of_addAll? Section.fills_exports (by decide) rfl rfl hadd }⟩

end TieredUdf.Wasm
