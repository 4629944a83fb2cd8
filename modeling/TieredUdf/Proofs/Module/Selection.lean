import Mathlib.Data.String.Basic
import TieredUdf.Module.Query

/-! # Keys in order and what a query selects

Keys are in the order of their names and, where these are the same, of their versions.  A query
selects by the fields that it sets and the tags that it names, so that one with more filters
selects less.
-/

namespace TieredUdf

/-! ## Keys -/

namespace ModuleKey

variable {a b c : ModuleKey}

theorem before_iff :
    a.before b = true ↔ a.name < b.name ∨ (a.name = b.name ∧ a.version < b.version) := by
  simp [before]

theorem ne_of_before (h : a.before b) : a ≠ b := by
  rintro rfl
  rcases before_iff.mp h with name | ⟨_, version⟩
  · exact lt_irrefl _ name
  · exact lt_irrefl _ version

theorem before_trans (h : a.before b) (k : b.before c) : a.before c := by
  rw [before_iff] at h k ⊢
  rcases h with name | ⟨same, version⟩ <;> rcases k with name' | ⟨same', version'⟩
  · exact Or.inl (name.trans name')
  · exact Or.inl (same' ▸ name)
  · exact Or.inl (same ▸ name')
  · exact Or.inr ⟨same.trans same', version.trans version'⟩

theorem before_of_not_before (h : ¬ a.before b) (distinct : a ≠ b) : b.before a := by
  rw [before_iff] at h ⊢
  rcases lt_trichotomy a.name b.name with before | same | after
  · exact absurd (Or.inl before) h
  · rcases lt_trichotomy a.version b.version with before | equal | after
    · exact absurd (Or.inr ⟨same, before⟩) h
    · exact absurd (by cases a; cases b; simp_all) distinct
    · exact Or.inr ⟨same.symm, after⟩
  · exact Or.inl after

end ModuleKey

/-! ## Queries -/

namespace Query

variable {p q : Query} {d : Descriptor}

/-- A descriptor satisfies every field that is set and carries every tag. -/
structure Fits (q : Query) (d : Descriptor) : Prop where
  name : ∀ name, q.name = some name → d.key.name = name
  version : ∀ version, q.version = some version → d.key.version = version
  category : ∀ category, q.category = some category → d.metadata.category = some category
  author : ∀ author, q.author = some author → d.metadata.author = some author
  tags : ∀ tag ∈ q.tags, tag ∈ d.metadata.tags

theorem agrees_iff {wanted found : Option String} :
    agrees wanted found = true ↔ ∀ text, wanted = some text → found = some text := by
  cases wanted with
  | none => simp [agrees]
  | some text =>
      have same : agrees (some text) found = true ↔ some text = found := by simp [agrees]
      rw [same, eq_comm]
      simp

theorem selects_iff : q.selects d = true ↔ q.Fits d := by
  simp only [selects, Bool.and_eq_true, agrees_iff, List.all_eq_true, List.contains_iff_mem,
    Option.some.injEq]
  constructor
  · rintro ⟨⟨⟨⟨name, version⟩, category⟩, author⟩, tags⟩
    exact ⟨name, version, category, author, tags⟩
  · rintro ⟨name, version, category, author, tags⟩
    exact ⟨⟨⟨⟨name, version⟩, category⟩, author⟩, tags⟩

/-- A query has every filter of another one, and perhaps more. -/
structure Narrows (p q : Query) : Prop where
  name : ∀ name, q.name = some name → p.name = some name
  version : ∀ version, q.version = some version → p.version = some version
  category : ∀ category, q.category = some category → p.category = some category
  author : ∀ author, q.author = some author → p.author = some author
  tags : q.tags ⊆ p.tags

theorem Narrows.fits (h : p.Narrows q) (fits : p.Fits d) : q.Fits d where
  name := fun name set => fits.name name (h.name name set)
  version := fun version set => fits.version version (h.version version set)
  category := fun category set => fits.category category (h.category category set)
  author := fun author set => fits.author author (h.author author set)
  tags := fun tag wanted => fits.tags tag (h.tags wanted)

end Query

end TieredUdf
