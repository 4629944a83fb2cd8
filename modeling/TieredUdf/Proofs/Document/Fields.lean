import TieredUdf.Document.Basic
import TieredUdf.Proofs.Document.PathText

/-! # Fields of documents

The field at the text of some steps is the node that they lead to, unless a member of the root has
that text for its name.
-/

namespace TieredUdf.Document

/-! ## Walks -/

/-- Some steps lead from one node to another. -/
inductive Reaches : Json → List Step → Json → Prop where
  | here (node : Json) : Reaches node [] node
  | member {members : List (String × Json)} {name : String} {child node : Json}
      {rest : List Step} (found : Json.member? name members = some child)
      (more : Reaches child rest node) : Reaches (.object members) (.key name :: rest) node
  | item {items : List Json} {i : Nat} {child node : Json} {rest : List Step}
      (found : items[i]? = some child) (more : Reaches child rest node) :
      Reaches (.array items) (.index i :: rest) node

/-- Some steps lead out of the document, each for one of these reasons. -/
inductive Leaves : Json → List Step → Prop where
  | noObject {node : Json} {name : String} {rest : List Step}
      (other : ∀ members, node ≠ .object members) : Leaves node (.key name :: rest)
  | noMember {members : List (String × Json)} {name : String} {rest : List Step}
      (missing : ∀ m ∈ members, m.1 ≠ name) : Leaves (.object members) (.key name :: rest)
  | noArray {node : Json} {i : Nat} {rest : List Step} (other : ∀ items, node ≠ .array items) :
      Leaves node (.index i :: rest)
  | pastEnd {items : List Json} {i : Nat} {rest : List Step} (beyond : items.length ≤ i) :
      Leaves (.array items) (.index i :: rest)
  | afterMember {members : List (String × Json)} {name : String} {child : Json}
      {rest : List Step} (found : Json.member? name members = some child)
      (later : Leaves child rest) : Leaves (.object members) (.key name :: rest)
  | afterItem {items : List Json} {i : Nat} {child : Json} {rest : List Step}
      (found : items[i]? = some child) (later : Leaves child rest) :
      Leaves (.array items) (.index i :: rest)

theorem member?_eq_none {name : String} {members : List (String × Json)} :
    Json.member? name members = none ↔ ∀ m ∈ members, m.1 ≠ name := by
  induction members with
  | nil => simp [Json.member?]
  | cons m members ih =>
      rw [List.forall_mem_cons, ← ih, Json.member?]
      by_cases own : m.1 = name <;> simp [own]

theorem Reaches.walk?_eq {root node : Json} {steps : List Step} (h : Reaches root steps node) :
    walk? root steps = some node := by
  induction h with
  | here node => rfl
  | member found _ ih => rw [walk?, Json.get?, found, Option.bind_some, ih]
  | item found _ ih => rw [walk?, Json.item?, found, Option.bind_some, ih]

theorem Leaves.walk?_eq {root : Json} {steps : List Step} (h : Leaves root steps) :
    walk? root steps = none := by
  induction h with
  | @noObject node _ _ other =>
      rw [walk?]
      cases node with
      | object members => exact absurd rfl (other members)
      | null | bool | integer | number | string | array => rfl
  | noMember missing => rw [walk?, Json.get?, member?_eq_none.mpr missing, Option.bind_none]
  | @noArray node _ _ other =>
      rw [walk?]
      cases node with
      | array items => exact absurd rfl (other items)
      | null | bool | integer | number | string | object => rfl
  | pastEnd beyond =>
      rw [walk?, Json.item?, List.getElem?_eq_none beyond, Option.bind_none]
  | afterMember found _ ih => rw [walk?, Json.get?, found, Option.bind_some, ih]
  | afterItem found _ ih => rw [walk?, Json.item?, found, Option.bind_some, ih]

/-- Steps lead to a node or out of the document. -/
theorem reaches_or_leaves (root : Json) (steps : List Step) :
    (∃ node, Reaches root steps node) ∨ Leaves root steps := by
  induction steps generalizing root with
  | nil => exact .inl ⟨root, .here root⟩
  | cons step rest ih =>
      cases step with
      | key name =>
          cases root with
          | object members =>
              cases found : Json.member? name members with
              | none => exact .inr (.noMember (member?_eq_none.mp found))
              | some child =>
                  rcases ih child with ⟨node, more⟩ | later
                  · exact .inl ⟨node, .member found more⟩
                  · exact .inr (.afterMember found later)
          | null | bool | integer | number | string | array => exact .inr (.noObject nofun)
      | index i =>
          cases root with
          | array items =>
              cases found : items[i]? with
              | none => exact .inr (.pastEnd (List.getElem?_eq_none_iff.mp found))
              | some child =>
                  rcases ih child with ⟨node, more⟩ | later
                  · exact .inl ⟨node, .item found more⟩
                  · exact .inr (.afterItem found later)
          | null | bool | integer | number | string | object => exact .inr (.noArray nofun)

theorem walk?_eq_some_iff {root node : Json} {steps : List Step} :
    walk? root steps = some node ↔ Reaches root steps node := by
  refine ⟨fun walked => ?_, Reaches.walk?_eq⟩
  -- The walk has one outcome, so the steps cannot do anything else.
  rcases reaches_or_leaves root steps with ⟨other, reaches⟩ | leaves
  · cases reaches.walk?_eq.symm.trans walked
    exact reaches
  · cases leaves.walk?_eq.symm.trans walked

theorem walk?_eq_none_iff {root : Json} {steps : List Step} :
    walk? root steps = none ↔ Leaves root steps := by
  refine ⟨fun walked => ?_, Leaves.walk?_eq⟩
  rcases reaches_or_leaves root steps with ⟨node, reaches⟩ | leaves
  · cases reaches.walk?_eq.symm.trans walked
  · exact leaves

/-! ## Fields -/

/-- A field of a JSON document that is no member of the root is found by a walk. -/
theorem field?_of_no_member {root : Json} {path : String} (other : root.get? path = none) :
    (Fields.json root).field? path = (Path.parse? path).bind fun steps =>
      (walk? root steps).map Field.ofJson := by
  rw [Fields.field?, other]
  simp only [Option.map_eq_bind]
  rfl

/-- Steps that are keys without points and brackets and indexes of 64 bits are read back from
their text.  The field of a document at that text is what the steps lead to from the root, and there
is none exactly if they lead out of the document; but a member of the root that has the whole text
for its name comes first. -/
theorem fields_addressed {steps : List Step} (ordinary : ∀ s ∈ steps, s.Ordinary) :
    Path.parse? (Path.text steps) = some steps ∧
    ∀ d : Document, ∀ root : Json, d.fields = .json root →
      (∀ node, root.get? (Path.text steps) = some node →
        d.field? (Path.text steps) = some (Field.ofJson node)) ∧
      (root.get? (Path.text steps) = none →
        (∀ f, d.field? (Path.text steps) = some f ↔
          ∃ node, Reaches root steps node ∧ Field.ofJson node = f) ∧
        (d.field? (Path.text steps) = none ↔ Leaves root steps)) := by
  have read := Path.parse?_text ordinary
  refine ⟨read, fun d root fields => ⟨fun node named => ?_, fun other => ?_⟩⟩
  · rw [Document.field?, fields, Fields.field?, named]
  · have walked : d.field? (Path.text steps) = (walk? root steps).map Field.ofJson := by
      rw [Document.field?, fields, field?_of_no_member other, read, Option.bind_some]
    constructor
    · intro f
      rw [walked, Option.map_eq_some_iff]
      exact exists_congr fun node => and_congr_left fun _ => walk?_eq_some_iff
    · rw [walked, Option.map_eq_none_iff, walk?_eq_none_iff]

/-- A document with a member that is named like a path, and a key with a closing bracket. -/
def bracketed : Document :=
  ⟨"d", .zero, .json (.object [("a.b", .bool true), ("a", .object [("b", .null)]),
    ("m]", .array [.null, .array [.string "x"]])])⟩

theorem fields_addressed_bracketed :
    (∀ s ∈ [Step.key "m]", .index 1, .index 0], s.Ordinary) ∧
    Path.text [.key "m]", .index 1, .index 0] = "m][1][0]" ∧
    bracketed.field? "m][1][0]" = some (.text "x") ∧
    bracketed.field? "a.b" = some (.bool true) := by
  have ordinary : ∀ s ∈ [Step.key "m]", .index 1, .index 0], s.Ordinary := by decide
  have text : Path.text [.key "m]", .index 1, .index 0] = "m][1][0]" := by decide
  have walked := ((fields_addressed ordinary).2 bracketed _ rfl).2 (by decide)
  have keys : ∀ s ∈ [Step.key "a", .key "b"], s.Ordinary := by decide
  have shadowed := ((fields_addressed keys).2 bracketed _ rfl).1 (.bool true) rfl
  refine ⟨ordinary, text, (walked.1 _).mpr ⟨.string "x", ?_, rfl⟩, shadowed⟩
  exact .member rfl (.item rfl (.item rfl (.here _)))

end TieredUdf.Document
