import TieredUdf.Module.Descriptor

/-!
# Queries

A query names what a module has to be like.  As JSON it is an object with any of the fields, or
an array that gives the first fields in their order.
-/

namespace TieredUdf

/-- What is looked for among the registered modules; a field that is not set restricts
nothing. -/
structure Query where
  name : Option String
  version : Option String
  tags : List String
  category : Option String
  author : Option String
  deriving DecidableEq, Repr, Inhabited

namespace Query

/-- Whether a wanted text is not set or is the one found. -/
def agrees (wanted found : Option String) : Bool := wanted.isNone || wanted == found

/-- Whether a module is what is looked for: it has every set field and carries every tag. -/
def selects (q : Query) (d : Descriptor) : Bool :=
  agrees q.name (some d.key.name) && agrees q.version (some d.key.version) &&
    agrees q.category d.metadata.category && agrees q.author d.metadata.author &&
    q.tags.all fun t => d.metadata.tags.contains t

/-- A text field; null leaves it unset. -/
def textOf? : Option Json → Option (Option String)
  | none | some .null => some none
  | some (.string s) => some (some s)
  | some _ => none

/-- The required tags; they may be left out, but not be null. -/
def tagsOf? : Option Json → Option (List String)
  | none => some []
  | some (.array items) => items.mapM fun
      | .string s => some s
      | _ => none
  | some _ => none

def fieldNames : List String := ["name", "version", "tags", "category", "author"]

/-- The values of the fields; unknown members of an object are ignored. -/
def fieldValues? : Json → Option (List (Option Json))
  | .object members => some (fieldNames.map fun n => Json.member? n members)
  | .array items =>
      if items.length ≤ fieldNames.length then
        some (fieldNames.zipIdx.map fun n => items[n.2]?)
      else none
  | _ => none

def ofJson? (j : Json) : Option Query := do
  match ← fieldValues? j with
  | [name, version, tags, category, author] =>
      return ⟨← textOf? name, ← textOf? version, ← tagsOf? tags, ← textOf? category,
        ← textOf? author⟩
  | _ => none

end Query

end TieredUdf
