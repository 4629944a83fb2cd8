/-!
# Module keys

A module is named by its name and its version, written with an `@` between them.  Where the
text has several, the last one separates.
-/

namespace TieredUdf

structure ModuleKey where
  name : String
  version : String
  deriving DecidableEq, Repr, Inhabited

namespace ModuleKey

def text (k : ModuleKey) : String := k.name ++ "@" ++ k.version

/-- What stands before the last separator and after it. -/
def splitLast? (separator : Char) : List Char → Option (List Char × List Char)
  | [] => none
  | c :: rest =>
      match splitLast? separator rest with
      | some (front, back) => some (c :: front, back)
      | none => if c = separator then some ([], rest) else none

/-- The key that a text writes; neither part may be empty. -/
def parse? (s : String) : Option ModuleKey :=
  match splitLast? '@' s.toList with
  | some (name, version) =>
      if name = [] ∨ version = [] then none
      else some ⟨String.ofList name, String.ofList version⟩
  | none => none

/-- Whether one key stands before another: by name, then by version. -/
def before (a b : ModuleKey) : Bool :=
  decide (a.name < b.name) || (a.name == b.name && decide (a.version < b.version))

end ModuleKey

end TieredUdf
