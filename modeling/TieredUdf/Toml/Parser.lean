import TieredUdf.Toml.Reader

/-!
# Reading documents

A document is a list of lines: a header opens a table or the next table of an array, and every
other line gives a value to a key below the table opened last.
-/

namespace TieredUdf.Toml

inductive Line where
  | openTable (path : List String)
  | openItem (path : List String)
  | entry (path : List String) (value : Toml)

namespace Reader

def expect (c : Char) : Reader Unit := fun cs => (after? c cs).map fun rest => ((), rest)

/-- One line with its end, after all blank lines and comments. -/
def line : Reader Line := do
  match ← peek with
  | '[' :: '[' :: rest =>
      goOn rest
      let path ← key
      expect ']'
      expect ']'
      endOfLine
      return .openItem path
  | '[' :: rest =>
      goOn rest
      let path ← key
      expect ']'
      endOfLine
      return .openTable path
  | cs =>
      let path ← key
      expect '='
      skipBlanks
      let v ← value (2 * cs.length + 2)
      endOfLine
      return .entry path v

def lines : Nat → List Line → Reader (List Line)
  | 0, _ => refuse
  | fuel + 1, read => do
      skipFiller
      match ← peek with
      | [] => return read.reverse
      | _ => do lines fuel ((← line) :: read)

end Reader

/-- The entries of a document, and the path of the table opened last. -/
structure Builder where
  path : List String
  entries : List (String × Node)

namespace Builder

/-- Take in a line; `none` when it repeats what is already defined. -/
def add? (b : Builder) : Line → Option Builder
  | .openTable path =>
      match path.getLast? with
      | some name =>
          (Node.descend? .implied (Node.openTable? name) path.dropLast b.entries).map (⟨path, ·⟩)
      | none => none
  | .openItem path =>
      match path.getLast? with
      | some name =>
          (Node.descend? .implied (Node.openItem? name) path.dropLast b.entries).map (⟨path, ·⟩)
      | none => none
  | .entry path v =>
      (Node.descend? .implied (Node.insert? path v) b.path b.entries).map (⟨b.path, ·⟩)

end Builder

/-- The entries of the document that a text writes; `none` when it is not TOML. -/
def parse? (s : String) : Option (List (String × Toml)) := do
  let cs := s.toList
  let (lines, _) ← Reader.lines (cs.length + 1) [] cs
  let builder ← lines.foldlM Builder.add? ⟨[], []⟩
  return Node.entriesToToml builder.entries

end TieredUdf.Toml
