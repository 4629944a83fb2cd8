import TieredUdf.Files.Directory
import TieredUdf.Files.Path

/-!
# Trees of files

A tree is a folder with everything below it.  Relative paths begin at the tree; nothing but
folders lies outside of it.
-/

namespace TieredUdf.Files

/-- A file, or a folder with its entries. -/
inductive Node where
  | file (data : List UInt8)
  | folder (entries : List (String × Node))
  deriving Inhabited

inductive Fault where
  | notFound
  | alreadyExists
  | notDirectory
  | isDirectory
  | nameTooLong
  | badName
  | notText
  | other (text : String)
  deriving DecidableEq, Repr, Inhabited

namespace Fault

def message : Fault → String
  | .notFound => "No such file or directory (os error 2)"
  | .alreadyExists => "File exists (os error 17)"
  | .notDirectory => "Not a directory (os error 20)"
  | .isDirectory => "Is a directory (os error 21)"
  | .nameTooLong => "File name too long (os error 36)"
  | .badName => "file name contained an unexpected NUL byte"
  | .notText => "stream did not contain valid UTF-8"
  | .other text => text

end Fault

namespace Node

/-- The folder of everything that is not in the tree. -/
def outside : Node := .folder []

def child? (name : String) (entries : List (String × Node)) : Option Node :=
  (entries.find? fun e => e.1 == name).map Prod.snd

def maxNameLength : Nat := 255

/-- Follow the parts of a path from a node whose ancestors are given, the nearest one first. -/
def walk : List Node → Node → List (List Char) → Except Fault Node
  | _, node, [] => .ok node
  | _, .file _, _ :: _ => .error .notDirectory
  | ancestors, .folder entries, part :: rest =>
      if Path.isIdle part then walk ancestors (.folder entries) rest
      else if part = ['.', '.'] then walk ancestors.tail (ancestors.headD outside) rest
      else if maxNameLength < (String.ofList part).utf8ByteSize then .error .nameTooLong
      else match child? (String.ofList part) entries with
        | some child => walk (.folder entries :: ancestors) child rest
        | none => .error .notFound

def find (root : Node) (path : String) : Except Fault Node :=
  if path.isEmpty then .error .notFound
  else if path.toList.contains '\x00' then .error .badName
  else walk [] (if Path.isAbsolute path then outside else root) (Path.parts path.toList)

def read (root : Node) (path : String) : Except Fault (List UInt8) := do
  match ← root.find path with
  | .file data => .ok data
  | .folder _ => .error .isDirectory

/-- Change the node at a list of names, making the folders on the way. -/
def update (f : Option Node → Node) : List String → Option Node → Node
  | [], node => f node
  | name :: rest, node =>
      let entries := match node with
        | some (.folder entries) => entries
        | _ => []
      if (child? name entries).isSome then
        .folder (entries.map fun e => if e.1 = name then (name, update f rest (some e.2)) else e)
      else .folder (entries ++ [(name, update f rest none)])

/-- The names that a relative path goes down by; `none` when it leads out of the tree. -/
def names? (path : String) : Option (List String) :=
  if Path.isAbsolute path then none
  else
    ((Path.parts path.toList).filter fun p => !Path.isIdle p).foldlM
      (fun read part =>
        if part = ['.', '.'] then if read.isEmpty then none else some read.dropLast
        else some (read ++ [String.ofList part]))
      []

def insert (root : Node) (path : String) (data : List UInt8) : Node :=
  match names? path with
  | some names => update (fun _ => .file data) names (some root)
  | none => root

/-! ### Folders as flat directories -/

def toDirectory (entries : List (String × Node)) : Directory :=
  ⟨true, entries.map fun e => match e.2 with
    | .file data => (e.1, .file data)
    | .folder _ => (e.1, .folder)⟩

def ofDirectory (before : List (String × Node)) (d : Directory) : List (String × Node) :=
  d.items.map fun i => match i.2 with
    | .file data => (i.1, .file data)
    | .folder => (i.1, (child? i.1 before).getD (.folder []))

/-- Why the folders of a path cannot be made, given why the path cannot be followed. -/
def makeFault (rest : Except Fault Node) : Option Fault :=
  match rest with
  | .ok (.folder _) => none
  | .ok (.file _) => some .alreadyExists
  | .error .notFound => none
  | .error f => some f

/-- Make the folders of a path that are missing, and list the last one. -/
def openDirectory (root : Node) (path : String) : Except Fault Directory :=
  if path.isEmpty then .error .notFound
  else match makeFault (root.find path) with
    | some f => .error f
    | none =>
        match root.find path with
        | .ok (.folder entries) => .ok (toDirectory entries)
        | _ => .ok .empty

def saveDirectory (root : Node) (path : String) (d : Directory) : Node :=
  match names? path with
  | some names =>
      update (fun
        | some (.folder entries) => .folder (ofDirectory entries d)
        | _ => .folder (ofDirectory [] d)) names (some root)
  | none => root

end Node

def text (data : List UInt8) : Except Fault String :=
  match String.fromUTF8? ⟨data.toArray⟩ with
  | some s => .ok s
  | none => .error .notText

end TieredUdf.Files
