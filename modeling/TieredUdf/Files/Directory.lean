/-!
# Directories

A directory holds named files and folders.  It changes by single operations, each of which
happens as a whole or not at all; one that fails changes nothing.
-/

namespace TieredUdf

/-- What a name in a directory stands for. -/
inductive DirectoryItem where
  | file (data : List UInt8)
  | folder
  deriving DecidableEq, Repr, Inhabited

structure Directory where
  /-- Whether the directory exists. -/
  present : Bool
  items : List (String × DirectoryItem)
  deriving Repr, Inhabited

inductive FileOp where
  /-- Create a file, or replace what is in it. -/
  | write (name : String) (data : List UInt8)
  /-- Give a file another name, in place of the file that has it. -/
  | rename (source target : String)
  | remove (name : String)
  deriving DecidableEq, Repr, Inhabited

namespace Directory

def empty : Directory := ⟨true, []⟩

/-- A directory that does not exist. -/
def missing : Directory := ⟨false, []⟩

/-- Every name, in the order in which the names came about. -/
def names (d : Directory) : List String := d.items.map Prod.fst

def item? (d : Directory) (name : String) : Option DirectoryItem :=
  (d.items.find? fun i => i.1 == name).map Prod.snd

def file? (d : Directory) (name : String) : Option (List UInt8) :=
  match d.item? name with
  | some (.file data) => some data
  | _ => none

def isFolder (d : Directory) (name : String) : Bool := d.item? name == some .folder

def erase (d : Directory) (name : String) : Directory :=
  { d with items := d.items.filter fun i => i.1 != name }

def put (d : Directory) (name : String) (data : List UInt8) : Directory :=
  if (d.item? name).isSome then
    { d with items := d.items.map fun i => if i.1 = name then (name, .file data) else i }
  else { d with items := d.items ++ [(name, .file data)] }

def perform? (d : Directory) : FileOp → Option Directory
  | .write name data =>
      if d.present && !d.isFolder name then some (d.put name data) else none
  | .rename source target =>
      match d.file? source with
      | some data => if d.isFolder target then none else some ((d.erase source).put target data)
      | none => none
  | .remove name => if (d.file? name).isSome then some (d.erase name) else none

/-- Perform operations up to the first one that fails; whether there was none. -/
def perform (d : Directory) : List FileOp → Directory × Bool
  | [] => (d, true)
  | op :: rest =>
      match d.perform? op with
      | some d => d.perform rest
      | none => (d, false)

def attempt (d : Directory) (op : FileOp) : Directory := (d.perform? op).getD d

def makeFolder? (d : Directory) (name : String) : Option Directory :=
  if d.present && (d.item? name).isNone then
    some { d with items := d.items ++ [(name, .folder)] }
  else none

end Directory

/-- What follows the last point of a name, unless the name begins with that point. -/
def fileExtension? (name : String) : Option String :=
  let cs := name.toList.reverse
  match cs.dropWhile (· != '.') with
  | _ :: _ :: _ => some (String.ofList (cs.takeWhile (· != '.')).reverse)
  | _ => none

end TieredUdf
