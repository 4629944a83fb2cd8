import TieredUdf.Files.Tree

/-!
# Scripts

A script reads files, changes directories and looks at the clock, and ends with a result.  It can
be carried out on real files or on a tree.
-/

namespace TieredUdf.CommandLine

open Files (Fault Node)

inductive Script (α : Type) where
  | done (result : α)
  | read (path : String) (next : Except Fault (List UInt8) → Script α)
  /-- Make a directory, unless it exists, and list it. -/
  | openDirectory (path : String) (next : Except Fault Directory → Script α)
  /-- Change the files of a directory; what cannot be changed stays as it is. -/
  | change (path : String) (ops : List FileOp) (next : Script α)
  /-- The time in nanoseconds. -/
  | clock (next : Nat → Script α)

namespace Script

def andThen {α β : Type} (s : Script α) (f : α → Script β) : Script β :=
  match s with
  | .done a => f a
  | .read path next => .read path fun data => (next data).andThen f
  | .openDirectory path next => .openDirectory path fun d => (next d).andThen f
  | .change path ops next => .change path ops (next.andThen f)
  | .clock next => .clock fun now => (next now).andThen f

instance : Monad Script where
  pure := .done
  bind := andThen

def readFile (path : String) : Script (Except Fault (List UInt8)) := .read path .done

def directory (path : String) : Script (Except Fault Directory) := .openDirectory path .done

def changeDirectory (path : String) (ops : List FileOp) : Script Unit :=
  .change path ops (.done ())

def now : Script Nat := .clock .done

/-- The tree after changes of the directory at a path. -/
def changed (root : Node) (path : String) (ops : List FileOp) : Node :=
  match root.openDirectory path with
  | .ok d => root.saveDirectory path (ops.foldl Directory.attempt d)
  | .error _ => root

def run {α : Type} (root : Node) (time : Nat) : Script α → α × Node
  | .done a => (a, root)
  | .read path next => (next (root.read path)).run root time
  | .openDirectory path next =>
      match root.openDirectory path with
      | .ok d => (next (.ok d)).run (root.saveDirectory path d) time
      | .error fault => (next (.error fault)).run root time
  | .change path ops next => next.run (changed root path ops) time
  | .clock next => (next time).run root (time + 1)

end Script

end TieredUdf.CommandLine
