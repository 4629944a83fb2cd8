/-!
# Paths of files as text

A path is a list of parts with slashes between them; it is absolute when it begins with a slash.
A part that is empty or a single point stands for no step, but a point at the very front is kept.
-/

namespace TieredUdf.Files.Path

/-- The parts between the slashes; a text without a slash is one part. -/
def parts : List Char → List (List Char)
  | [] => [[]]
  | c :: rest =>
      if c = '/' then [] :: parts rest
      else match parts rest with
        | [] => [[c]]
        | part :: more => (c :: part) :: more

def isAbsolute (path : String) : Bool := path.toList.head? == some '/'

/-- A path seen from a directory: an absolute one stays as it is. -/
def join (directory path : String) : String :=
  if isAbsolute path || directory.isEmpty then path
  else if directory.toList.getLast? == some '/' then directory ++ path
  else directory ++ "/" ++ path

def isIdle (part : List Char) : Bool := part == [] || part == ['.']

/-- Parts, the last one first, without the idle ones at the end of the path.  The flag tells
whether the first part of the path belongs to it even when it is a point. -/
def dropIdle (keepFirst : Bool) : List (List Char) → List (List Char)
  | [] => []
  | part :: before =>
      if isIdle part && !(keepFirst && before.isEmpty && part == ['.']) then
        dropIdle keepFirst before
      else part :: before

def dropLastStep (keepFirst : Bool) (path : List (List Char)) : List (List Char) :=
  (dropIdle keepFirst (dropIdle keepFirst path.reverse).tail).reverse

def joinParts : List (List Char) → List Char
  | [] => []
  | [part] => part
  | part :: rest => part ++ '/' :: joinParts rest

/-- The directory of a path with at least one step: the path without its last one. -/
def parent (path : String) : String :=
  match parts path.toList with
  | [] :: rest@(_ :: _) => String.ofList ('/' :: joinParts (dropLastStep false rest))
  | all => String.ofList (joinParts (dropLastStep true all))

end TieredUdf.Files.Path
