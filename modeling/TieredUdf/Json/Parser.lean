import TieredUdf.Json.Token

/-!
# Reading JSON

A pushdown automaton over the tokens: its stack holds the arrays and objects that are still
open.  At most 127 of them may be open at once.
-/

namespace TieredUdf.Json

/-- An array or object that is still open, its content last one first.  `object` carries the
name whose value is being read. -/
inductive Frame where
  | array (items : List Json)
  | object (members : List (String × Json)) (name : String)

inductive Expect where
  | value
  | itemOrClose
  | nameOrClose (members : List (String × Json))
  | name (members : List (String × Json))
  | colon (members : List (String × Json)) (name : String)
  | commaOrClose
  | nothing (result : Json)

structure Reader where
  frames : List Frame
  expect : Expect

namespace Reader

def maxDepth : Nat := 127

def initial : Reader := ⟨[], .value⟩

/-- A value is complete: it belongs to the innermost open frame. -/
def complete (frames : List Frame) (value : Json) : Reader :=
  match frames with
  | [] => ⟨[], .nothing value⟩
  | .array items :: rest => ⟨.array (value :: items) :: rest, .commaOrClose⟩
  | .object members name :: rest =>
      ⟨.object (insertMember name value members) name :: rest, .commaOrClose⟩

def begin? (frames : List Frame) : Token → Option Reader
  | .scalar value => some (complete frames value)
  | .openArray => if frames.length < maxDepth then some ⟨.array [] :: frames, .itemOrClose⟩ else none
  | .openObject => if frames.length < maxDepth then some ⟨frames, .nameOrClose []⟩ else none
  | _ => none

def name? (frames : List Frame) (members : List (String × Json)) : Token → Option Reader
  | .scalar (.string name) => some ⟨frames, .colon members name⟩
  | _ => none

def step (r : Reader) (t : Token) : Option Reader :=
  match r.expect with
  | .value => begin? r.frames t
  | .itemOrClose =>
      match r.frames, t with
      | .array items :: rest, .closeArray => some (complete rest (.array items.reverse))
      | frames, t => begin? frames t
  | .nameOrClose members =>
      match t with
      | .closeObject => some (complete r.frames (.object members))
      | t => name? r.frames members t
  | .name members => name? r.frames members t
  | .colon members name =>
      match t with
      | .colon => some ⟨.object members name :: r.frames, .value⟩
      | _ => none
  | .commaOrClose =>
      match r.frames, t with
      | .array items :: rest, .closeArray => some (complete rest (.array items.reverse))
      | .array _ :: _, .comma => some ⟨r.frames, .value⟩
      | .object members _ :: rest, .closeObject => some (complete rest (.object members))
      | .object members _ :: rest, .comma => some ⟨rest, .name members⟩
      | _, _ => none
  | .nothing _ => none

def finish (r : Reader) : Option Json :=
  match r.expect with
  | .nothing result => some result
  | _ => none

end Reader

/-- The value that a text writes; `none` when it is not JSON. -/
def parse? (s : String) : Option Json := do
  let tokens ← tokens? s.toList
  let reader ← tokens.foldlM Reader.step Reader.initial
  reader.finish

/-! ### Names that stand in a text -/

/-- The names of the members of the outermost object, while so many arrays and objects are open. -/
def outerNames : Nat → List Token → List String
  | _, [] => []
  | 1, .scalar (.string name) :: .colon :: rest => name :: outerNames 1 rest
  | depth, .openObject :: rest | depth, .openArray :: rest => outerNames (depth + 1) rest
  | depth, .closeObject :: rest | depth, .closeArray :: rest => outerNames (depth - 1) rest
  | depth, _ :: rest => outerNames depth rest

/-- How often a text gives the outermost object a member; a value has the last one only. -/
def timesGiven (s : String) (name : String) : Nat :=
  (outerNames 0 ((tokens? s.toList).getD [])).count name

end TieredUdf.Json
