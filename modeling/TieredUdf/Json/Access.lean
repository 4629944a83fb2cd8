import TieredUdf.Json.Basic

/-!
# Members of objects by type

A member that is missing, null or of another type counts as not given.
-/

namespace TieredUdf.Json

/-- The member of a given name, unless it is null. -/
def given? (j : Json) (name : String) : Option Json :=
  match j.get? name with
  | some .null => none
  | found => found

def member (j : Json) (name : String) : Json := (j.get? name).getD .null

def asText? : Json → Option String
  | .string s => some s
  | _ => none

/-- A number without a fraction, however it is written. -/
def asInt? : Json → Option Int
  | .integer n => some n
  | .number x => x.decode.toInt?
  | _ => none

def asNat? (j : Json) : Option Nat := j.asInt?.map Int.toNat

def asBool? : Json → Option Bool
  | .bool b => some b
  | _ => none

def asItems? : Json → Option (List Json)
  | .array items => some items
  | _ => none

def asMembers? : Json → Option (List (String × Json))
  | .object members => some members
  | _ => none

def text? (j : Json) (name : String) : Option String := (j.get? name).bind asText?

def natural? (j : Json) (name : String) : Option Nat := (j.get? name).bind asNat?

def textOr (j : Json) (name default : String) : String := (j.text? name).getD default

/-- A text; empty when it is not given. -/
def text (j : Json) (name : String) : String := j.textOr name ""

def intOr (j : Json) (name : String) (default : Int) : Int :=
  ((j.get? name).bind asInt?).getD default

def naturalOr (j : Json) (name : String) (default : Nat) : Nat := (j.natural? name).getD default

/-- A natural number; zero when it is not given. -/
def natural (j : Json) (name : String) : Nat := j.naturalOr name 0

def flagOr (j : Json) (name : String) (default : Bool) : Bool :=
  ((j.get? name).bind asBool?).getD default

/-- A truth value; false when it is not given. -/
def flag (j : Json) (name : String) : Bool := j.flagOr name false

def items (j : Json) (name : String) : List Json := ((j.get? name).bind asItems?).getD []

def members (j : Json) (name : String) : List (String × Json) :=
  ((j.get? name).bind asMembers?).getD []

def texts (j : Json) (name : String) : List String := (j.items name).filterMap asText?

def override (j : Json) (changes : List (String × Json)) : Json :=
  .object (changes.foldl (fun ms c => insertMember c.1 c.2 ms) (j.asMembers?.getD []))

/-! ### Building -/

def ofNat (n : Nat) : Json := .integer n

def ofWord (n : UInt64) : Json := .integer n.toNat

/-- A counter of 64 bits, which wraps around. -/
def ofCounter (n : Nat) : Json := ofWord (.ofNat n)

def ofList {α : Type} (f : α → Json) (xs : List α) : Json := .array (xs.map f)

def ofOption {α : Type} (f : α → Json) (x : Option α) : Json := (x.map f).getD .null

end TieredUdf.Json
