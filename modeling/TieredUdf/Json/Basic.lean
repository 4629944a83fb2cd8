import TieredUdf.Numeric.Double

/-!
# JSON values

An integer is held as one when it fits 64 bits, signed or unsigned; every other number is a
64-bit binary number.  An object keeps its members in the order of their first appearance, and a
later member of the same name replaces the value of the earlier one.
-/

namespace TieredUdf

open Numeric (Double)

inductive Json where
  | null
  | bool (b : Bool)
  | integer (n : Int)
  | number (x : Double)
  | string (s : String)
  | array (items : List Json)
  | object (members : List (String × Json))
  deriving Inhabited

namespace Json

/-- The members after `name` has been given a value. -/
def insertMember (name : String) (value : Json) : List (String × Json) → List (String × Json)
  | [] => [(name, value)]
  | (n, v) :: rest =>
      if n = name then (n, value) :: rest else (n, v) :: insertMember name value rest

def member? (name : String) : List (String × Json) → Option Json
  | [] => none
  | (n, v) :: rest => if n = name then some v else member? name rest

def get? (j : Json) (name : String) : Option Json :=
  match j with
  | .object members => member? name members
  | _ => none

def item? (j : Json) (index : Nat) : Option Json :=
  match j with
  | .array items => items[index]?
  | _ => none

def toUInt64? : Json → Option Nat
  | .integer n => if 0 ≤ n ∧ n ≤ Numeric.maxWord64 then some n.toNat else none
  | _ => none

/-- Any number, rounded to the 64-bit format. -/
def toDouble? : Json → Option Double
  | .integer n => some (.ofInt n)
  | .number x => some x
  | _ => none

end Json

end TieredUdf
