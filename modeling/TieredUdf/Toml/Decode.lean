import TieredUdf.Toml.Parser

/-!
# Reading records from TOML

A record is a table with named fields, of which unknown ones are ignored, or an array that gives
the fields in their order.
-/

namespace TieredUdf.Toml

/-- The values of named fields; each may be missing. -/
def fields? (names : List String) : Toml → Option (List (Option Toml))
  | .table entries => some (names.map fun n => member? n entries)
  | .array items => some (names.zipIdx.map fun n => items[n.2]?)
  | .datetime => some (names.map fun _ => none)
  | _ => none

def text? : Toml → Option String
  | .string s => some s
  | _ => none

def flag? : Toml → Option Bool
  | .boolean b => some b
  | _ => none

def natural? (maximum : Nat) : Toml → Option Nat
  | .integer n => if 0 ≤ n ∧ n ≤ maximum then some n.toNat else none
  | _ => none

def list? {α : Type} (item? : Toml → Option α) : Toml → Option (List α)
  | .array items => items.mapM item?
  | _ => none

/-- One of several names, written as a text or as a table of that single empty entry. -/
def name? : Toml → Option String
  | .string s => some s
  | .table [(name, .table [])] => some name
  | .table [(name, .array [])] => some name
  | _ => none

def optional? {α : Type} (read? : Toml → Option α) : Option Toml → Option (Option α)
  | none => some none
  | some v => (read? v).map some

def withDefault? {α : Type} (default : α) (read? : Toml → Option α) : Option Toml → Option α
  | none => some default
  | some v => read? v

end TieredUdf.Toml
