import TieredUdf.Numeric.Double

/-!
# TOML values

The values of a TOML document.  Dates and times are recognised but not kept.
-/

namespace TieredUdf

open Numeric (Double)

inductive Toml where
  | string (s : String)
  | integer (n : Int)
  | float (x : Double)
  | boolean (b : Bool)
  | datetime
  | array (items : List Toml)
  | table (entries : List (String × Toml))
  deriving Inhabited

namespace Toml

def member? (name : String) : List (String × Toml) → Option Toml
  | [] => none
  | (n, v) :: rest => if n = name then some v else member? name rest

end Toml

end TieredUdf
