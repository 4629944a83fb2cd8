/-!
# Tiers and modes

A module is served by the interpreter until its native code is installed, and by native code
from then on.  Its mode only ever moves up.
-/

namespace TieredUdf

/-- A way to run a module. -/
inductive Tier where
  | interpreter
  | native
  deriving DecidableEq, Repr, Inhabited

namespace Tier

def name : Tier → String
  | .interpreter => "interpreter"
  | .native => "native"

end Tier

/-- How far a module has come. -/
inductive Mode where
  /-- Served by the interpreter; no compile has begun. -/
  | interpreted
  /-- Served by the interpreter while native code is made. -/
  | compiling
  /-- Served by native code. -/
  | native
  deriving DecidableEq, Repr, Inhabited

namespace Mode

def name : Mode → String
  | .interpreted => "interpreted"
  | .compiling => "compiling"
  | .native => "native"

/-- The mode of a stored number; every unknown one is the first mode. -/
def ofNumber (n : Nat) : Mode :=
  match n with
  | 1 => .compiling
  | 2 => .native
  | _ => .interpreted

def tier : Mode → Tier
  | .native => .native
  | _ => .interpreter

/-- Begin a compile; whether this was the first step up. -/
def beginCompile : Mode → Mode × Bool
  | .interpreted => (.compiling, true)
  | m => (m, false)

/-- Switch to native code; whether it was not there already. -/
def publishNative (m : Mode) : Mode × Bool := (.native, m != .native)

end Mode

end TieredUdf
