import TieredUdf.Numeric.Range

/-!
# Spans of time as text

A span is a number of nanoseconds.  Its text uses the largest of the units s, ms, µs and ns in
which it is at least one, and as many decimal places as are needed to be exact.
-/

namespace TieredUdf.Text

open Numeric (powerOfTen)

structure Duration where
  nanoseconds : Nat
  deriving DecidableEq, Repr, Inhabited

namespace Duration

def ofMilliseconds (n : Nat) : Duration := ⟨n * 1000000⟩

def ofSeconds (seconds nanoseconds : Nat) : Duration := ⟨seconds * 1000000000 + nanoseconds⟩

def milliseconds (d : Duration) : Nat := d.nanoseconds / 1000000

def dropTrailingZeros (digits : List Char) : List Char :=
  (digits.reverse.dropWhile (· == '0')).reverse

/-- The places after the point of `rest / 10 ^ places`. -/
def fraction (places rest : Nat) : List Char :=
  let digits := Nat.toDigits 10 rest
  match dropTrailingZeros (List.replicate (places - digits.length) '0' ++ digits) with
  | [] => []
  | shown => '.' :: shown

/-- `n / 10 ^ places` with a unit. -/
def inUnit (places n : Nat) (unit : String) : String :=
  toString (n / powerOfTen places) ++ String.ofList (fraction places (n % powerOfTen places)) ++ unit

def text (d : Duration) : String :=
  if 1000000000 ≤ d.nanoseconds then inUnit 9 d.nanoseconds "s"
  else if 1000000 ≤ d.nanoseconds then inUnit 6 d.nanoseconds "ms"
  else if 1000 ≤ d.nanoseconds then inUnit 3 d.nanoseconds "µs"
  else inUnit 0 d.nanoseconds "ns"

end Duration

end TieredUdf.Text
