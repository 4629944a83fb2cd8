/-!
# Powers and ranges

Powers of two and of ten, and the ranges of integers of a fixed width.
-/

namespace TieredUdf.Numeric

def powerOfTwo (n : Nat) : Nat := Nat.pow 2 n

def powerOfTen (n : Nat) : Nat := Nat.pow 10 n

def maxWord32 : Nat := 0xffffffff

def maxWord64 : Nat := 0xffffffffffffffff

def fitsWord64 (n : Nat) : Bool := decide (n ≤ maxWord64)

def minInt32 : Int := -0x80000000

def maxInt32 : Int := 0x7fffffff

def minInt64 : Int := -0x8000000000000000

def maxInt64 : Int := 0x7fffffffffffffff

def fitsInt32 (n : Int) : Bool := decide (minInt32 ≤ n ∧ n ≤ maxInt32)

def fitsInt64 (n : Int) : Bool := decide (minInt64 ≤ n ∧ n ≤ maxInt64)

def total (ns : List Nat) : Nat := ns.foldr (fun n sum => n + sum) 0

end TieredUdf.Numeric
