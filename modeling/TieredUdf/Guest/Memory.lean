/-!
# Guest memory

A memory is a number of bytes, each zero until it is written.  Only the bytes up to the highest
written one are stored.  An access has to lie inside of the memory as a whole.
-/

namespace TieredUdf.Guest

structure Memory where
  /-- The number of bytes. -/
  size : Nat
  /-- The first bytes; those that follow are zero. -/
  stored : ByteArray
  deriving Inhabited

namespace Memory

def zeros (size : Nat) : Memory := ⟨size, .empty⟩

def byte (m : Memory) (i : Nat) : UInt8 := if h : i < m.stored.size then m.stored[i] else 0

/-- The bytes with as many zeros after them as bring their number to `size`. -/
def pad : Nat → ByteArray → ByteArray
  | 0, bytes => bytes
  | missing + 1, bytes => pad missing (bytes.push 0)

/-- The memory after a byte has been written, inside or outside of its size. -/
def setByte (m : Memory) (i : Nat) (b : UInt8) : Memory :=
  if m.stored.size ≤ i then
    { m with stored := (pad (i - m.stored.size) m.stored).push b }
  else { m with stored := m.stored.set! i b }

def setBytes (m : Memory) : Nat → List UInt8 → Memory
  | _, [] => m
  | i, b :: rest => (m.setByte i b).setBytes (i + 1) rest

/-- Whether `length` bytes at `start` lie inside of the memory. -/
def covers (m : Memory) (start length : Nat) : Bool := decide (start + length ≤ m.size)

def bytes (m : Memory) (start length : Nat) : List UInt8 :=
  (List.range length).map fun i => m.byte (start + i)

/-- Read a range that lies inside of the memory. -/
def read? (m : Memory) (start length : Nat) : Option (List UInt8) :=
  if m.covers start length then some (m.bytes start length) else none

/-- Write a range that lies inside of the memory. -/
def write? (m : Memory) (start : Nat) (data : List UInt8) : Option Memory :=
  if m.covers start data.length then some (m.setBytes start data) else none

/-- The same bytes followed by more zeros. -/
def grow (m : Memory) (extra : Nat) : Memory := { m with size := m.size + extra }

end Memory

end TieredUdf.Guest
