import TieredUdf.Tier.Instance

/-!
# Pools of instances

A pool keeps up to `capacity` idle instances of one module on one tier and lends them to calls,
first in first out.  Up to `maxLive` instances exist at once, the lent ones included.  A closed
pool makes no instance and takes none back, and an instance that trapped is not lent again.
Reports tell its counters in 64 bits.
-/

namespace TieredUdf

open Text (Duration)

/-- An instance of a pool; no two of one pool have the same number. -/
structure Member (ι : Type) where
  number : Nat
  body : ι

structure Pool (ω ι : Type) where
  key : ModuleKey
  tier : Tier
  factory : Factory ω ι
  capacity : Nat
  maxLive : Nat
  timeout : Duration
  /-- The idle instances, the next one to be lent first. -/
  idle : List (Member ι)
  /-- How many instances exist or are being made. -/
  live : Nat
  closed : Bool
  checkouts : Nat
  instantiations : Nat
  discarded : Nat
  exhausted : Nat

structure PoolStats where
  capacity : Nat
  idle : Nat
  live : Nat
  checkouts : UInt64
  instantiations : UInt64
  discarded : UInt64
  exhausted : UInt64
  deriving DecidableEq, Repr, Inhabited

namespace Pool

variable {ω ι : Type}

/-- An empty pool.  It holds at least one instance, and at least its capacity may exist. -/
def create (key : ModuleKey) (tier : Tier) (factory : Factory ω ι) (capacity maxLive : Nat)
    (timeout : Duration) : Pool ω ι :=
  { key := key
    tier := tier
    factory := factory
    capacity := max capacity 1
    maxLive := max maxLive (max capacity 1)
    timeout := timeout
    idle := []
    live := 0
    closed := false
    checkouts := 0
    instantiations := 0
    discarded := 0
    exhausted := 0 }

def stats (p : Pool ω ι) : PoolStats :=
  { capacity := p.capacity
    idle := p.idle.length
    live := p.live
    checkouts := .ofNat p.checkouts
    instantiations := .ofNat p.instantiations
    discarded := .ofNat p.discarded
    exhausted := .ofNat p.exhausted }

/-- Keep a place for an instance that is to be made, when fewer than `limit` exist. -/
def reserve? (p : Pool ω ι) (limit : Nat) : Option (Pool ω ι) :=
  if p.closed then none
  else if p.live < limit then some { p with live := p.live + 1 }
  else none

/-- Make an instance for a place that was kept; a failure gives the place back. -/
def instantiate (p : Pool ω ι) (surroundings : ω) :
    Except ExecError (Member ι) × Pool ω ι × ω :=
  match p.factory surroundings with
  | (.ok body, after) =>
      (.ok ⟨p.instantiations, body⟩, { p with instantiations := p.instantiations + 1 }, after)
  | (.error e, after) => (.error e, { p with live := p.live - 1 }, after)

/-- Make idle instances until so many attempts are done, the capacity is reached or an attempt
fails. -/
def fill : Nat → Pool ω ι → ω → Except ExecError Unit × Pool ω ι × ω
  | 0, p, surroundings => (.ok (), p, surroundings)
  | n + 1, p, surroundings =>
      match p.reserve? p.capacity with
      | none => (.ok (), p, surroundings)
      | some p =>
          match p.instantiate surroundings with
          | (.error e, p, surroundings) => (.error e, p, surroundings)
          | (.ok m, p, surroundings) =>
              if p.idle.length < p.capacity then
                fill n { p with idle := p.idle ++ [m] } surroundings
              else (.ok (), { p with live := p.live - 1 }, surroundings)

/-- Make up to `n` idle instances, but no more than the capacity. -/
def prefill (p : Pool ω ι) (n : Nat) (surroundings : ω) : Except ExecError Unit × Pool ω ι × ω :=
  p.fill (min n p.capacity) surroundings

inductive Begun (ω ι : Type) where
  /-- It is decided at once. -/
  | decided (result : Except ExecError (Member ι)) (pool : Pool ω ι) (surroundings : ω)
  /-- It waits for an instance to come back. -/
  | waiting (pool : Pool ω ι)

/-- Ask for an instance: an idle one, or a new one while the capacity is not reached. -/
def beginCheckout (p : Pool ω ι) (surroundings : ω) : Begun ω ι :=
  let p := { p with checkouts := p.checkouts + 1 }
  match p.idle with
  | m :: rest => .decided (.ok m) { p with idle := rest } surroundings
  | [] =>
      match p.reserve? p.capacity with
      | some p =>
          let (result, p, surroundings) := p.instantiate surroundings
          .decided result p surroundings
      | none => .waiting p

/-- End a wait: an idle instance if one has come back, or a new one while fewer than `maxLive`
exist. -/
def endCheckout (p : Pool ω ι) (surroundings : ω) :
    Except ExecError (Member ι) × Pool ω ι × ω :=
  match p.idle with
  | m :: rest => (.ok m, { p with idle := rest }, surroundings)
  | [] =>
      match p.reserve? p.maxLive with
      | some p => p.instantiate surroundings
      | none =>
          (.error (.poolExhausted p.key p.timeout), { p with exhausted := p.exhausted + 1 },
            surroundings)

/-- Ask for an instance while nobody brings one back. -/
def checkout (p : Pool ω ι) (surroundings : ω) : Except ExecError (Member ι) × Pool ω ι × ω :=
  match p.beginCheckout surroundings with
  | .decided result p surroundings => (result, p, surroundings)
  | .waiting p => p.endCheckout surroundings

def close (p : Pool ω ι) : Pool ω ι × List (Member ι) :=
  ({ p with closed := true, idle := [], live := p.live - p.idle.length }, p.idle)

/-- Destroy an instance that comes back. -/
def discard (p : Pool ω ι) : Pool ω ι :=
  { p with discarded := p.discarded + 1, live := p.live - 1 }

/-- Take an instance back: it is queued, or destroyed when it is poisoned, the pool is closed or
the queue is full.  The second part says whether it was destroyed. -/
def release (p : Pool ω ι) (m : Member ι) (poisoned : Bool) : Pool ω ι × Bool :=
  if poisoned || p.closed then (p.discard, true)
  else if p.idle.length < p.capacity then ({ p with idle := p.idle ++ [m] }, false)
  else (p.discard, true)

end Pool

structure Lease (ι : Type) where
  member : Member ι
  /-- Whether a call through the lease ended in a trap. -/
  poisoned : Bool

namespace Lease

variable {ι : Type}

def ofMember (m : Member ι) : Lease ι := ⟨m, false⟩

def isTrap {α : Type} : Except ExecError α → Bool
  | .error (.trap ..) => true
  | _ => false

def afterCall {α : Type} (l : Lease ι) (result : Except ExecError α) (body : ι) : Lease ι :=
  ⟨⟨l.member.number, body⟩, l.poisoned || isTrap result⟩

end Lease

end TieredUdf
