import TieredUdf.Tier.Pool

/-!
# Pools with their borrowers

A pool together with its surroundings and the leases it has given out, which are numbered in
their order.  Every instance of a pool is idle, lent through one lease, or destroyed.
-/

namespace TieredUdf

structure Lending (ω ι : Type) where
  pool : Pool ω ι
  surroundings : ω
  /-- The leases by number; one that has ended is `none`. -/
  leases : List (Option (Lease ι))

namespace Lending

variable {ω ι : Type}

def ofPool (p : Pool ω ι) (surroundings : ω) : Lending ω ι := ⟨p, surroundings, []⟩

def lease? (l : Lending ω ι) (number : Nat) : Option (Lease ι) := l.leases[number]?.join

def lent (l : Lending ω ι) : List (Member ι) := l.leases.filterMap fun r => r.map Lease.member

/-- Make up to so many idle instances. -/
def prefill (l : Lending ω ι) (n : Nat) : Except ExecError Unit × Lending ω ι :=
  let (result, pool, surroundings) := l.pool.prefill n l.surroundings
  (result, { l with pool := pool, surroundings := surroundings })

def checkout (l : Lending ω ι) : Except ExecError Nat × Lending ω ι :=
  let (result, pool, surroundings) := l.pool.checkout l.surroundings
  let l := { l with pool := pool, surroundings := surroundings }
  match result with
  | .ok m => (.ok l.leases.length, { l with leases := l.leases ++ [some (.ofMember m)] })
  | .error e => (.error e, l)

def call? {α : Type} (l : Lending ω ι) (number : Nat) (run : ι → Except ExecError α × ι) :
    Option (Except ExecError α × Lending ω ι) :=
  (l.lease? number).map fun lease =>
    let (result, body) := run lease.member.body
    (result, { l with leases := l.leases.set number (some (lease.afterCall result body)) })

/-- End a lease; `none` when it has ended already.  The answer is the instance, if it was
destroyed. -/
def drop? (l : Lending ω ι) (number : Nat) : Option (Option (Member ι) × Lending ω ι) :=
  (l.lease? number).map fun lease =>
    let (pool, destroyed) := l.pool.release lease.member lease.poisoned
    (if destroyed then some lease.member else none,
      { l with pool := pool, leases := l.leases.set number none })

def close (l : Lending ω ι) : List (Member ι) × Lending ω ι :=
  let (pool, destroyed) := l.pool.close
  (destroyed, { l with pool := pool })

end Lending

end TieredUdf
