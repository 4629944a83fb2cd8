import TieredUdf.Text.Duration
import TieredUdf.Numeric.Double
import TieredUdf.Digest.ContentHash
import TieredUdf.Module.Key
import TieredUdf.Tier.Mode
import TieredUdf.Tier.Pool

/-!
# Statistics of a module

Every call is counted once: as an execution on a tier, with its time and its field lookups, or as
a rejection when no guest ran.  Counters are 64 bits wide and sums wrap around.
-/

namespace TieredUdf

open Numeric (Double)
open Text (Duration)

structure LastError where
  message : String
  /-- When it was, in milliseconds. -/
  moment : Nat
  deriving DecidableEq, Repr, Inhabited

/-- How far the compile of a registered module has come. -/
inductive CompileStatus where
  /-- Nothing compiles the module. -/
  | disabled
  | pending
  | succeeded
  /-- The module stays on the interpreter. -/
  | failed
  deriving DecidableEq, Repr, Inhabited

namespace CompileStatus

def name : CompileStatus → String
  | .disabled => "disabled"
  | .pending => "pending"
  | .succeeded => "succeeded"
  | .failed => "failed"

end CompileStatus

structure CompileDiagnostics where
  status : CompileStatus
  /-- The name of the compiler. -/
  backend : Option String
  /-- Whether the artifact was already stored. -/
  fromCache : Bool
  milliseconds : Option Nat
  error : Option String
  deriving DecidableEq, Repr, Inhabited

namespace CompileDiagnostics

def initial (status : CompileStatus) (backend : Option String) : CompileDiagnostics :=
  ⟨status, backend, false, none, none⟩

/-- After native code has been installed. -/
def succeed (d : CompileDiagnostics) (fromCache : Bool) (milliseconds : Nat) :
    CompileDiagnostics :=
  { d with
    status := .succeeded
    fromCache := fromCache
    milliseconds := some milliseconds
    error := none }

def fail (d : CompileDiagnostics) (error : CompileError) (milliseconds : Nat) :
    CompileDiagnostics :=
  { d with status := .failed, milliseconds := some milliseconds, error := some error.message }

end CompileDiagnostics

structure TierCounters where
  calls : UInt64
  nanoseconds : UInt64
  deriving DecidableEq, Repr, Inhabited

namespace TierCounters

def zero : TierCounters := ⟨0, 0⟩

def add (c : TierCounters) (nanoseconds : UInt64) : TierCounters :=
  ⟨c.calls + 1, c.nanoseconds + nanoseconds⟩

end TierCounters

/-- How a report divides: a time by a number of calls, and one number of calls by another. -/
structure Division where
  mean : UInt64 → UInt64 → UInt64
  rate : UInt64 → UInt64 → Double

namespace Division

def standard : Division where
  mean nanoseconds calls := nanoseconds / calls
  rate n calls := .quotient n.toNat calls.toNat

/-- The mean of some times; without calls nothing is divided. -/
def average (d : Division) (nanoseconds calls : UInt64) : UInt64 :=
  if calls = 0 then 0 else d.mean nanoseconds calls

end Division

structure ModuleStats where
  calls : UInt64
  errors : UInt64
  fieldReads : UInt64
  nanoseconds : UInt64
  /-- The least time of an execution; the greatest number before the first one. -/
  least : UInt64
  greatest : UInt64
  interpreter : TierCounters
  native : TierCounters
  /-- When the last call was recorded, in milliseconds; zero before the first one. -/
  lastCall : Nat
  lastError : Option LastError
  compile : CompileDiagnostics
  /-- When the module was registered, in milliseconds. -/
  registeredAt : Nat
  deriving DecidableEq, Repr, Inhabited

namespace ModuleStats

def initial (compile : CompileDiagnostics) (now : Nat) : ModuleStats :=
  { calls := 0
    errors := 0
    fieldReads := 0
    nanoseconds := 0
    least := .ofNat Numeric.maxWord64
    greatest := 0
    interpreter := .zero
    native := .zero
    lastCall := 0
    lastError := none
    compile := compile
    registeredAt := now }

/-- A time as it is counted: one that is too long counts as the longest. -/
def clampTime (elapsed : Duration) : UInt64 := .ofNat (min elapsed.nanoseconds Numeric.maxWord64)

def recordError (s : ModuleStats) (message : String) (now : Nat) : ModuleStats :=
  { s with errors := s.errors + 1, lastError := some ⟨message, now⟩ }

def recordOutcome (s : ModuleStats) (error : Option String) (now : Nat) : ModuleStats :=
  match error with
  | some message => s.recordError message now
  | none => s

def addTo (s : ModuleStats) (tier : Tier) (nanoseconds : UInt64) : ModuleStats :=
  match tier with
  | .interpreter => { s with interpreter := s.interpreter.add nanoseconds }
  | .native => { s with native := s.native.add nanoseconds }

/-- Record a call that reached a guest. -/
def recordExecution (s : ModuleStats) (tier : Tier) (elapsed : Duration) (fieldReads : Nat)
    (error : Option String) (now : Nat) : ModuleStats :=
  let time := clampTime elapsed
  let s := { s with
    calls := s.calls + 1
    nanoseconds := s.nanoseconds + time
    least := min s.least time
    greatest := max s.greatest time
    fieldReads := s.fieldReads + UInt64.ofNat fieldReads
    lastCall := now }
  (s.addTo tier time).recordOutcome error now

/-- Record a call that was refused before a guest ran. -/
def recordRejection (s : ModuleStats) (message : String) (now : Nat) : ModuleStats :=
  { s with calls := s.calls + 1, lastCall := now }.recordError message now

def updateCompile (s : ModuleStats) (f : CompileDiagnostics → CompileDiagnostics) :
    ModuleStats :=
  { s with compile := f s.compile }

end ModuleStats

structure TierReport where
  calls : UInt64
  average : UInt64
  deriving DecidableEq, Repr, Inhabited

structure ModuleReport where
  key : ModuleKey
  hash : ContentHash
  mode : Mode
  calls : UInt64
  errors : UInt64
  /-- Failures per call; zero without calls. -/
  errorRate : Double
  fieldReads : UInt64
  nanoseconds : UInt64
  /-- The least time of an execution; zero without executions. -/
  least : UInt64
  greatest : UInt64
  /-- The mean time of an execution; zero without executions. -/
  average : UInt64
  /-- When the last call was recorded, in milliseconds. -/
  lastCall : Option Nat
  lastError : Option LastError
  registeredAt : Nat
  interpreter : TierReport
  native : TierReport
  compile : CompileDiagnostics
  interpreterPool : Option PoolStats
  nativePool : Option PoolStats
  deriving Repr, Inhabited

namespace ModuleStats

/-- How many calls reached a guest. -/
def executions (s : ModuleStats) : UInt64 := s.interpreter.calls + s.native.calls

/-- The report on a module, given how it divides; what its pools tell is given, too. -/
def reportBy (d : Division) (s : ModuleStats) (key : ModuleKey) (hash : ContentHash) (mode : Mode)
    (interpreterPool nativePool : Option PoolStats) : ModuleReport :=
  let onTier := fun c : TierCounters => ⟨c.calls, d.average c.nanoseconds c.calls⟩
  { key := key
    hash := hash
    mode := mode
    calls := s.calls
    errors := s.errors
    errorRate := if s.calls = 0 then .zero else d.rate s.errors s.calls
    fieldReads := s.fieldReads
    nanoseconds := s.nanoseconds
    least := if s.executions = 0 then 0 else s.least
    greatest := s.greatest
    average := d.average s.nanoseconds s.executions
    lastCall := if s.lastCall = 0 then none else some s.lastCall
    lastError := s.lastError
    registeredAt := s.registeredAt
    interpreter := onTier s.interpreter
    native := onTier s.native
    compile := s.compile
    interpreterPool := interpreterPool
    nativePool := nativePool }

def report (s : ModuleStats) (key : ModuleKey) (hash : ContentHash) (mode : Mode)
    (interpreterPool nativePool : Option PoolStats) : ModuleReport :=
  s.reportBy .standard key hash mode interpreterPool nativePool

end ModuleStats

/-- What an engine counts over all modules; reports tell it in 64 bits. -/
structure EngineCounters where
  registrations : Nat
  unregistrations : Nat
  compilationsStarted : Nat
  compilationsSucceeded : Nat
  compilationsFailed : Nat
  compilationsCoalesced : Nat
  cacheHits : Nat
  cacheMisses : Nat
  hotSwaps : Nat
  deriving DecidableEq, Repr, Inhabited

namespace EngineCounters

def zero : EngineCounters := ⟨0, 0, 0, 0, 0, 0, 0, 0, 0⟩

end EngineCounters

end TieredUdf
