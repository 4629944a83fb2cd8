import TieredUdf.Cache.Basic
import TieredUdf.Module.Binding
import TieredUdf.Module.Statistics

/-!
# Loaded modules

A loaded module has a pool of interpreted instances, a pool of native ones, or both in turn.
Installing native code is done in steps: the pool is set, the mode is published, and only then
the interpreter's pool is closed, so that a call always finds a pool.  A module that drains
admits no call; it is finalized, once, as soon as no call is in flight.
-/

namespace TieredUdf

/-- A registered version of a module, and everything that serves its calls. -/
structure LoadedModule (ω ι : Type) where
  descriptor : Descriptor
  mode : Mode
  /-- The pool of the interpreter; `none` when native code was there from the start. -/
  interpreter : Option (Pool ω ι)
  /-- The pool of native code, once it is installed. -/
  native : Option (Pool ω ι)
  stats : ModuleStats
  /-- The number of calls that have arrived and not left. -/
  inFlight : Nat
  /-- Whether new calls are refused. -/
  draining : Bool
  /-- Whether the module is torn down. -/
  finalized : Bool
  /-- Whether the module holds a reference to its artifact in the cache. -/
  holdsReference : Bool
  /-- Whether no compile will change the mode any more. -/
  settled : Bool

namespace LoadedModule

variable {ω ι : Type}

def interpreted (d : Descriptor) (pool : Pool ω ι) (compile : CompileDiagnostics)
    (settled : Bool) (now : Nat) : LoadedModule ω ι :=
  { descriptor := d
    mode := .interpreted
    interpreter := some pool
    native := none
    stats := .initial compile now
    inFlight := 0
    draining := false
    finalized := false
    holdsReference := false
    settled := settled }

/-- A module whose native code is there from the start. -/
def ofNative (d : Descriptor) (pool : Pool ω ι) (compile : CompileDiagnostics)
    (holdsReference : Bool) (now : Nat) : LoadedModule ω ι :=
  { descriptor := d
    mode := .native
    interpreter := none
    native := some pool
    stats := .initial compile now
    inFlight := 0
    draining := false
    finalized := false
    holdsReference := holdsReference
    settled := true }

def key (m : LoadedModule ω ι) : ModuleKey := m.descriptor.key

def hash (m : LoadedModule ω ι) : ContentHash := m.descriptor.hash

def report (m : LoadedModule ω ι) : ModuleReport :=
  m.stats.report m.key m.hash m.mode (m.interpreter.map Pool.stats) (m.native.map Pool.stats)

/-! ### Pools -/

def pool? (m : LoadedModule ω ι) : Tier → Option (Pool ω ι)
  | .interpreter => m.interpreter
  | .native => m.native

def setPool (m : LoadedModule ω ι) (tier : Tier) (p : Pool ω ι) : LoadedModule ω ι :=
  match tier with
  | .interpreter => { m with interpreter := some p }
  | .native => { m with native := some p }

/-- The tier of a pool, if the pool is there. -/
def tierIf (tier : Tier) (p : Option (Pool ω ι)) : Option Tier := p.map fun _ => tier

/-- The tier whose pool serves a new call.  An interpreter's pool that is closed is passed over
when there is native code. -/
def liveTier? (m : LoadedModule ω ι) : Option Tier :=
  let native := tierIf .native m.native
  let interpreter := tierIf .interpreter m.interpreter
  match m.mode with
  | .native => native.or interpreter
  | _ =>
      if m.interpreter.any fun p => p.closed then native.or interpreter
      else interpreter.or native

/-! ### Compiling and installing -/

/-- Claim the compile of the module; whether it was free. -/
def beginCompile (m : LoadedModule ω ι) : LoadedModule ω ι × Bool :=
  let (mode, begun) := m.mode.beginCompile
  ({ m with mode := mode }, begun)

/-- Set the native pool, unless there is one; whether it was set. -/
def setNative (m : LoadedModule ω ι) (p : Pool ω ι) : LoadedModule ω ι × Bool :=
  match m.native with
  | none => ({ m with native := some p }, true)
  | some _ => (m, false)

/-- Switch to native code; whether the module was not there already. -/
def publishNative (m : LoadedModule ω ι) : LoadedModule ω ι × Bool :=
  let (mode, published) := m.mode.publishNative
  ({ m with mode := mode }, published)

def closeInterpreter (m : LoadedModule ω ι) : LoadedModule ω ι :=
  { m with interpreter := m.interpreter.map fun p => p.close.1 }

def closeNative (m : LoadedModule ω ι) : LoadedModule ω ι :=
  { m with native := m.native.map fun p => p.close.1 }

def releaseReference (m : LoadedModule ω ι) (c : Cache) : LoadedModule ω ι × Cache :=
  if m.holdsReference then ({ m with holdsReference := false }, c.release m.hash) else (m, c)

/-- Close the native pool and give the reference back, when the module is already torn down. -/
def closeIfFinalized (m : LoadedModule ω ι) (c : Cache) : LoadedModule ω ι × Cache :=
  if m.finalized then m.closeNative.releaseReference c else (m, c)

/-- Install native code.  `reference` tells whether a reference to the artifact was taken for
the module.  The answer is whether the module changed to native code by this. -/
def installNative (m : LoadedModule ω ι) (p : Pool ω ι) (reference : Bool) (c : Cache) :
    Bool × LoadedModule ω ι × Cache :=
  let m := if reference then { m with holdsReference := true } else m
  let (m, isSet) := m.setNative p
  let (m, published) := if isSet then m.publishNative else (m, false)
  let (m, c) := m.closeInterpreter.closeIfFinalized c
  (isSet && published, m, c)

/-- Note that no compile will change the mode any more. -/
def settle (m : LoadedModule ω ι) : LoadedModule ω ι := { m with settled := true }

def failCompile (m : LoadedModule ω ι) (e : CompileError) (milliseconds : Nat) :
    LoadedModule ω ι :=
  { m with stats := m.stats.updateCompile fun d => d.fail e milliseconds }.settle

/-! ### Calls and teardown -/

/-- Tear the module down, unless that has been done; whether it was done now. -/
def finalize (m : LoadedModule ω ι) (c : Cache) : Bool × LoadedModule ω ι × Cache :=
  if m.finalized then (false, m, c)
  else
    let m := { m with finalized := true }.closeInterpreter.closeNative
    let (m, c) := m.releaseReference c
    (true, m.settle, c)

def arrive (m : LoadedModule ω ι) : LoadedModule ω ι := { m with inFlight := m.inFlight + 1 }

/-- A call leaves; whether it was the only one. -/
def leave (m : LoadedModule ω ι) : LoadedModule ω ι × Bool :=
  ({ m with inFlight := m.inFlight - 1 }, m.inFlight == 1)

/-- A call leaves; the last one of a draining module tears it down. -/
def exit (m : LoadedModule ω ι) (c : Cache) : Bool × LoadedModule ω ι × Cache :=
  let (m, last) := m.leave
  if last && m.draining then m.finalize c else (false, m, c)

def startDraining (m : LoadedModule ω ι) : LoadedModule ω ι := { m with draining := true }

/-- Refuse calls from now on, and tear the module down when none is in flight. -/
def beginDrain (m : LoadedModule ω ι) (c : Cache) : Bool × LoadedModule ω ι × Cache :=
  let m := m.startDraining
  if m.inFlight = 0 then m.finalize c else (false, m, c)

def recordRejection (m : LoadedModule ω ι) (e : ExecError) (now : Nat) : LoadedModule ω ι :=
  { m with stats := m.stats.recordRejection e.message now }

end LoadedModule

end TieredUdf
