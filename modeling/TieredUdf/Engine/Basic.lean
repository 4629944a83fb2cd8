import TieredUdf.Config
import TieredUdf.Module.Invocation
import TieredUdf.Module.Validation

/-!
# Engines

An engine keeps loaded modules under their keys, a cache of artifacts that they share, and the
compile jobs that bring them to native code.  A module keeps its number after it has been
removed, because calls and jobs may still hold it.
-/

namespace TieredUdf

inductive JobStage where
  /-- The cache has not been asked yet. -/
  | queued
  /-- The cache has no artifact, so one is compiled. -/
  | compiling
  /-- The artifact has to be stored. -/
  | compiled (artifact : List UInt8)
  /-- The artifact can be installed. -/
  | ready (artifact : List UInt8) (fromCache : Bool)
  | failed (e : CompileError)
  /-- The modules that waited get native code, one after the other. -/
  | installing (artifact : List UInt8) (fromCache : Bool) (modules : List Nat)
  deriving Repr, Inhabited

/-- The compile of some bytecode, for all modules that have it. -/
structure CompileJob where
  hash : ContentHash
  bytecode : List UInt8
  /-- The text of the module that the job began with. -/
  origin : String
  /-- The numbers of the modules that wait for the job. -/
  waiters : List Nat
  stage : JobStage
  deriving Repr, Inhabited

namespace CompileJob

/-- Whether a module may still join the job. -/
def isOpen (j : CompileJob) : Bool :=
  match j.stage with
  | .installing .. => false
  | _ => true

end CompileJob

structure Engine (β ι : Type) where
  config : Config
  interpreter : Interpreter (World β) ι
  /-- The native compiler, if there is one. -/
  backend : Option (Backend (World β) ι)
  /-- Every module that was ever loaded; its place is its number. -/
  modules : List (LoadedModule (World β) ι)
  /-- The numbers of the registered modules, in the order of the keys. -/
  registered : List (ModuleKey × Nat)
  /-- The compile jobs, the oldest one first. -/
  jobs : List CompileJob
  counters : EngineCounters
  cache : Cache
  world : World β

namespace Engine

variable {β ι : Type}

def new (config : Config) (interpreter : Interpreter (World β) ι)
    (backend : Option (Backend (World β) ι)) (cache : Cache) (world : World β) :
    Except ConfigError (Engine β ι) := do
  config.validate
  return ⟨config, interpreter, backend, [], [], [], .zero, cache, world⟩

/-- Whether instructions are counted. -/
def isMetering (e : Engine β ι) : Bool := e.config.defaultFuel.isSome

def compiler? (e : Engine β ι) : Option (Backend (World β) ι) :=
  if e.config.backgroundCompilation then e.backend else none

def backendName (e : Engine β ι) : Option String := e.backend.map Backend.name

/-! ### Modules -/

def number? (e : Engine β ι) (key : ModuleKey) : Option Nat :=
  (e.registered.find? fun r => r.1 == key).map Prod.snd

def module? (e : Engine β ι) (key : ModuleKey) : Option (LoadedModule (World β) ι) :=
  (e.number? key).bind fun n => e.modules[n]?

def isRegistered (e : Engine β ι) (key : ModuleKey) : Bool := (e.number? key).isSome

def insertKey (key : ModuleKey) (number : Nat) :
    List (ModuleKey × Nat) → List (ModuleKey × Nat)
  | [] => [(key, number)]
  | r :: rest =>
      if key.before r.1 then (key, number) :: r :: rest else r :: insertKey key number rest

def addModule (e : Engine β ι) (m : LoadedModule (World β) ι) : Engine β ι :=
  { e with
    modules := e.modules ++ [m]
    registered := insertKey m.key e.modules.length e.registered }

def setModule (e : Engine β ι) (number : Nat) (m : LoadedModule (World β) ι) : Engine β ι :=
  { e with modules := e.modules.set number m }

def removeKey (e : Engine β ι) (key : ModuleKey) : Engine β ι :=
  { e with registered := e.registered.filter fun r => r.1 != key }

/-- Whether a module is registered or still called. -/
def isAlive (e : Engine β ι) (number : Nat) : Bool :=
  (e.registered.any fun r => r.2 == number) ||
    (e.modules[number]?).any fun m => decide (0 < m.inFlight)

/-- A module with what its calls act on. -/
def site? (e : Engine β ι) (number : Nat) : Option (Site β ι) :=
  (e.modules[number]?).map fun m => ⟨m, e.cache, e.world⟩

def putSite (e : Engine β ι) (number : Nat) (s : Site β ι) : Engine β ι :=
  { e.setModule number s.module with cache := s.cache, world := s.world }

/-! ### Pools -/

/-- What a factory needs to know of a module.  A module's own budget counts only where
instructions are counted. -/
def instanceSpec (e : Engine β ι) (d : Descriptor) : InstanceSpec :=
  { entry := d.entry
    resultCount := d.returns.length
    fuel := e.config.defaultFuel.map fun n => d.limits.fuel.getD n
    maxMemoryBytes := e.config.maxMemoryBytes }

def poolSize (e : Engine β ι) (d : Descriptor) : Nat := e.config.poolSizeFor d.limits.poolSize

def newPool (e : Engine β ι) (d : Descriptor) (tier : Tier) (factory : Factory (World β) ι) :
    Pool (World β) ι :=
  .create d.key tier factory (e.poolSize d) e.config.maxInstancesPerModule
    e.config.checkoutTimeout

/-- A full pool of native instances. -/
def nativePool (e : Engine β ι) (b : Backend (World β) ι) (d : Descriptor)
    (artifact : List UInt8) : Except CompileError (Pool (World β) ι) × World β :=
  match b.load artifact (e.instanceSpec d) e.world with
  | (.error error, world) => (.error error, world)
  | (.ok factory, world) =>
      match (e.newPool d .native factory).prefill (e.poolSize d) world with
      | (.ok (), pool, world) => (.ok pool, world)
      | (.error error, _, world) => (.error (.load error.message), world)

end Engine

end TieredUdf
