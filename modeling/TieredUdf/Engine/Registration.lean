import TieredUdf.Engine.Compile

/-!
# Registration and removal

A descriptor is checked first.  When the cache has an artifact of its bytecode that can be loaded,
the module is native from the start; otherwise it begins on the interpreter and is compiled in
the background.  A module that is removed refuses calls at once, and is torn down when the last
call has left.
-/

namespace TieredUdf.Engine

variable {β ι : Type}

/-- Load a module from the cache.  An artifact that cannot be loaded is dropped. -/
def loadCached (e : Engine β ι) (d : Descriptor) (now : Nat) :
    Option (LoadedModule (World β) ι) × Engine β ι :=
  match e.backend with
  | none => (none, e)
  | some b =>
      match e.cache.lookup d.hash with
      | (cache, none) =>
          (none,
            { e with
              cache := cache
              counters.cacheMisses := e.counters.cacheMisses + 1 })
      | (cache, some artifact) =>
          let e := { e with cache := cache }
          match e.nativePool b d artifact.bytes with
          | (.error _, world) =>
              (none,
                { e with
                  cache := (e.cache.invalidate d.hash).1
                  world := world
                  counters.cacheMisses := e.counters.cacheMisses + 1 })
          | (.ok pool, world) =>
              let (cache, stored) :=
                e.cache.storeAndAcquire d.hash artifact.bytes artifact.origin b.name now
              let compile := { CompileDiagnostics.initial .succeeded (some b.name) with
                fromCache := true }
              (some (.ofNative d pool compile stored.isSome now),
                { e with
                  cache := cache
                  world := world
                  counters.cacheHits := e.counters.cacheHits + 1 })

/-- Load a module on the interpreter; one instance is made at once. -/
def loadInterpreted (e : Engine β ι) (d : Descriptor) (now : Nat) :
    Except ValidationError (LoadedModule (World β) ι) × Engine β ι :=
  match e.interpreter d.bytecode (e.instanceSpec d) with
  | .error detail => (.error (.interpreter detail), e)
  | .ok factory =>
      match (e.newPool d .interpreter factory).prefill 1 e.world with
      | (.error error, _, world) =>
          (.error (.interpreter error.message), { e with world := world })
      | (.ok (), pool, world) =>
          let compiles := e.compiler?.isSome
          let status := if compiles then .pending else .disabled
          (.ok (.interpreted d pool (.initial status e.backendName) (!compiles) now),
            { e with world := world })

def load (e : Engine β ι) (d : Descriptor) (now : Nat) :
    Except ValidationError (LoadedModule (World β) ι) × Engine β ι :=
  match e.loadCached d now with
  | (some m, e) => (.ok m, e)
  | (none, e) => e.loadInterpreted d now

/-- Add a loaded module, and have it compiled when it is not native. -/
def enroll (e : Engine β ι) (m : LoadedModule (World β) ι) : Mode × Engine β ι :=
  let number := e.modules.length
  let (m, begun) := if e.compiler?.isSome then m.beginCompile else (m, false)
  let e := e.addModule m
  let e := { e with counters.registrations := e.counters.registrations + 1 }
  (m.mode, if begun then e.schedule number m else e)

/-- Check everything that does not need an instance. -/
def check (e : Engine β ι) (d : Descriptor) : Except ValidationError Unit := do
  let _ ← d.validate e.config.maxMemoryPages
  d.validateLimits e.isMetering
  if e.isRegistered d.key then throw (.duplicate d.key)

/-- Register a module; the answer is the mode that it begins in. -/
def register (e : Engine β ι) (d : Descriptor) (now : Nat) :
    Except ValidationError Mode × Engine β ι :=
  match e.check d with
  | .error error => (.error error, e)
  | .ok () =>
      match e.load d now with
      | (.error error, e) => (.error error, e)
      | (.ok m, e) =>
          let (mode, e) := e.enroll m
          (.ok mode, e)

/-- Remove a module and let it drain. -/
def retire (e : Engine β ι) (key : ModuleKey) (number : Nat) : Engine β ι :=
  let e := e.removeKey key
  let e := { e with counters.unregistrations := e.counters.unregistrations + 1 }
  match e.modules[number]? with
  | some m =>
      let (_, m, cache) := m.beginDrain e.cache
      { e.setModule number m with cache := cache }
  | none => e

/-- Remove a module, even while it is called. -/
def unregister (e : Engine β ι) (key : ModuleKey) : Except UnregisterError Unit × Engine β ι :=
  match e.number? key with
  | none => (.error (.notFound key), e)
  | some number => (.ok (), e.retire key number)

/-- Remove a module, unless it is called. -/
def tryUnregister (e : Engine β ι) (key : ModuleKey) :
    Except UnregisterError Unit × Engine β ι :=
  match e.number? key with
  | none => (.error (.notFound key), e)
  | some number =>
      let inFlight := ((e.modules[number]?).map LoadedModule.inFlight).getD 0
      if 0 < inFlight then (.error (.busy key inFlight), e) else (.ok (), e.retire key number)

end TieredUdf.Engine
