import TieredUdf.Engine.Basic

/-!
# Compile jobs

There is at most one open job for some bytecode; a module with the same bytecode joins it.  A
job asks the cache, compiles when there is no artifact, stores what it compiled, takes over the
modules that wait and installs native code in each.  These are its steps, and steps of other
jobs, registrations and calls may come between any two of them.
-/

namespace TieredUdf.Engine

variable {β ι : Type}

/-- The number of compiles that have not been decided yet. -/
def pendingCompilations (e : Engine β ι) : Nat := (e.jobs.filter CompileJob.isOpen).length

def join (hash : ContentHash) (number : Nat) (jobs : List CompileJob) : List CompileJob :=
  jobs.map fun j =>
    if j.isOpen ∧ j.hash = hash then { j with waiters := j.waiters ++ [number] } else j

def schedule (e : Engine β ι) (number : Nat) (m : LoadedModule (World β) ι) : Engine β ι :=
  if e.jobs.any fun j => j.isOpen && j.hash == m.hash then
    { e with
      jobs := join m.hash number e.jobs
      counters.compilationsCoalesced := e.counters.compilationsCoalesced + 1 }
  else
    { e with
      jobs := e.jobs ++ [⟨m.hash, m.descriptor.bytecode, m.key.text, [number], .queued⟩] }

/-! ### The steps -/

def setStage (e : Engine β ι) (i : Nat) (j : CompileJob) (stage : JobStage) : Engine β ι :=
  { e with jobs := e.jobs.set i { j with stage := stage } }

def lookupArtifact (e : Engine β ι) (i : Nat) (j : CompileJob) : Engine β ι :=
  match e.cache.lookup j.hash with
  | (cache, some artifact) => { e with cache := cache }.setStage i j (.ready artifact.bytes true)
  | (cache, none) =>
      { e with
        cache := cache
        counters.compilationsStarted := e.counters.compilationsStarted + 1 }.setStage i j .compiling

def compileArtifact (e : Engine β ι) (b : Backend (World β) ι) (i : Nat) (j : CompileJob) :
    Engine β ι :=
  match b.compile j.bytecode e.world with
  | (.ok artifact, world) =>
      { e with
        world := world
        counters.compilationsSucceeded := e.counters.compilationsSucceeded + 1 }.setStage i j
          (.compiled artifact)
  | (.error error, world) =>
      { e with
        world := world
        counters.compilationsFailed := e.counters.compilationsFailed + 1 }.setStage i j
          (.failed error)

/-- Store what was compiled; it is installed even when it cannot be stored. -/
def storeArtifact (e : Engine β ι) (b : Backend (World β) ι) (i : Nat) (j : CompileJob)
    (artifact : List UInt8) (now : Nat) : Engine β ι :=
  { e with cache := (e.cache.store j.hash artifact j.origin b.name now).1 }.setStage i j
    (.ready artifact false)

/-- Take over the modules that wait; from now on none can join. -/
def takeWaiters (e : Engine β ι) (i : Nat) (j : CompileJob) (artifact : List UInt8)
    (fromCache : Bool) : Engine β ι :=
  e.setStage i j (.installing artifact fromCache (j.waiters.filter e.isAlive))

/-- Note a failed compile in the modules that wait, and end the job. -/
def failWaiters (e : Engine β ι) (i : Nat) (j : CompileJob) (error : CompileError) :
    Engine β ι :=
  let failed := (j.waiters.filter e.isAlive).foldl (fun e n =>
    match e.modules[n]? with
    | some m => e.setModule n (m.failCompile error 0)
    | none => e) e
  { failed with jobs := failed.jobs.eraseIdx i }

/-- Install native code in one module, unless it is torn down already. -/
def install (e : Engine β ι) (b : Backend (World β) ι) (j : CompileJob)
    (artifact : List UInt8) (fromCache : Bool) (number now : Nat) : Engine β ι :=
  match e.modules[number]? with
  | none => e
  | some m =>
      if m.finalized then e.setModule number m.settle
      else
        let (cache, stored) := e.cache.storeAndAcquire j.hash artifact j.origin b.name now
        let e := { e with cache := cache }
        match e.nativePool b m.descriptor artifact with
        | (.ok pool, world) =>
            let (installed, m, cache) := m.installNative pool stored.isSome cache
            let m := { m with stats := m.stats.updateCompile fun d => d.succeed fromCache 0 }
            { e with
              cache := cache
              world := world
              counters.hotSwaps := e.counters.hotSwaps + (if installed then 1 else 0) }.setModule
                number m.settle
        | (.error error, world) =>
            { e with
              cache := if stored.isSome then cache.release j.hash else cache
              world := world }.setModule number (m.failCompile error 0)

def stepJob (e : Engine β ι) (i now : Nat) : Engine β ι :=
  match e.jobs[i]?, e.backend with
  | some j, some b =>
      match j.stage with
      | .queued => e.lookupArtifact i j
      | .compiling => e.compileArtifact b i j
      | .compiled artifact => e.storeArtifact b i j artifact now
      | .ready artifact fromCache => e.takeWaiters i j artifact fromCache
      | .failed error => e.failWaiters i j error
      | .installing artifact fromCache (n :: rest) =>
          (e.setStage i j (.installing artifact fromCache rest)).install b j artifact fromCache
            n now
      | .installing _ _ [] => { e with jobs := e.jobs.eraseIdx i }
  | _, _ => e

/-! ### Whole runs -/

/-- A bound of the steps that a job has before it. -/
def stepsLeft (j : CompileJob) : Nat :=
  match j.stage with
  | .queued => 6 + j.waiters.length
  | .compiling => 5 + j.waiters.length
  | .compiled _ => 4 + j.waiters.length
  | .ready .. => 3 + j.waiters.length
  | .failed _ => 1
  | .installing _ _ modules => 1 + modules.length

/-- Step the oldest job so many times, as long as some condition on it holds. -/
def stepOldest (go : CompileJob → Bool) (now : Nat) : Nat → Engine β ι → Engine β ι
  | 0, e => e
  | n + 1, e =>
      match e.jobs.head? with
      | some j => if go j then stepOldest go now n (e.stepJob 0 now) else e
      | none => e

def isCompiling (j : CompileJob) : Bool :=
  match j.stage with
  | .compiling => true
  | _ => false

/-- Run the jobs in their order up to the first one that has to compile. -/
def runToCompile (e : Engine β ι) (now : Nat) : Engine β ι :=
  stepOldest (fun j => !isCompiling j) now (Numeric.total (e.jobs.map stepsLeft)) e

/-- Let the oldest job compile and install, and run on to the next one that has to compile. -/
def runOldest (e : Engine β ι) (now : Nat) : Engine β ι :=
  match e.jobs.head? with
  | some j =>
      let e := if isCompiling j then e.stepJob 0 now else e
      e.runToCompile now
  | none => e

/-- Run the jobs until so many of them have compiled, or there are none left. -/
def runJobs (now : Nat) : Nat → Engine β ι → Engine β ι
  | 0, e => e
  | n + 1, e => if e.jobs.isEmpty then e else runJobs now n (e.runOldest now)

def runAllJobs (e : Engine β ι) (now : Nat) : Engine β ι :=
  let e := e.runToCompile now
  runJobs now e.jobs.length e

end TieredUdf.Engine
