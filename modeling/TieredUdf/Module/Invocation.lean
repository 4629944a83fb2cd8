import TieredUdf.Host.Call
import TieredUdf.Module.Loaded

/-!
# Calls of a loaded module

A call is admitted, binds its parameters, obtains an instance from the pool of the live tier,
registers its context, runs, and gives everything back.  Whatever happens on the way, it is
counted once and leaves.  A call that has to wait for an instance can be taken up again later, as
can one whose guest is running.
-/

namespace TieredUdf

open Text (Duration)

/-- What guests and factories act on: the host, and whatever is outside of this library. -/
structure World (β : Type) where
  host : Host.State
  outside : β

/-- A loaded module with what its calls act on. -/
structure Site (β ι : Type) where
  module : LoadedModule (World β) ι
  cache : Cache
  world : World β

structure RunningCall (ι : Type) where
  tier : Tier
  lease : Lease ι
  /-- The identifier of its context. -/
  context : Nat
  arguments : List Scalar

structure Invocation where
  values : List Value
  tier : Tier
  elapsed : Duration
  deriving DecidableEq, Repr, Inhabited

/-- Whether a call reached a guest. -/
inductive Admission (ι : Type) where
  /-- It has left again. -/
  | refused (e : ExecError)
  | running (call : RunningCall ι)

inductive CallStage (ι : Type) where
  | decided (admission : Admission ι)
  /-- It waits for an instance of a tier. -/
  | waiting (tier : Tier) (bound : BoundCall)

namespace Site

variable {β ι : Type}

/-- The call is over without a guest having run. -/
def refuse (s : Site β ι) (e : ExecError) (now : Nat) : Admission ι × Site β ι :=
  let (_, module, cache) := (s.module.recordRejection e now).exit s.cache
  (.refused e, { s with module := module, cache := cache })

def noLiveTier (m : LoadedModule (World β) ι) : ExecError :=
  .instantiation ("module " ++ m.key.text ++ " has no live tier")

/-- Ask the pool of a tier for an instance, and wait as long as nobody brings one back. -/
def checkoutFrom (s : Site β ι) (tier : Tier) : Except ExecError (Member ι) × Site β ι :=
  match s.module.pool? tier with
  | none => (.error (noLiveTier s.module), s)
  | some p =>
      let (result, p, world) := p.checkout s.world
      (result, { s with module := s.module.setPool tier p, world := world })

/-- Whether a pool was closed while a call asked it for an instance. -/
def wasRetired (s : Site β ι) (tier : Tier) (e : ExecError) : Bool :=
  match e with
  | .poolExhausted .. => (s.module.pool? tier).any fun p => p.closed
  | _ => false

/-- Run with an instance: register the context of the call. -/
def start (s : Site β ι) (tier : Tier) (m : Member ι) (bound : BoundCall) (document : Document) :
    Admission ι × Site β ι :=
  let host := s.world.host
  let (contexts, id) := host.contexts.register (.ofDocument document bound.texts)
  let call :=
    { tier := tier
      lease := .ofMember m
      context := id
      arguments := bound.arguments (Host.Registry.guestId id) }
  (.running call, { s with world := { s.world with host := { host with contexts := contexts } } })

/-- Go on with what a checkout gave.  When the pool was closed meanwhile, native code is there,
and its pool is asked instead. -/
def afterCheckout (s : Site β ι) (tier : Tier) (result : Except ExecError (Member ι))
    (bound : BoundCall) (document : Document) (now : Nat) : Admission ι × Site β ι :=
  match result with
  | .ok m => s.start tier m bound document
  | .error e =>
      if s.wasRetired tier e && s.module.native.isSome then
        match s.checkoutFrom .native with
        | (.ok m, s) => s.start .native m bound document
        | (.error e, s) => s.refuse e now
      else s.refuse e now

def decided (r : Admission ι × Site β ι) : CallStage ι × Site β ι := (.decided r.1, r.2)

/-- Ask the pool of the live tier for an instance. -/
def obtain (s : Site β ι) (bound : BoundCall) (document : Document) (now : Nat) :
    CallStage ι × Site β ι :=
  match s.module.liveTier? with
  | none => decided (s.refuse (noLiveTier s.module) now)
  | some tier =>
      match s.module.pool? tier with
      | none => decided (s.refuse (noLiveTier s.module) now)
      | some p =>
          match p.beginCheckout s.world with
          | .waiting p =>
              (.waiting tier bound, { s with module := s.module.setPool tier p })
          | .decided result p world =>
              let s := { s with module := s.module.setPool tier p, world := world }
              decided (s.afterCheckout tier result bound document now)

/-- Begin a call.  A draining module refuses it. -/
def beginCall (s : Site β ι) (document : Document) (args : Arguments) (now : Nat) :
    CallStage ι × Site β ι :=
  let s := { s with module := s.module.arrive }
  if s.module.draining then decided (s.refuse (.draining s.module.key) now)
  else match s.module.descriptor.bind args with
    | .error e => decided (s.refuse e now)
    | .ok bound => s.obtain bound document now

/-- Take up a call that waits for an instance, when its wait is over. -/
def resumeCall (s : Site β ι) (tier : Tier) (bound : BoundCall) (document : Document)
    (now : Nat) : Admission ι × Site β ι :=
  match s.module.pool? tier with
  | none => s.refuse (noLiveTier s.module) now
  | some p =>
      let (result, p, world) := p.endCheckout s.world
      let s := { s with module := s.module.setPool tier p, world := world }
      s.afterCheckout tier result bound document now

def enter (s : Site β ι) (document : Document) (args : Arguments) (now : Nat) :
    Admission ι × Site β ι :=
  match s.beginCall document args now with
  | (.decided admission, s) => (admission, s)
  | (.waiting tier bound, s) => s.resumeCall tier bound document now

/-- Give the instance of a call back to its pool. -/
def giveBack (s : Site β ι) (tier : Tier) (l : Lease ι) : Site β ι :=
  match s.module.pool? tier with
  | none => s
  | some p => { s with module := s.module.setPool tier (p.release l.member l.poisoned).1 }

def errorText {α : Type} : Except ExecError α → Option String
  | .ok _ => none
  | .error e => some e.message

/-- End a call whose guest gave a result: its context is removed, its instance goes back, and the
call is recorded. -/
def endCall (s : Site β ι) (call : RunningCall ι) (raw : Except ExecError (List Scalar))
    (body : ι) (elapsed : Duration) (now : Nat) : Except ExecError Invocation × Site β ι :=
  let contexts := s.world.host.contexts
  let reads := ((contexts.get? call.context).map Host.CallContext.fieldReads).getD 0
  let host := { s.world.host with contexts := contexts.remove call.context }
  let s := { s with world := { s.world with host := host } }
  let s := s.giveBack call.tier (call.lease.afterCall raw body)
  let result := raw.bind (Descriptor.convertResults s.module.descriptor.returns)
  let stats := s.module.stats.recordExecution call.tier elapsed reads (errorText result) now
  let (_, module, cache) := { s.module with stats := stats }.exit s.cache
  (result.map fun values => ⟨values, call.tier, elapsed⟩,
    { s with module := module, cache := cache })

def invoke (caller : Caller ι) (s : Site β ι) (document : Document) (args : Arguments)
    (elapsed : Duration) (now : Nat) : Except ExecError Invocation × Site β ι :=
  match s.enter document args now with
  | (.refused e, s) => (.error e, s)
  | (.running call, s) =>
      let (host, raw, body) :=
        (caller call.lease.member.body call.arguments).run s.world.host
      { s with world := { s.world with host := host } }.endCall call raw body elapsed now

end Site

end TieredUdf
