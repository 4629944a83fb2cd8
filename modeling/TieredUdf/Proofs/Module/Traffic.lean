import TieredUdf.Proofs.Module.Entering

/-! # Traffic through a loaded module

The calls of one module in any order: each begins, may wait for an instance, runs and ends, and
between two of these steps other calls take theirs, native code is installed, the module drains,
or other modules change what all of them share.
-/

namespace TieredUdf

open Text (Duration)

structure WaitingCall where
  tier : Tier
  bound : BoundCall
  document : Document

/-- A loaded module with the calls on their way and the results of those that are over, the last
one first. -/
structure Traffic (β ι : Type) where
  site : Site β ι
  waiting : List WaitingCall
  running : List (RunningCall ι)
  results : List (Except ExecError Invocation)

namespace Traffic

variable {β ι : Type}

/-- A step of a call, or something else that happens to a module. -/
inductive Event (β ι : Type) where
  | begin (document : Document) (args : Arguments) (now : Nat)
  /-- Take up a call that waits. -/
  | resume (number now : Nat)
  /-- Run the guest of a call and end the call. -/
  | finish (number : Nat) (elapsed : Duration) (now : Nat)
  | install (p : Pool (World β) ι) (reference : Bool)
  | drain
  /-- Others use the cache, the host and what is outside. -/
  | elsewhere (cache : Cache) (world : World β)

def ofSite (s : Site β ι) : Traffic β ι := ⟨s, [], [], []⟩

/-- A call is admitted, or it is over. -/
def admitted (t : Traffic β ι) : Admission ι × Site β ι → Traffic β ι
  | (.refused e, s) => { t with site := s, results := .error e :: t.results }
  | (.running call, s) => { t with site := s, running := t.running ++ [call] }

/-- One event.  A call that is not there takes no step. -/
def step (caller : Caller ι) (t : Traffic β ι) : Event β ι → Traffic β ι
  | .begin document args now =>
      match t.site.beginCall document args now with
      | (.decided admission, s) => t.admitted (admission, s)
      | (.waiting tier bound, s) =>
          { t with site := s, waiting := t.waiting ++ [⟨tier, bound, document⟩] }
  | .resume number now =>
      match t.waiting[number]? with
      | none => t
      | some w =>
          { t with waiting := t.waiting.eraseIdx number }.admitted
            (t.site.resumeCall w.tier w.bound w.document now)
  | .finish number elapsed now =>
      match t.running[number]? with
      | none => t
      | some call =>
          let ended := t.site.finish caller call elapsed now
          { t with
            site := ended.2
            running := t.running.eraseIdx number
            results := ended.1 :: t.results }
  | .install p reference =>
      let installed := t.site.module.installNative p reference t.site.cache
      { t with site := { t.site with module := installed.2.1, cache := installed.2.2 } }
  | .drain =>
      let drained := t.site.module.beginDrain t.site.cache
      { t with site := { t.site with module := drained.2.1, cache := drained.2.2 } }
  | .elsewhere cache world => { t with site := { t.site with cache := cache, world := world } }

def run (caller : Caller ι) (t : Traffic β ι) (events : List (Event β ι)) : Traffic β ι :=
  events.foldl (step caller) t

end Traffic

end TieredUdf
