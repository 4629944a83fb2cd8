import TieredUdf.Engine.Basic

/-!
# Calls through an engine

A call finds its module by the key and then goes through the module, whatever happens to the key
meanwhile.
-/

namespace TieredUdf.Engine

open Text (Duration)

variable {β ι : Type}

def beginCall (e : Engine β ι) (number : Nat) (document : Document) (args : Arguments)
    (now : Nat) : CallStage ι × Engine β ι :=
  match e.site? number with
  | none => (.decided (.refused (.instantiation "no such module")), e)
  | some s =>
      let (stage, s) := s.beginCall document args now
      (stage, e.putSite number s)

def resumeCall (e : Engine β ι) (number : Nat) (tier : Tier) (bound : BoundCall)
    (document : Document) (now : Nat) : Admission ι × Engine β ι :=
  match e.site? number with
  | none => (.refused (.instantiation "no such module"), e)
  | some s =>
      let (admission, s) := s.resumeCall tier bound document now
      (admission, e.putSite number s)

def enter (e : Engine β ι) (number : Nat) (document : Document) (args : Arguments) (now : Nat) :
    Admission ι × Engine β ι :=
  match e.beginCall number document args now with
  | (.decided admission, e) => (admission, e)
  | (.waiting tier bound, e) => e.resumeCall number tier bound document now

def runGuest (caller : Caller ι) (e : Engine β ι) (call : RunningCall ι) :
    (Except ExecError (List Scalar) × ι) × Engine β ι :=
  let (host, result) := (caller call.lease.member.body call.arguments).run e.world.host
  (result, { e with world.host := host })

def endCall (e : Engine β ι) (number : Nat) (call : RunningCall ι)
    (raw : Except ExecError (List Scalar)) (body : ι) (elapsed : Duration) (now : Nat) :
    Except ExecError Invocation × Engine β ι :=
  match e.site? number with
  | none => (.error (.instantiation "no such module"), e)
  | some s =>
      let (result, s) := s.endCall call raw body elapsed now
      (result, e.putSite number s)

def invoke (caller : Caller ι) (e : Engine β ι) (key : ModuleKey) (document : Document)
    (args : Arguments) (elapsed : Duration) (now : Nat) :
    Except ExecError Invocation × Engine β ι :=
  match e.number? key with
  | none => (.error (.notFound key), e)
  | some number =>
      match e.site? number with
      | none => (.error (.notFound key), e)
      | some s =>
          let (result, s) := Site.invoke caller s document args elapsed now
          (result, e.putSite number s)

end TieredUdf.Engine
