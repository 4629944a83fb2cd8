import TieredUdf.Host.Call

/-!
# Dialogues of guest and host

Running a guest is a dialogue: it calls host functions one after the other, each time handing
over its memory, and ends with a result.  What the guest does next may depend on every answer.
-/

namespace TieredUdf.Guest

/-- A guest that runs until it has a result. -/
inductive Dialogue (α : Type) where
  | done (result : α)
  /-- Call a host function; go on with the memory it leaves and its results. -/
  | ask (call : Host.Call) (memory : Option Memory)
      (resume : Option Memory → List Scalar → Dialogue α)

namespace Dialogue

/-- Let the host answer every call. -/
def run {α : Type} (host : Host.State) : Dialogue α → Host.State × α
  | .done result => (host, result)
  | .ask call memory resume =>
      let effect := host.perform memory call
      (resume effect.memory effect.results).run effect.state

def map {α β : Type} (f : α → β) : Dialogue α → Dialogue β
  | .done result => .done (f result)
  | .ask call memory resume => .ask call memory fun m results => (resume m results).map f

end Dialogue

end TieredUdf.Guest
