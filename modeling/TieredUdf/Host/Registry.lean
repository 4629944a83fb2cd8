import TieredUdf.Document.Basic

/-!
# Contexts of calls in flight

Every call registers what its guest may see under a fresh identifier and removes it when it
ends.  Identifiers count up from 1 and are never used again, so a stale or guessed one finds
nothing or another running call.
-/

namespace TieredUdf.Host

open Numeric (Double)

/-- What an identifier stands for while its call runs. -/
structure CallContext where
  document : Document
  /-- The text parameters of the call, by name. -/
  texts : List (String × String)
  /-- How many field lookups the call has made. -/
  fieldReads : Nat
  deriving Inhabited

namespace CallContext

def ofDocument (document : Document) (texts : List (String × String)) : CallContext :=
  ⟨document, texts, 0⟩

/-- The text parameter of a given name; the first one counts. -/
def text? (c : CallContext) (name : String) : Option String :=
  (c.texts.find? fun t => t.1 == name).map Prod.snd

def countRead (c : CallContext) : CallContext := { c with fieldReads := c.fieldReads + 1 }

end CallContext

/-- The contexts of all calls in flight, by identifier. -/
structure Registry where
  nextId : Nat
  entries : List (Nat × CallContext)
  deriving Inhabited

namespace Registry

def empty : Registry := ⟨1, []⟩

def guestId (id : Nat) : Int64 := .ofNat id

def register (r : Registry) (c : CallContext) : Registry × Nat :=
  (⟨r.nextId + 1, r.entries ++ [(r.nextId, c)]⟩, r.nextId)

def remove (r : Registry) (id : Nat) : Registry :=
  { r with entries := r.entries.filter fun e => e.1 != id }

def get? (r : Registry) (id : Nat) : Option CallContext :=
  (r.entries.find? fun e => e.1 == id).map Prod.snd

/-- The context of an identifier that a guest gives; a negative one finds nothing. -/
def resolve? (r : Registry) (ctx : Int64) : Option CallContext :=
  if ctx.toInt < 0 then none else r.get? ctx.toInt.toNat

def modify (r : Registry) (id : Nat) (f : CallContext → CallContext) : Registry :=
  { r with entries := r.entries.map fun e => if e.1 = id then (e.1, f e.2) else e }

def countRead (r : Registry) (ctx : Int64) : Registry :=
  if ctx.toInt < 0 then r else r.modify ctx.toInt.toNat CallContext.countRead

/-- The number of calls in flight. -/
def size (r : Registry) : Nat := r.entries.length

end Registry

end TieredUdf.Host
