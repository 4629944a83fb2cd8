import TieredUdf.Engine.Compile
import TieredUdf.Module.Query
import TieredUdf.Module.Version

/-!
# What an engine tells

Lists are in the order of the keys.  The latest version of a module is the greatest one among
those that are semantic versions, or else the one that was registered last.
-/

namespace TieredUdf

structure ModuleInfo where
  descriptor : Descriptor
  mode : Mode
  registeredAt : Nat
  deriving Repr, Inhabited

namespace Engine

variable {β ι : Type}

def registeredModules (e : Engine β ι) : List (LoadedModule (World β) ι) :=
  e.registered.filterMap fun r => e.modules[r.2]?

def info (m : LoadedModule (World β) ι) : ModuleInfo :=
  ⟨m.descriptor, m.mode, m.stats.registeredAt⟩

def query (e : Engine β ι) (q : Query) : List ModuleInfo :=
  (e.registeredModules.filter fun m => q.selects m.descriptor).map info

def list (e : Engine β ι) : List ModuleInfo := e.query ⟨none, none, [], none, none⟩

/-- The greatest item; of several that are equally great, the last one. -/
def lastGreatest? {α : Type} (le : α → α → Bool) : List α → Option α
  | [] => none
  | a :: rest =>
      match lastGreatest? le rest with
      | some b => if le a b then some b else some a
      | none => some a

def latest? (e : Engine β ι) (name : String) : Option ModuleInfo :=
  let candidates := e.query ⟨some name, none, [], none, none⟩
  let versions := candidates.filterMap fun i =>
    (Version.parse? i.descriptor.key.version).map fun v => (v, i)
  match lastGreatest? (fun a b => a.1.le b.1) versions with
  | some (_, i) => some i
  | none => lastGreatest? (fun a b => decide (a.registeredAt ≤ b.registeredAt)) candidates

def report? (e : Engine β ι) (key : ModuleKey) : Option ModuleReport :=
  (e.module? key).map LoadedModule.report

def reports (e : Engine β ι) : List ModuleReport := e.registeredModules.map LoadedModule.report

def descriptor? (e : Engine β ι) (key : ModuleKey) : Option Descriptor :=
  (e.module? key).map LoadedModule.descriptor

def mode? (e : Engine β ι) (key : ModuleKey) : Option Mode :=
  (e.module? key).map LoadedModule.mode

/-- Whether no compile will change the mode of a registered module any more. -/
def isSettled? (e : Engine β ι) (key : ModuleKey) : Option Bool :=
  (e.module? key).map LoadedModule.settled

def size (e : Engine β ι) : Nat := e.registered.length

/-- The number of calls in flight. -/
def activeContexts (e : Engine β ι) : Nat := e.world.host.contexts.size

/-- Evict unreferenced artifacts until at most so many bytes are left; the answer is the number
of bytes freed. -/
def evictCache (e : Engine β ι) (target : Nat) : Nat × Engine β ι :=
  let (cache, freed) := e.cache.evict target
  (freed, { e with cache := cache })

end Engine

end TieredUdf
