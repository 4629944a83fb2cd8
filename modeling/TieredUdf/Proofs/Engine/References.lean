import TieredUdf.Proofs.Cache.LedgerRun
import TieredUdf.Proofs.Engine.JobOrder
import TieredUdf.Proofs.Engine.ModuleOrder
import TieredUdf.Proofs.Module.TypedCalls

/-! # The references of an engine

An engine takes a reference to an artifact when a module gets native code, from the cache or from
a job, and gives it back when the module is torn down.  The main statement is that after every
step the references to an artifact are exactly the registered modules that run it.
-/

namespace TieredUdf

open LoadedModule (Standing)

namespace Engine

variable {β ι : Type} {e f : Engine β ι}

/-! ## Runs -/

/-- What is done with an engine, and what its jobs do, between calls. -/
inductive Action (ι : Type) where
  | register (d : Descriptor) (now : Nat)
  | unregister (key : ModuleKey)
  | tryUnregister (key : ModuleKey)
  | invoke (caller : Caller ι) (key : ModuleKey) (document : Document) (args : Arguments)
      (elapsed : Text.Duration) (now : Nat)
  | evictCache (target : Nat)
  /-- The next step of the job at some place. -/
  | stepJob (i now : Nat)

def act (e : Engine β ι) : Action ι → Engine β ι
  | .register d now => (e.register d now).2
  | .unregister key => (e.unregister key).2
  | .tryUnregister key => (e.tryUnregister key).2
  | .invoke caller key document args elapsed now =>
      (e.invoke caller key document args elapsed now).2
  | .evictCache target => (e.evictCache target).2
  | .stepJob i now => e.stepJob i now

def actAll (e : Engine β ι) (actions : List (Action ι)) : Engine β ι := actions.foldl act e

theorem Ordered.act (h : e.Ordered) (a : Action ι) : (e.act a).Ordered := by
  cases a with
  | register d now => exact h.register d now
  | unregister key => exact h.unregister key
  | tryUnregister key => exact h.tryUnregister key
  | invoke caller key document args elapsed now =>
      exact h.invoke caller key document args elapsed now
  | evictCache target => exact h.evictCache target
  | stepJob i now => exact h.stepJob i now

theorem Ordered.actAll (h : e.Ordered) (actions : List (Action ι)) :
    (e.actAll actions).Ordered := by
  induction actions generalizing e with
  | nil => exact h
  | cons a actions ih => exact ih (h.act a)

/-- A new engine is in order when nobody holds a reference to its cache. -/
theorem ordered_new {config : Config} {interpreter : Interpreter (World β) ι}
    {backend : Option (Backend (World β) ι)} {cache : Cache} {world : World β}
    (books : cache.Balanced fun _ => 0)
    (made : Engine.new config interpreter backend cache world = .ok e) : e.Ordered := by
  obtain ⟨_, _, made⟩ := bind_eq_ok.mp made
  cases made
  exact ⟨List.nodup_nil, List.nodup_nil, nofun, nofun, .nil, nofun, books⟩

/-! ## References -/

/-- The artifact of a registered module with native code stays where it is. -/
theorem Ordered.kept (h : e.Ordered) {m : LoadedModule (World β) ι} (mem : m ∈ e.registeredModules)
    (native : m.native.isSome) (target : Nat) :
    ∃ artifact, e.cache.find? m.hash = some artifact ∧
      (e.evictCache target).2.cache.find? m.hash = some artifact := by
  have counted : 0 < e.natives m.hash := by
    rw [natives_eq]
    exact List.length_pos_of_mem (List.mem_filter.mpr ⟨mem, by simp [native]⟩)
  have referenced : 0 < e.cache.refcount m.hash := by
    rw [h.books.refcount_eq]
    exact counted
  obtain ⟨artifact, found⟩ := Cache.found_of_refcount referenced
  rw [Cache.refcount_of_found found] at referenced
  exact ⟨artifact, found,
    (Cache.drops_evict h.books.consistent target).find?_referenced found referenced⟩

theorem registered_unregister (e : Engine β ι) (key : ModuleKey) :
    (e.unregister key).2.registered = e.registered.filter fun r => r.1 != key := by
  unfold unregister
  split
  · rename_i missing
    have absent : ∀ r ∈ e.registered, r.1 ≠ key := by simpa [number?] using missing
    refine (List.filter_eq_self.mpr fun r hr => ?_).symm
    simpa using absent r hr
  · unfold retire
    dsimp only
    split <;> rfl

theorem registered_unregisterAll (e : Engine β ι) (keys : List ModuleKey) :
    (e.actAll (keys.map .unregister)).registered =
      e.registered.filter fun r => !keys.contains r.1 := by
  induction keys generalizing e with
  | nil => simp [actAll]
  | cons key keys ih =>
      refine (ih (e.unregister key).2).trans ?_
      rw [registered_unregister, List.filter_filter]
      refine List.filter_congr fun r _ => ?_
      by_cases own : r.1 = key <;> simp [own]

/-- An engine whose cache is in memory and referred to by nobody else has, after any sequence of
registrations, removals, calls, evictions and steps of jobs, exactly as many references to each
artifact as registered modules that run it.  So no eviction drops the artifact of such a module,
and no reference is left when everything has been removed. -/
theorem actAll_references {config : Config} {interpreter : Interpreter (World β) ι}
    {backend : Option (Backend (World β) ι)} {world : World β} {budget : Nat}
    {earlier : List Ledger.Action} (unused : ((Ledger.fresh budget).run earlier).held = [])
    (made : Engine.new config interpreter backend ((Ledger.fresh budget).run earlier).cache world =
      .ok e)
    (actions : List (Action ι)) :
    let after := e.actAll actions
    (∀ h, after.cache.refcount h =
      (after.registeredModules.filter fun m => m.hash == h && m.native.isSome).length) ∧
    (∀ target, ∀ m ∈ after.registeredModules, m.native.isSome →
      ∃ artifact, after.cache.find? m.hash = some artifact ∧
        (after.evictCache target).2.cache.find? m.hash = some artifact) ∧
    (after.actAll (after.registered.map fun r => .unregister r.1)).registered = [] ∧
    ∀ h, (after.actAll (after.registered.map fun r => .unregister r.1)).cache.refcount h = 0 := by
  intro after
  have fresh : (Ledger.fresh budget).Balanced := Cache.balanced_inMemory budget
  have unreferenced : ((Ledger.fresh budget).run earlier).references = fun _ => 0 := by
    funext h
    rw [Ledger.references, unused]
    rfl
  have start : ((Ledger.fresh budget).run earlier).cache.Balanced fun _ => 0 :=
    unreferenced ▸ (fresh.run earlier).1
  have ordered : after.Ordered := (ordered_new start made).actAll actions
  have emptied := ordered.actAll (after.registered.map fun r => .unregister r.1)
  have empty : (after.actAll (after.registered.map fun r => .unregister r.1)).registered = [] := by
    have removed := after.registered_unregisterAll (after.registered.map Prod.fst)
    rw [List.map_map] at removed
    refine removed.trans (List.filter_eq_nil_iff.mpr fun r hr => ?_)
    simpa using ⟨r.2, hr⟩
  refine ⟨fun h => ?_, fun target m mem native => ordered.kept mem native target, empty,
    fun h => ?_⟩
  · rw [ordered.books.refcount_eq, natives_eq]
  · rw [emptied.books.refcount_eq, natives, numbers, empty]
    rfl

/-! ## Two modules with the same bytecode -/

def compiling : Backend (World Unit) Unit :=
  ⟨"test", fun bytecode w => (.ok bytecode, w), fun _ _ w => (.ok fun w => (.ok (), w), w)⟩

def earlier : List Ledger.Action :=
  [.storeAndAcquire ⟨[1]⟩ [0] "old@1" "test" 0, .release ⟨[1]⟩]

def unloaded : Engine Unit Unit :=
  ⟨.defaults none 1, fun _ _ => .ok fun w => (.ok (), w), some compiling, [], [], [], .zero,
    ((Ledger.fresh 4).run earlier).cache, ⟨.empty, ()⟩⟩

def twoVersions : List (Action Unit) :=
  [.register Descriptor.boost 0] ++ List.replicate 6 (.stepJob 0 1) ++
    [.register { Descriptor.boost with key := ⟨"boost", "2"⟩ } 2, .evictCache 0]

theorem actAll_references_twoVersions :
    ((Ledger.fresh 4).run earlier).held = [] ∧
    Engine.new (.defaults none 1) unloaded.interpreter (some compiling)
      ((Ledger.fresh 4).run earlier).cache ⟨.empty, ()⟩ = .ok unloaded ∧
    (unloaded.actAll twoVersions).cache.refcount Descriptor.boost.hash = 2 ∧
    ∀ h, ((unloaded.actAll twoVersions).actAll
      ((unloaded.actAll twoVersions).registered.map fun r => .unregister r.1)).cache.refcount h =
        0 := by
  have unused : ((Ledger.fresh 4).run earlier).held = [] := by decide +kernel
  have made : Engine.new (.defaults none 1) unloaded.interpreter (some compiling)
      ((Ledger.fresh 4).run earlier).cache ⟨.empty, ()⟩ = .ok unloaded := rfl
  obtain ⟨_, _, _, emptied⟩ := actAll_references unused made twoVersions
  exact ⟨unused, made, by decide +kernel, emptied⟩

end Engine

end TieredUdf
