import TieredUdf.Engine.Registration
import TieredUdf.Proofs.Cache.Storing
import TieredUdf.Proofs.Module.TypedCalls

/-! # Rejected registrations

A registration may be rejected late, when the cache has been asked already.  The main statement
is what is left then: modules, jobs and settings as they were, and a cache that has lost at most
the artifact of the very bytecode that was to be registered.  Nothing tells an artifact that is of
no use from one that is of no use to this descriptor, so one that is not referenced is lost either
way.
-/

namespace TieredUdf

namespace Cache

/-! ## One hash at a time -/

/-- One cache comes from another by lookups of one hash and perhaps by dropping its artifact.  All
other entries stay as they are, in their order and with their files. -/
structure Spares (c d : Cache) (h : ContentHash) : Prop where
  others : without h d.entries = without h c.entries
  files : ∀ e : CacheEntry, e.hash ≠ h → d.read? e = c.read? e
  own : (d.find? h = c.find? h ∧ ∀ e, d.read? e = c.read? e) ∨ d.find? h = none
  consistent : c.Consistent → d.Consistent
  budget : d.budget = c.budget
  stores : d.stores = c.stores
  evictions : d.evictions = c.evictions

variable {c d : Cache} {h k : ContentHash}

theorem Spares.refl (c : Cache) (h : ContentHash) : c.Spares c h :=
  ⟨rfl, fun _ _ => rfl, Or.inl ⟨rfl, fun _ => rfl⟩, id, rfl, rfl, rfl⟩

theorem Spares.trans {e : Cache} (first : c.Spares d h) (second : d.Spares e h) :
    c.Spares e h where
  others := second.others.trans first.others
  files := fun x other => (second.files x other).trans (first.files x other)
  own := by
    rcases second.own with ⟨found, read⟩ | gone
    · refine first.own.imp (fun kept => ?_) found.trans
      exact ⟨found.trans kept.1, fun x => (read x).trans (kept.2 x)⟩
    · exact Or.inr gone
  consistent := fun books => second.consistent (first.consistent books)
  budget := second.budget.trans first.budget
  stores := second.stores.trans first.stores
  evictions := second.evictions.trans first.evictions

/-- The counters of lookups do not matter. -/
theorem Spares.counted (s : c.Spares d h) (hits misses : Nat) :
    c.Spares { d with hits := hits, misses := misses } h :=
  ⟨s.others, s.files, s.own, fun books =>
    ⟨(s.consistent books).distinct, (s.consistent books).total_eq⟩, s.budget, s.stores, s.evictions⟩

theorem Spares.find? (s : c.Spares d h) (other : k ≠ h) : d.find? k = c.find? k := by
  have kept := congrArg (fun entries => entries.find? fun e => e.hash == k) s.others
  simp only [find?_without, if_neg other] at kept
  exact kept

/-- The artifact of another hash is found as before. -/
theorem Spares.lookup (s : c.Spares d h) (other : k ≠ h) : (d.lookup k).2 = (c.lookup k).2 := by
  rw [lookup_artifact, lookup_artifact, s.find? other]
  cases found : c.find? k with
  | none => rfl
  | some e =>
      obtain ⟨_, rfl⟩ := find?_eq_some found
      dsimp only [Option.bind_some]
      rw [s.files e other]

/-- So is that of the hash itself, when its entry is the same. -/
theorem Spares.lookup_own (s : c.Spares d h) (same : d.find? h = c.find? h) :
    (d.lookup h).2 = (c.lookup h).2 := by
  rw [lookup_artifact, lookup_artifact, same]
  rcases s.own with ⟨_, read⟩ | gone
  · rw [funext read]
  · rw [← same, gone]
    rfl

theorem spares_remove (c : Cache) (h : ContentHash) : c.Spares (c.remove h).1 h := by
  refine ⟨?_, fun e other => c.read?_remove other, Or.inr ?_, fun books => (books.remove h).1,
    ?_, ?_, ?_⟩
  · cases found : c.find? h with
    | none => rw [remove_of_missing found]
    | some e =>
        rw [remove_of_found found]
        simp [without]
  · rw [find?_remove, if_pos rfl]
  all_goals
    unfold remove
    split <;> rfl

theorem spares_put {e : CacheEntry} (found : c.find? h = some e) : c.Spares (c.put e) h := by
  obtain ⟨he, rfl⟩ := find?_eq_some found
  refine ⟨?_, fun _ _ => rfl, Or.inl ⟨?_, fun _ => rfl⟩, fun books => books.put he rfl,
    rfl, rfl, rfl⟩
  · simp [put, without]
  · rw [find?_put, if_pos rfl, found]

/-- Looking a hash up drops at most its own entry, and that only if it cannot be read. -/
theorem spares_lookup (c : Cache) (h : ContentHash) :
    c.Spares (c.lookup h).1 h ∧
      ((c.lookup h).2.isSome → (c.lookup h).1.find? h = c.find? h) ∧
      ((c.lookup h).2 = none → (c.lookup h).1.find? h = none) := by
  unfold lookup
  cases found : c.find? h with
  | none => exact ⟨(Spares.refl c h).counted _ _, nofun, fun _ => found⟩
  | some e =>
      dsimp only
      cases c.read? e with
      | some bytes =>
          refine ⟨(spares_put found).counted _ _, fun _ => ?_, nofun⟩
          obtain ⟨_, rfl⟩ := find?_eq_some found
          exact (find?_put c e e.hash).trans (if_pos rfl)
      | none =>
          refine ⟨(spares_remove c h).counted _ _, nofun, fun _ => ?_⟩
          exact (find?_remove c h h).trans (if_pos rfl)

theorem spares_invalidate (c : Cache) (h : ContentHash) : c.Spares (c.invalidate h).1 h := by
  unfold invalidate
  split
  · split
    · exact spares_remove c h
    · exact .refl c h
  · exact .refl c h

/-- An artifact is dropped exactly when nothing refers to it. -/
theorem find?_invalidate (c : Cache) (h : ContentHash) :
    (c.invalidate h).1.find? h = if c.refcount h = 0 then none else c.find? h := by
  unfold invalidate
  cases found : c.find? h with
  | none => simp [found]
  | some e =>
      have same : c.refcount h = e.refcount := by simp [refcount, found]
      rw [same]
      dsimp only
      split
      · exact (find?_remove c h h).trans (if_pos rfl)
      · exact found

end Cache

namespace Engine

variable {β ι : Type} {e after : Engine β ι} {d : Descriptor}

/-! ## Registrations -/

/-- Whether the artifact of some bytecode goes when no native code can be made for a descriptor: it
cannot be read, or nothing refers to it. -/
def GivesUp (e : Engine β ι) (d : Descriptor) : Prop :=
  e.backend.isSome ∧ ((e.cache.lookup d.hash).2 = none ∨ e.cache.refcount d.hash = 0)

/-- What is left of an engine that has found no native code for a descriptor. -/
structure Misses (e : Engine β ι) (d : Descriptor) (after : Engine β ι) : Prop where
  frame : after = { e with
    cache := after.cache
    world := after.world
    counters := { e.counters with cacheMisses := after.counters.cacheMisses } }
  spares : e.cache.Spares after.cache d.hash
  lost : e.GivesUp d → after.cache.find? d.hash = none
  kept : ¬ e.GivesUp d → after.cache.find? d.hash = e.cache.find? d.hash

theorem Misses.withWorld (m : e.Misses d after) (world : World β) :
    e.Misses d { after with world := world } :=
  ⟨congrArg (fun x : Engine β ι => { x with world := world }) m.frame, m.spares, m.lost, m.kept⟩

theorem loadCached_misses {now : Nat} (missed : e.loadCached d now = (none, after)) :
    e.Misses d after := by
  unfold loadCached at missed
  split at missed
  · rename_i backend
    cases missed
    refine ⟨rfl, .refl _ _, fun given => ?_, fun _ => rfl⟩
    rw [GivesUp, backend] at given
    cases given.1
  · rename_i b backend
    have asked : e.backend.isSome := by rw [backend]; rfl
    obtain ⟨spares, kept, dropped⟩ := e.cache.spares_lookup d.hash
    split at missed
    · rename_i c looked
      rw [looked] at spares dropped
      cases missed
      exact ⟨rfl, spares, fun _ => dropped rfl,
        fun stays => absurd ⟨asked, Or.inl (congrArg Prod.snd looked)⟩ stays⟩
    · rename_i c a looked
      rw [looked] at spares kept
      have same := kept rfl
      have readable : (e.cache.lookup d.hash).2 ≠ none := by
        rw [looked]
        nofun
      dsimp only at missed
      split at missed
      · cases missed
        -- the lookup has found the artifact, so that it still has its references
        have own := c.find?_invalidate d.hash
        have held : c.refcount d.hash = e.cache.refcount d.hash := by
          rw [Cache.refcount, same, Cache.refcount]
        rw [held] at own
        refine ⟨rfl, spares.trans (c.spares_invalidate d.hash), fun given => ?_, fun stays => ?_⟩
        · exact own.trans (if_pos (given.2.resolve_left readable))
        · have referenced : ¬ e.cache.refcount d.hash = 0 := fun unreferenced =>
            stays ⟨asked, Or.inr unreferenced⟩
          exact own.trans ((if_neg referenced).trans same)
      · cases missed

/-- A module cannot be loaded only when no native code was found for it. -/
theorem load_misses {now : Nat} {error : ValidationError}
    (failed : e.load d now = (.error error, after)) : e.Misses d after := by
  unfold load at failed
  split at failed
  · cases failed
  · rename_i missed
    have misses := loadCached_misses missed
    dsimp only [loadInterpreted] at failed
    split at failed
    · cases failed
      exact misses
    · split at failed <;> cases failed
      exact misses.withWorld _

theorem register_misses {now : Nat} {error : ValidationError}
    (rejected : (e.register d now).1 = .error error) :
    (e.check d = .error error ∧ (e.register d now).2 = e) ∨
      (e.check d = .ok () ∧ e.Misses d (e.register d now).2) := by
  have ended : e.register d now = (.error error, (e.register d now).2) := Prod.ext rejected rfl
  generalize (e.register d now).2 = after at ended
  unfold register at ended
  split at ended
  · rename_i refused
    cases ended
    exact Or.inl ⟨refused, rfl⟩
  · rename_i checked
    split at ended
    · rename_i failed
      cases ended
      exact Or.inr ⟨checked, load_misses failed⟩
    · cases ended

/-- Whether the artifact of its bytecode is lost when a descriptor is rejected. -/
def Loses (e : Engine β ι) (d : Descriptor) : Prop := e.check d = .ok () ∧ e.GivesUp d

/-- What is seen of the entries is the same as before, unless the loss of the one entry is seen. -/
theorem forall_entry_iff {α : Type} (see : Option CacheEntry → α)
    (lost : e.Loses d → after.cache.find? d.hash = none)
    (kept : ∀ h, h ≠ d.hash ∨ ¬ e.Loses d → after.cache.find? h = e.cache.find? h) :
    (∀ h, see (after.cache.find? h) = see (e.cache.find? h)) ↔
      (e.Loses d → see none = see (e.cache.find? d.hash)) := by
  constructor
  · intro same loses
    rw [← same d.hash, lost loses]
  · intro harmless h
    by_cases stays : h ≠ d.hash ∨ ¬ e.Loses d
    · rw [kept h stays]
    · obtain ⟨own, loses⟩ := not_or.mp stays
      rw [not_not.mp own, lost (not_not.mp loses)]
      exact harmless (not_not.mp loses)

/-- A registration that is rejected changes no module, no job and no setting, and no artifact of
other bytecode.  The checks change nothing at all.  When it fails after them, the artifact of the
same bytecode is lost exactly when it cannot be read or is not referenced, whatever it was that kept
this descriptor from using it.  The cache has the same artifacts and the same references as before
if and only if nothing is lost in this way. -/
theorem register_rejected {now : Nat} {error : ValidationError}
    (rejected : (e.register d now).1 = .error error) :
    let after := (e.register d now).2
    after = { e with
      cache := after.cache
      world := after.world
      counters := { e.counters with cacheMisses := after.counters.cacheMisses } } ∧
    (∀ refusal, e.check d = .error refusal → after = e) ∧
    e.cache.Spares after.cache d.hash ∧
    (e.Loses d → after.cache.find? d.hash = none) ∧
    (∀ h, h ≠ d.hash ∨ ¬ e.Loses d →
      after.cache.find? h = e.cache.find? h ∧ (after.cache.lookup h).2 = (e.cache.lookup h).2) ∧
    ((∀ h, after.cache.contains h = e.cache.contains h) ↔
      (e.Loses d → e.cache.contains d.hash = false)) ∧
    ((∀ h, after.cache.refcount h = e.cache.refcount h) ↔
      (e.Loses d → e.cache.refcount d.hash = 0)) := by
  intro after
  obtain ⟨frame, checks, spares, lost, kept⟩ : after = { e with
      cache := after.cache
      world := after.world
      counters := { e.counters with cacheMisses := after.counters.cacheMisses } } ∧
      (∀ refusal, e.check d = .error refusal → after = e) ∧ e.cache.Spares after.cache d.hash ∧
      (e.Loses d → after.cache.find? d.hash = none) ∧
      ∀ h, h ≠ d.hash ∨ ¬ e.Loses d → after.cache.find? h = e.cache.find? h := by
    rcases register_misses rejected with ⟨refused, same⟩ | ⟨checked, misses⟩
    · dsimp only [after]
      rw [same]
      refine ⟨rfl, fun _ _ => rfl, .refl _ _, fun loses => ?_, fun _ _ => rfl⟩
      cases refused.symm.trans loses.1
    · refine ⟨misses.frame, fun _ refused => ?_, misses.spares, fun loses => misses.lost loses.2,
        fun h stays => ?_⟩
      · cases checked.symm.trans refused
      · by_cases own : h = d.hash
        · subst own
          exact misses.kept fun given =>
            stays.elim (fun other => other rfl) fun stays => stays ⟨checked, given⟩
        · exact misses.spares.find? own
  refine ⟨frame, checks, spares, lost, fun h stays => ⟨kept h stays, ?_⟩, ?_, ?_⟩
  · by_cases own : h = d.hash
    · subst own
      exact spares.lookup_own (kept _ stays)
    · exact spares.lookup own
  · exact (forall_entry_iff Option.isSome lost kept).trans (forall_congr' fun _ => eq_comm)
  · exact (forall_entry_iff (fun e => (e.map CacheEntry.refcount).getD 0) lost kept).trans
      (forall_congr' fun _ => eq_comm)

/-! ## A start function that runs out of fuel -/

/-- Instances that need ten units of fuel to start. -/
def starting (spec : InstanceSpec) : Factory (World Unit) Unit := fun w =>
  (if spec.fuel.all (10 ≤ ·) then .ok () else .error (.trap .outOfFuel "start"), w)

def stocked (references : Nat) : Engine Unit Unit :=
  ⟨.defaults none 1, fun _ spec => .ok (starting spec),
    some ⟨"test", fun bytecode w => (.ok bytecode, w), fun _ spec w => (.ok (starting spec), w)⟩,
    [], [], [], .zero,
    (Cache.inMemory 8).add (.ofBytes Descriptor.boost.hash [0] "boost@0" "test" 0) (some [0])
      references, ⟨.empty, ()⟩⟩

/-- The module with a limit of its own that is too small for its start function. -/
def starved : Descriptor :=
  { Descriptor.boost with limits := { Descriptor.boost.limits with fuel := some 5 } }

theorem stocked_found (references : Nat) :
    (stocked references).cache.find? starved.hash =
      some ⟨.ofBytes Descriptor.boost.hash [0] "boost@0" "test" 0, references, some [0]⟩ :=
  (Cache.find?_add _ _ _ _ _).trans (if_pos rfl)

/-- Where the artifact is referenced, the rejection changes no entry. -/
theorem register_rejected_referenced :
    ((stocked 1).register starved 0).1 =
      .error (.interpreter (ExecError.trap .outOfFuel "start").message) ∧
    ∀ h, ((stocked 1).register starved 0).2.cache.contains h = (stocked 1).cache.contains h := by
  have rejected : ((stocked 1).register starved 0).1 =
      .error (.interpreter (ExecError.trap .outOfFuel "start").message) := by
    decide +kernel
  obtain ⟨_, _, _, _, _, artifacts, _⟩ := register_rejected rejected
  refine ⟨rejected, artifacts.mpr fun loses => ?_⟩
  rcases loses.2.2 with unreadable | unreferenced
  · simp [Cache.lookup_artifact, stocked_found, Cache.read?] at unreadable
  · simp [Cache.refcount, stocked_found] at unreferenced

/-- Where it is not referenced, the rejection takes a sound artifact away, from which a module of
the same bytecode would have been native at once. -/
theorem register_rejected_starves :
    starved.bytecode = Descriptor.boost.bytecode ∧
    ((stocked 0).register Descriptor.boost 0).1 = .ok .native ∧
    ((stocked 0).register starved 0).1 =
      .error (.interpreter (ExecError.trap .outOfFuel "start").message) ∧
    (stocked 0).cache.contains starved.hash = true ∧
    ((stocked 0).register starved 0).2.cache.contains starved.hash = false := by
  have starves : (((stocked 0).register starved 0).1,
      ((stocked 0).register starved 0).2.cache.contains starved.hash) =
        (.error (.interpreter (ExecError.trap .outOfFuel "start").message), false) := by
    decide +kernel
  obtain ⟨rejected, lost⟩ := Prod.mk.inj starves
  exact ⟨rfl, by decide +kernel, rejected, Cache.contains_of_find? (stocked_found 0), lost⟩

end Engine

end TieredUdf
