import TieredUdf.Engine.Call
import TieredUdf.Engine.Registration
import TieredUdf.Proofs.Attempts
import TieredUdf.Proofs.Engine.Order

/-! # Registrations, removals and calls keep an engine in order

A module that is registered has taken its reference if it has native code, a module that is removed
gives it back, and a call leaves it alone.
-/

namespace TieredUdf

open LoadedModule (Standing)

namespace Engine

variable {β ι : Type} {e f : Engine β ι}

/-! ## Registering -/

theorem insertKey_perm (key : ModuleKey) (n : Nat) (registered : List (ModuleKey × Nat)) :
    (insertKey key n registered).Perm ((key, n) :: registered) := by
  induction registered with
  | nil => exact .refl _
  | cons r rest ih =>
      unfold insertKey
      split
      · exact .refl _
      · exact (ih.cons r).trans (.swap _ _ _)

theorem isRegistered_iff (e : Engine β ι) (key : ModuleKey) :
    e.isRegistered key = true ↔ key ∈ e.registered.map Prod.fst := by
  simp [isRegistered, number?]

theorem standing?_addModule (e : Engine β ι) (m : LoadedModule (World β) ι) (k : Nat) :
    (e.addModule m).standing? k =
      if k = e.modules.length then some m.standing else e.standing? k := by
  unfold standing? addModule
  dsimp only
  split
  · rename_i last
    rw [last, List.getElem?_concat_length]
    rfl
  · rename_i other
    rcases Nat.lt_or_gt_of_ne other with before | after
    · rw [List.getElem?_append_left before]
    · rw [List.getElem?_eq_none (by simp; omega), List.getElem?_eq_none (Nat.le_of_lt after)]

/-- The number that comes next is not in use. -/
theorem Ordered.fresh (h : e.Ordered) :
    e.modules.length ∉ e.numbers ∧ ∀ x ∈ e.jobs, e.modules.length ∉ x.pending := by
  have unknown : e.standing? e.modules.length = none := by simp [standing?]
  refine ⟨fun used => ?_, fun x hx used => ?_⟩
  · obtain ⟨s, known, _⟩ := h.serving _ used
    rw [unknown] at known
    cases known
  · obtain ⟨s, known, _⟩ := h.awaits x hx _ used
    rw [unknown] at known
    cases known

/-- A module whose key is new is registered, and it holds a reference if it has native code. -/
theorem Ordered.addModule (h : e.Ordered) {m : LoadedModule (World β) ι}
    (new : e.isRegistered m.key = false) (serves : m.standing.Serving)
    (books : f.cache.Balanced
      (Cache.more e.natives m.hash (if m.native.isSome then 1 else 0)))
    (registered : f.registered = e.registered) (modules : f.modules = e.modules)
    (jobs : f.jobs = e.jobs) : (f.addModule m).Ordered := by
  obtain ⟨unused, undecided⟩ := h.fresh
  have perm : (f.addModule m).registered.Perm ((m.key, e.modules.length) :: e.registered) := by
    rw [← modules, ← registered]
    exact insertKey_perm _ _ _
  have numbers : (f.addModule m).numbers.Perm (e.modules.length :: e.numbers) := perm.map _
  have standing : ∀ k, (f.addModule m).standing? k =
      if k = e.modules.length then some m.standing else e.standing? k := by
    intro k
    rw [standing?_addModule, standing?_congr modules, modules]
  have keys : m.key ∉ e.registered.map Prod.fst := by
    rw [← isRegistered_iff, new]
    exact Bool.false_ne_true
  refine h.changeOne standing (fun k other => ?_) (Or.inl ⟨numbers.symm.subset (by simp), serves⟩)
    (Or.inr undecided) jobs ((perm.map Prod.fst).nodup_iff.mpr (List.nodup_cons.mpr ⟨keys, h.keys⟩))
    (numbers.nodup_iff.mpr (List.nodup_cons.mpr ⟨unused, h.distinct⟩)) ?_
  · rw [numbers.mem_iff, List.mem_cons, or_iff_right other]
  · have others : ∀ k ∈ e.numbers, (f.addModule m).standing? k = e.standing? k :=
      fun k hk => (standing k).trans (if_neg fun own : k = e.modules.length => unused (own ▸ hk))
    have counts := natives_of_perm numbers ((standing _).trans (if_pos rfl))
    rw [funext (countP_isNative_congr others)] at counts
    rw [counts]
    exact books

theorem Ordered.schedule (h : e.Ordered) {n : Nat} {m : LoadedModule (World β) ι}
    (waits : e.Waits m.hash n) (undecided : ∀ x ∈ e.jobs, n ∉ x.pending) :
    (e.schedule n m).Ordered := by
  unfold Engine.schedule
  split
  · exact h.frame rfl rfl (h.queued.join m.hash undecided) (h.awaits.join waits) h.books
  · rename_i none_open
    have new : ∀ x ∈ e.jobs, x.isOpen → x.hash ≠ m.hash := by
      intro x hx open_x same
      exact none_open (List.any_eq_true.mpr ⟨x, hx, by simp [open_x, same]⟩)
    refine h.frame rfl rfl (h.queued.append new undecided rfl) (h.awaits.append ?_) h.books
    intro k hk
    rw [List.mem_singleton.mp hk]
    exact waits

/-- A module that was loaded for a descriptor, with the reference that it has taken. -/
structure Loads (e : Engine β ι) (d : Descriptor) (m : LoadedModule (World β) ι)
    (f : Engine β ι) : Prop where
  descriptor : m.descriptor = d
  serves : m.standing.Serving
  interpreted : m.mode = .interpreted → m.native = none
  books : f.cache.Balanced (Cache.more e.natives m.hash (if m.native.isSome then 1 else 0))
  registered : f.registered = e.registered
  modules : f.modules = e.modules
  jobs : f.jobs = e.jobs

theorem Ordered.enroll (h : e.Ordered) {d : Descriptor} (new : e.isRegistered d.key = false)
    {m : LoadedModule (World β) ι} (loads : e.Loads d m f) : (f.enroll m).2.Ordered := by
  obtain ⟨rfl, serves, interpreted, books, registered, modules, jobs⟩ := loads
  have waits : m.mode = .interpreted → (f.addModule m.beginCompile.1).Waits m.hash
      f.modules.length := by
    intro mode
    refine ⟨m.standing, ?_, fun _ => ⟨rfl, ?_⟩⟩
    · exact (standing?_addModule _ _ _).trans (if_pos rfl)
    · rw [LoadedModule.standing, interpreted mode]
      rfl
  unfold Engine.enroll
  dsimp only
  split
  · have added : (f.addModule m.beginCompile.1).Ordered :=
      h.addModule (m := m.beginCompile.1) new serves books registered modules jobs
    have counted := added.withCache
      (f := { f.addModule m.beginCompile.1 with
        counters := { f.counters with registrations := f.counters.registrations + 1 } })
      rfl rfl rfl added.books
    split
    · rename_i begun
      -- native code was not there from the start, or no compile would begin
      have mode : m.mode = .interpreted := by
        revert begun
        unfold LoadedModule.beginCompile Mode.beginCompile
        cases m.mode <;> simp
      refine counted.schedule (m := m.beginCompile.1) (waits mode) fun x hx => ?_
      rw [modules]
      exact h.fresh.2 x (jobs ▸ hx)
    · exact counted
  · have added := h.addModule (m := m) new serves books registered modules jobs
    exact added.withCache rfl rfl rfl added.books

/-- What the cache gives: nothing, or a module that has taken its reference. -/
def FromCache (e : Engine β ι) (d : Descriptor) :
    Option (LoadedModule (World β) ι) × Engine β ι → Prop
  | (none, f) => f.cache.Balanced e.natives ∧ f.registered = e.registered ∧
      f.modules = e.modules ∧ f.jobs = e.jobs
  | (some m, f) => e.Loads d m f

theorem Ordered.loadCached (h : e.Ordered) (d : Descriptor) (now : Nat) :
    e.FromCache d (e.loadCached d now) := by
  have looked := (h.books.lookup d.hash).1
  unfold Engine.loadCached
  split
  · exact ⟨h.books, rfl, rfl, rfl⟩
  · rename_i b _
    split
    · rename_i c missed
      rw [missed] at looked
      exact ⟨looked, rfl, rfl, rfl⟩
    · rename_i c a found
      rw [found] at looked
      dsimp only at looked ⊢
      split
      · exact ⟨looked.drops (Cache.drops_invalidate looked.consistent d.hash), rfl, rfl, rfl⟩
      · obtain ⟨balanced, stored, _⟩ := looked.insert d.hash a.bytes a.origin b.name 1 now
        exact ⟨rfl, ⟨rfl, rfl, rfl, stored⟩, nofun, balanced, rfl, rfl, rfl⟩

/-- What loading leads to: an error that changes nothing here, or a module. -/
def FromLoad (e : Engine β ι) (d : Descriptor) :
    Except ValidationError (LoadedModule (World β) ι) × Engine β ι → Prop
  | (.error _, f) => f.Ordered
  | (.ok m, f) => e.Loads d m f

theorem Ordered.load (h : e.Ordered) (d : Descriptor) (now : Nat) :
    e.FromLoad d (e.load d now) := by
  have cached := h.loadCached d now
  unfold Engine.load
  revert cached
  rcases e.loadCached d now with ⟨_ | m, f⟩ <;> intro cached
  · obtain ⟨books, registered, modules, jobs⟩ := cached
    have missed : f.Ordered := h.withCache registered (standing?_congr modules) jobs books
    dsimp only [loadInterpreted]
    split
    · exact missed
    · split
      · exact missed.withCache rfl rfl rfl missed.books
      · refine ⟨rfl, ⟨rfl, rfl, rfl, rfl⟩, fun _ => rfl, ?_, registered, modules, jobs⟩
        change f.cache.Balanced (Cache.more e.natives _ 0)
        rw [Cache.more_zero]
        exact books
  · exact cached

theorem isRegistered_of_check {d : Descriptor} (checked : e.check d = .ok ()) :
    e.isRegistered d.key = false := by
  unfold check at checked
  obtain ⟨_, _, checked⟩ := bind_eq_ok.mp checked
  obtain ⟨_, _, checked⟩ := bind_eq_ok.mp checked
  cases registered : e.isRegistered d.key with
  | false => rfl
  | true =>
      rw [registered] at checked
      cases checked

theorem Ordered.register (h : e.Ordered) (d : Descriptor) (now : Nat) :
    (e.register d now).2.Ordered := by
  unfold Engine.register
  split
  · exact h
  · rename_i checked
    have loaded := h.load d now
    revert loaded
    rcases e.load d now with ⟨error | m, f⟩ <;> intro loaded
    · exact loaded
    · exact h.enroll (isRegistered_of_check checked) loaded

/-! ## Removing -/

theorem mem_registered {key : ModuleKey} {n : Nat} (found : e.number? key = some n) :
    (key, n) ∈ e.registered := by
  obtain ⟨⟨k, n⟩, listed, rfl⟩ := Option.map_eq_some_iff.mp found
  have same : k = key := by simpa using List.find?_some listed
  exact same ▸ List.mem_of_find?_eq_some listed

theorem retire_eq {n : Nat} {m : LoadedModule (World β) ι} (at_n : e.modules[n]? = some m)
    (key : ModuleKey) :
    e.retire key n = { ({ e.removeKey key with
      counters := { e.counters with unregistrations := e.counters.unregistrations + 1 } } :
        Engine β ι).setModule n (m.beginDrain e.cache).2.1 with
      cache := (m.beginDrain e.cache).2.2 } := by
  unfold Engine.retire removeKey
  simp only [at_n]

/-- A module that is removed is torn down at once, and gives its reference back. -/
theorem Ordered.retire (h : e.Ordered) {key : ModuleKey} {n : Nat}
    (found : e.number? key = some n) : (e.retire key n).Ordered := by
  have parts : e.registered.Perm ((key, n) :: (e.removeKey key).registered) :=
    Cache.perm_cons_filter h.keys (mem_registered found)
  have perm : e.numbers.Perm (n :: (e.removeKey key).numbers) := parts.map Prod.snd
  obtain ⟨s, stands, serves⟩ := h.serving n (perm.symm.subset List.mem_cons_self)
  obtain ⟨m, at_n, rfl⟩ := Option.map_eq_some_iff.mp stands
  obtain ⟨after, released⟩ :=
    LoadedModule.beginDrain_standing serves.inFlight serves.finalized e.cache
  obtain ⟨gone, left⟩ := List.nodup_cons.mp (perm.nodup_iff.mp h.distinct)
  have ends := retire_eq at_n key
  have standing : ∀ k, (e.retire key n).standing? k =
      if k = n then some (m.beginDrain e.cache).2.1.standing else e.standing? k := by
    intro k
    rw [ends]
    exact standing?_setModule stands (m.beginDrain e.cache).2.1 k
  have numbers : (e.retire key n).numbers = (e.removeKey key).numbers := by rw [ends]; rfl
  rw [← numbers] at perm gone left
  refine h.changeOne standing (fun k other => ?_) (Or.inr ⟨gone, by rw [after]⟩)
    (Or.inl (by rw [after])) (by rw [ends]; rfl) ?_ left ?_
  · rw [perm.mem_iff, List.mem_cons, or_iff_right other]
  · rw [ends]
    exact h.keys.sublist (List.filter_sublist.map _)
  · have others : ∀ k ∈ (e.retire key n).numbers, (e.retire key n).standing? k = e.standing? k :=
      fun k hk => (standing k).trans (if_neg fun own : k = n => gone (own ▸ hk))
    have before := natives_of_perm perm stands
    rw [← funext (countP_isNative_congr others)] at before
    change e.natives = Cache.more (e.retire key n).natives m.hash
      (if m.native.isSome then 1 else 0) at before
    have cache : (e.retire key n).cache = (m.beginDrain e.cache).2.2 := by rw [ends]
    have holds : m.holdsReference = m.native.isSome := serves.holdsReference
    rw [cache, released, holds]
    cases native : m.native with
    | none =>
        rw [native, Option.isSome_none, if_neg Bool.false_ne_true, Cache.more_zero] at before
        exact before ▸ h.books
    | some p =>
        rw [native, Option.isSome_some, if_pos rfl] at before
        have released := (h.books.release m.hash).1
        rw [before, Cache.fewer_more] at released
        exact released

theorem Ordered.unregister (h : e.Ordered) (key : ModuleKey) : (e.unregister key).2.Ordered := by
  unfold Engine.unregister
  split
  · exact h
  · rename_i found
    exact h.retire found

theorem Ordered.tryUnregister (h : e.Ordered) (key : ModuleKey) :
    (e.tryUnregister key).2.Ordered := by
  unfold Engine.tryUnregister
  split
  · exact h
  · rename_i found
    dsimp only
    split
    · exact h
    · exact h.retire found

/-! ## Calling -/

theorem Ordered.invoke (h : e.Ordered) (caller : Caller ι) (key : ModuleKey)
    (document : Document) (args : Arguments) (elapsed : Text.Duration) (now : Nat) :
    (e.invoke caller key document args elapsed now).2.Ordered := by
  unfold Engine.invoke
  split
  · exact h
  · rename_i n found
    split
    · exact h
    · rename_i s at_site
      obtain ⟨m, at_n, rfl⟩ := Option.map_eq_some_iff.mp at_site
      have stands : e.standing? n = some m.standing :=
        congrArg (Option.map LoadedModule.standing) at_n
      obtain ⟨_, known, serves⟩ :=
        h.serving n (List.mem_map_of_mem (f := Prod.snd) (mem_registered found))
      rw [stands, Option.some.injEq] at known
      subst known
      obtain ⟨same, kept⟩ := Site.invoke_standing caller (s := ⟨m, e.cache, e.world⟩)
        serves.draining document args elapsed now
      refine h.withCache rfl (standing?_restand (stands.trans (congrArg some same.symm))) rfl ?_
      dsimp only [putSite]
      rw [kept]
      exact h.books

end Engine

end TieredUdf
