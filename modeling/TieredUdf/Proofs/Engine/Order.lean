import TieredUdf.Engine.Query
import TieredUdf.Proofs.Cache.Balance
import TieredUdf.Proofs.Engine.Jobs
import TieredUdf.Proofs.Module.Standing

/-! # An engine in order

Between calls the modules, the jobs and the cache of an engine agree with one another: a registered
module holds a reference exactly when it has native code, a module that was removed is torn down,
and whoever waits for a job has no native code yet.  All of this is told from where the modules
stand, so a step that leaves them there has nothing to show but its jobs and its cache.
-/

namespace TieredUdf

open LoadedModule (Standing)

variable {β ι : Type}

/-- A registered module between calls holds a reference exactly when it has native code. -/
structure LoadedModule.Standing.Serving (s : Standing) : Prop where
  draining : s.draining = false
  finalized : s.finalized = false
  inFlight : s.inFlight = 0
  holdsReference : s.holdsReference = s.native

namespace Engine

/-! ## The table of modules -/

/-- Where the module of a number stands. -/
def standing? (e : Engine β ι) (n : Nat) : Option Standing :=
  (e.modules[n]?).map LoadedModule.standing

def numbers (e : Engine β ι) : List Nat := e.registered.map Prod.snd

def isNative (e : Engine β ι) (h : ContentHash) (n : Nat) : Bool :=
  (e.standing? n).any fun s => s.hash == h && s.native

def natives (e : Engine β ι) (h : ContentHash) : Nat := e.numbers.countP (e.isNative h)

/-- A module that waits for a job has the bytecode of the job and no native code yet, unless it
has been torn down. -/
def Waits (e : Engine β ι) (h : ContentHash) (n : Nat) : Prop :=
  ∃ s, e.standing? n = some s ∧ (s.finalized = false → s.hash = h ∧ s.native = false)

/-- An engine that serves no call has its modules, its jobs and its cache in order. -/
structure Ordered (e : Engine β ι) : Prop where
  keys : (e.registered.map Prod.fst).Nodup
  distinct : e.numbers.Nodup
  serving : ∀ n ∈ e.numbers, ∃ s, e.standing? n = some s ∧ s.Serving
  retired : ∀ n s, e.standing? n = some s → n ∉ e.numbers → s.finalized = true
  queued : Queued e.jobs
  awaits : Awaits e.Waits e.jobs
  books : e.cache.Balanced e.natives

variable {e f : Engine β ι}

/-! ## Counting native modules -/

theorem countP_isNative_congr {numbers : List Nat}
    (same : ∀ n ∈ numbers, f.standing? n = e.standing? n) (h : ContentHash) :
    numbers.countP (f.isNative h) = numbers.countP (e.isNative h) := by
  refine List.countP_congr fun n hn => ?_
  rw [isNative, same n hn, isNative]

/-- One registered module and the others. -/
theorem natives_of_perm {others : List Nat} {n : Nat} (perm : e.numbers.Perm (n :: others))
    {s : Standing} (stands : e.standing? n = some s) :
    e.natives = Cache.more (fun h => others.countP (e.isNative h)) s.hash
      (if s.native then 1 else 0) := by
  funext h
  have own : e.isNative h n = (s.hash == h && s.native) := by simp [isNative, stands]
  rw [natives, perm.countP_eq, List.countP_cons, own, Cache.more]
  by_cases mine : h = s.hash
  · cases s.native <;> simp [mine]
  · have other : (s.hash == h) = false := beq_eq_false_iff_ne.mpr (Ne.symm mine)
    simp [mine, other]

theorem natives_eq (e : Engine β ι) (h : ContentHash) :
    e.natives h = (e.registeredModules.filter fun m => m.hash == h && m.native.isSome).length := by
  rw [← List.countP_eq_length_filter, registeredModules, List.countP_filterMap, natives, numbers,
    List.countP_map]
  refine List.countP_congr fun r _ => ?_
  unfold isNative standing?
  dsimp only [Function.comp_apply]
  cases e.modules[r.2]? <;> rfl

/-! ## Changes of the table -/

theorem standing?_congr (modules : f.modules = e.modules) : f.standing? = e.standing? := by
  funext n
  rw [standing?, modules, standing?]

theorem standing?_setModule {n : Nat} {s : Standing} (stands : e.standing? n = some s)
    (m : LoadedModule (World β) ι) (k : Nat) :
    (e.setModule n m).standing? k = if k = n then some m.standing else e.standing? k := by
  obtain ⟨before, at_n, _⟩ := Option.map_eq_some_iff.mp stands
  obtain ⟨small, _⟩ := List.getElem?_eq_some_iff.mp at_n
  unfold standing? setModule
  dsimp only
  by_cases own : k = n
  · subst own
    rw [List.getElem?_set_self small, if_pos rfl]
    rfl
  · rw [List.getElem?_set_ne (Ne.symm own), if_neg own]

/-- Nothing changes that matters here when a module stays where it stands. -/
theorem standing?_restand {n : Nat} {m : LoadedModule (World β) ι}
    (stands : e.standing? n = some m.standing) : (e.setModule n m).standing? = e.standing? := by
  funext k
  rw [standing?_setModule stands]
  split
  · rename_i own
    rw [own, stands]
  · rfl

/-- Steps that neither register nor change where a module stands. -/
theorem Ordered.frame (h : e.Ordered) (registered : f.registered = e.registered)
    (standing : f.standing? = e.standing?) (queued : Queued f.jobs) (awaits : Awaits e.Waits f.jobs)
    (books : f.cache.Balanced e.natives) : f.Ordered := by
  have numbers : f.numbers = e.numbers := congrArg (List.map Prod.snd) registered
  have waits : f.Waits = e.Waits := by
    unfold Waits
    rw [standing]
  have natives : f.natives = e.natives := by
    unfold Engine.natives isNative
    rw [numbers, standing]
  constructor
  · rw [registered]
    exact h.keys
  · rw [numbers]
    exact h.distinct
  · rw [numbers, standing]
    exact h.serving
  · rw [numbers, standing]
    exact h.retired
  · exact queued
  · rw [waits]
    exact awaits
  · rw [natives]
    exact books

/-- Steps that change no more than the cache. -/
theorem Ordered.withCache (h : e.Ordered) (registered : f.registered = e.registered)
    (standing : f.standing? = e.standing?) (jobs : f.jobs = e.jobs)
    (books : f.cache.Balanced e.natives) : f.Ordered :=
  h.frame registered standing (jobs ▸ h.queued) (jobs ▸ h.awaits) books

/-- One module comes to stand somewhere else, perhaps as it is registered or removed. -/
theorem Ordered.changeOne (h : e.Ordered) {n : Nat} {s : Standing}
    (table : ∀ k, f.standing? k = if k = n then some s else e.standing? k)
    (listed : ∀ k, k ≠ n → (k ∈ f.numbers ↔ k ∈ e.numbers))
    (stands : (n ∈ f.numbers ∧ s.Serving) ∨ (n ∉ f.numbers ∧ s.finalized = true))
    (decided : s.finalized = true ∨ ∀ x ∈ e.jobs, n ∉ x.pending) (jobs : f.jobs = e.jobs)
    (keys : (f.registered.map Prod.fst).Nodup) (distinct : f.numbers.Nodup)
    (books : f.cache.Balanced f.natives) : f.Ordered := by
  have own : f.standing? n = some s := (table n).trans (if_pos rfl)
  have others : ∀ k, k ≠ n → f.standing? k = e.standing? k :=
    fun k other => (table k).trans (if_neg other)
  refine ⟨keys, distinct, fun k hk => ?_, fun k t at_k unregistered => ?_, jobs ▸ h.queued, ?_,
    books⟩
  · by_cases same : k = n
    · subst same
      exact ⟨s, own, (stands.resolve_right fun gone => gone.1 hk).2⟩
    · rw [others k same]
      exact h.serving k ((listed k same).mp hk)
  · by_cases same : k = n
    · subst same
      rw [own, Option.some.injEq] at at_k
      exact at_k ▸ (stands.resolve_left fun still => unregistered still.1).2
    · rw [others k same] at at_k
      exact h.retired k t at_k (mt (listed k same).mpr unregistered)
  · intro x hx k hk
    have hx : x ∈ e.jobs := jobs ▸ hx
    by_cases same : k = n
    · subst same
      have finished := decided.resolve_right fun undecided => undecided x hx hk
      exact ⟨s, own, fun unfinished => absurd (unfinished.symm.trans finished) Bool.false_ne_true⟩
    · obtain ⟨t, at_k, waiting⟩ := h.awaits x hx k hk
      exact ⟨t, (others k same).trans at_k, waiting⟩

theorem Ordered.evictCache (h : e.Ordered) (target : Nat) : (e.evictCache target).2.Ordered :=
  h.withCache rfl rfl rfl (h.books.evict target)

end Engine

end TieredUdf
