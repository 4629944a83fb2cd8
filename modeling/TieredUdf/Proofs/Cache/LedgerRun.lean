import TieredUdf.Proofs.Cache.Balance

/-! # Runs of a cache with its users

A ledger keeps the references that users of a cache have taken and not given back; giving one back
that nobody holds takes none away.  A run is any sequence of operations.  The main statement is
that the books of a cache in memory agree with the ledger in every state that a run reaches, and
that an entry stays, as it is, as long as a reference to it is held.
-/

namespace TieredUdf

/-- A cache with the references that are held to it. -/
structure Ledger where
  cache : Cache
  /-- The hashes of the references, the one that was taken last first. -/
  held : List ContentHash

namespace Ledger

inductive Action where
  | store (h : ContentHash) (bytes : List UInt8) (origin backend : String) (now : Nat)
  | storeAndAcquire (h : ContentHash) (bytes : List UInt8) (origin backend : String) (now : Nat)
  | acquire (h : ContentHash)
  | release (h : ContentHash)
  | lookup (h : ContentHash)
  | invalidate (h : ContentHash)
  | evict (target : Nat)

def fresh (budget : Nat) : Ledger := ⟨.inMemory budget, []⟩

def note (l : Ledger) (c : Cache) (h : ContentHash) (taken : Bool) : Ledger :=
  ⟨c, if taken then h :: l.held else l.held⟩

/-- One operation.  A reference is taken when the operation says so. -/
def step (l : Ledger) : Action → Ledger
  | .store h bytes origin backend now =>
      { l with cache := (l.cache.store h bytes origin backend now).1 }
  | .storeAndAcquire h bytes origin backend now =>
      let (cache, stored) := l.cache.storeAndAcquire h bytes origin backend now
      l.note cache h stored.isSome
  | .acquire h =>
      let (cache, present) := l.cache.acquire h
      l.note cache h present
  | .release h => ⟨l.cache.release h, l.held.erase h⟩
  | .lookup h => { l with cache := (l.cache.lookup h).1 }
  | .invalidate h => { l with cache := (l.cache.invalidate h).1 }
  | .evict target => { l with cache := (l.cache.evict target).1 }

def run (l : Ledger) (actions : List Action) : Ledger := actions.foldl step l

theorem run_append (l : Ledger) (first more : List Action) :
    l.run (first ++ more) = (l.run first).run more := List.foldl_append

/-! ## What every operation preserves -/

def references (l : Ledger) (h : ContentHash) : Nat := l.held.count h

/-- The books of the cache agree with the ledger. -/
def Balanced (l : Ledger) : Prop := l.cache.Balanced l.references

theorem references_note (l : Ledger) (c : Cache) (h : ContentHash) (taken : Bool) :
    (l.note c h taken).references = Cache.more l.references h (if taken then 1 else 0) := by
  funext k
  unfold note references Cache.more
  cases taken with
  | false => simp
  | true =>
      by_cases same : k = h
      · simp [same]
      · simp [same, List.count_cons_of_ne fun e => same e.symm]

theorem references_erase (l : Ledger) (h : ContentHash) :
    (fun k => (l.held.erase h).count k) = Cache.fewer l.references h := by
  funext k
  unfold references Cache.fewer
  rw [List.count_erase]
  by_cases same : k = h
  · simp [same]
  · have : ¬ h = k := fun e => same e.symm
    simp [same, this]

/-- One operation keeps the books, and a referenced entry is still the one that was there. -/
theorem Balanced.step {l : Ledger} (h : l.Balanced) (a : Action) :
    (l.step a).Balanced ∧ l.cache.Kept (l.step a).cache := by
  unfold Balanced at h
  cases a with
  | store hash bytes origin backend now =>
      obtain ⟨balanced, _, kept⟩ := h.insert hash bytes origin backend 0 now
      rw [Cache.more_zero] at balanced
      exact ⟨balanced, kept⟩
  | storeAndAcquire hash bytes origin backend now =>
      obtain ⟨balanced, stored, kept⟩ := h.insert hash bytes origin backend 1 now
      refine ⟨?_, kept⟩
      have taken : (l.cache.storeAndAcquire hash bytes origin backend now).2.isSome = true := stored
      dsimp only [Ledger.step]
      rw [taken, Ledger.Balanced, references_note]
      exact balanced
  | acquire hash =>
      obtain ⟨balanced, kept⟩ := h.acquire hash
      refine ⟨?_, kept⟩
      dsimp only [Ledger.step]
      rw [Ledger.Balanced, references_note]
      exact balanced
  | release hash =>
      obtain ⟨balanced, kept⟩ := h.release hash
      refine ⟨?_, kept⟩
      rw [← references_erase] at balanced
      exact balanced
  | lookup hash => exact h.lookup hash
  | invalidate hash =>
      have drops := Cache.drops_invalidate h.consistent hash
      exact ⟨h.drops drops, (Cache.kept_of_find? fun _ => rfl).drops h.consistent drops⟩
  | evict target =>
      have drops := Cache.drops_evict h.consistent target
      exact ⟨h.drops drops, (Cache.kept_of_find? fun _ => rfl).drops h.consistent drops⟩

theorem step_budget {l : Ledger} (h : l.Balanced) (a : Action) :
    (l.step a).cache.budget = l.cache.budget := by
  unfold Balanced at h
  cases a with
  | store hash bytes origin backend now => exact h.insert_budget hash bytes origin backend 0 now
  | storeAndAcquire hash bytes origin backend now =>
      exact h.insert_budget hash bytes origin backend 1 now
  | acquire hash => rfl
  | release hash => exact h.release_budget hash
  | lookup hash => exact h.lookup_budget hash
  | invalidate hash => exact (Cache.drops_invalidate h.consistent hash).budget
  | evict target => exact (Cache.drops_evict h.consistent target).budget

/-! ## Runs -/

theorem Balanced.run {l : Ledger} (h : l.Balanced) (actions : List Action) :
    (l.run actions).Balanced ∧ (l.run actions).cache.budget = l.cache.budget := by
  induction actions generalizing l with
  | nil => exact ⟨h, rfl⟩
  | cons a actions ih =>
      obtain ⟨balanced, budget⟩ := ih (h.step a).1
      exact ⟨balanced, budget.trans (step_budget h a)⟩

/-- An entry outlasts a run, as it is, if a reference to it is held all the time. -/
theorem Balanced.kept {l : Ledger} (h : l.Balanced) {k : ContentHash} {e : CacheEntry}
    (found : l.cache.find? k = some e) {actions : List Action}
    (holding : ∀ first rest, actions = first ++ rest → 0 < (l.run first).references k) :
    ∃ n, (l.run actions).cache.find? k = some { e with refcount := n } := by
  -- the entry is general, because its count changes with every step
  induction actions generalizing l e with
  | nil => exact ⟨e.refcount, found⟩
  | cons a actions ih =>
      obtain ⟨balanced, same⟩ := h.step a
      have referenced : 0 < (l.step a).cache.refcount k := by
        rw [balanced.refcount_eq k]
        exact holding [a] actions rfl
      obtain ⟨n, next⟩ := same k e found referenced
      obtain ⟨m, last⟩ := ih balanced next fun first rest split =>
        holding (a :: first) rest (congrArg (a :: ·) split)
      exact ⟨m, last⟩

/-- What holds of a cache in memory and its ledger, given the budget. -/
structure Books (budget : Nat) (l : Ledger) : Prop where
  total_eq : l.cache.totalBytes = (l.cache.entries.map fun e => e.about.size).sum
  /-- The recorded sizes are those of the artifacts that are kept. -/
  size_eq : ∀ e ∈ l.cache.entries, ∃ bytes, e.bytes = some bytes ∧ e.about.size = bytes.length
  distinct : (l.cache.entries.map CacheEntry.hash).Nodup
  refcount_eq : ∀ h, l.cache.refcount h = l.held.count h
  within : l.cache.totalBytes ≤ budget ∨ ∀ e ∈ l.cache.entries, 0 < e.refcount
  /-- Counting off an entry that is removed takes away all of its bytes. -/
  remove_covered : ∀ h,
    (l.cache.remove h).1.totalBytes + (l.cache.remove h).2 = l.cache.totalBytes
  evict_covered : ∀ target,
    (l.cache.evict target).1.totalBytes + (l.cache.evict target).2 = l.cache.totalBytes

theorem Balanced.books {l : Ledger} (h : l.Balanced) : l.Books l.cache.budget where
  total_eq := h.consistent.total_eq
  size_eq := h.stocked
  distinct := h.consistent.distinct
  refcount_eq := h.refcount_eq
  within := h.within
  remove_covered := fun k => (h.consistent.remove k).2
  evict_covered := fun target => Cache.evict_freed h.consistent target

/-- A cache in memory keeps its books in every state that a run reaches; and from any such state
on, the entry of a hash is still the same one, as long as a reference to the hash is held. -/
theorem run_ledger (budget : Nat) (actions : List Action) :
    ((fresh budget).run actions).Books budget ∧
    ∀ (h : ContentHash) (more : List Action),
      (∀ first rest, more = first ++ rest →
        0 < ((fresh budget).run (actions ++ first)).held.count h) →
      ∃ e n, ((fresh budget).run actions).cache.find? h = some e ∧
        ((fresh budget).run (actions ++ more)).cache.find? h = some { e with refcount := n } := by
  have start : (fresh budget).Balanced := Cache.balanced_inMemory budget
  obtain ⟨balanced, same⟩ := start.run actions
  refine ⟨?_, fun h more holding => ?_⟩
  · have books := balanced.books
    rw [same] at books
    exact books
  · simp only [run_append] at holding ⊢
    have referenced := holding [] more rfl
    rw [← references, run, List.foldl_nil, ← balanced.refcount_eq h] at referenced
    obtain ⟨e, found⟩ := Cache.found_of_refcount referenced
    obtain ⟨n, kept⟩ := balanced.kept found holding
    exact ⟨e, n, found, kept⟩

/-- Two artifacts that are larger than the budget together, both referenced, so that neither is
evicted; after one reference is given back, the artifact of the other is still there. -/
theorem run_ledger_crowded :
    let one : ContentHash := ⟨[1]⟩
    let two : ContentHash := ⟨[2]⟩
    let actions := [Action.storeAndAcquire one [0, 0, 0] "a@1" "test" 1,
      .storeAndAcquire two [0, 0, 0] "b@1" "test" 2, .acquire one, .release one]
    let more := [Action.lookup two, .release two, .evict 0, .invalidate one]
    ((fresh 4).run actions).Books 4 ∧
    (∀ first rest, more = first ++ rest →
      0 < ((fresh 4).run (actions ++ first)).held.count one) ∧
    ∃ e n, ((fresh 4).run actions).cache.find? one = some e ∧
      ((fresh 4).run (actions ++ more)).cache.find? one = some { e with refcount := n } := by
  intro one two actions more
  have holding : ∀ first rest, more = first ++ rest →
      0 < ((fresh 4).run (actions ++ first)).held.count one := by
    intro first rest split
    have short : first = more.take first.length := by rw [split, List.take_left]
    have all : ∀ n ≤ more.length,
        0 < ((fresh 4).run (actions ++ more.take n)).held.count one := by decide +kernel
    rw [short]
    exact all _ (by rw [split]; simp)
  obtain ⟨books, kept⟩ := run_ledger 4 actions
  exact ⟨books, holding, kept one more holding⟩

end Ledger

end TieredUdf
