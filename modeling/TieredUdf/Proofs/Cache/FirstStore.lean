import TieredUdf.Proofs.Cache.LedgerRun
import TieredUdf.Proofs.Cache.Storing

/-! # A cache in memory as a map

The first store of a hash makes its entry and later ones change nothing, and an entry goes only by
an eviction or an invalidation.  A run is written down as it is seen from outside: the stores of
hashes that had no entry, the hashes that an operation left without one, and the lookups with their
answers.  What a lookup gives and what the counters say is read off from that record.
-/

namespace TieredUdf

namespace Cache

variable {c d : Cache}

/-! ## What an eviction takes away -/

def hashes (c : Cache) : List ContentHash := c.entries.map CacheEntry.hash

def lacking (c : Cache) (hashes : List ContentHash) : List ContentHash :=
  hashes.filter fun h => !c.contains h

theorem mem_hashes {h : ContentHash} : h ∈ c.hashes ↔ c.contains h = true := by
  constructor
  · intro hh
    obtain ⟨e, he, rfl⟩ := List.mem_map.mp hh
    cases found : c.find? e.hash with
    | none => exact absurd rfl (find?_eq_none.mp found e he)
    | some _ => simp [contains, found]
  · intro present
    obtain ⟨e, found⟩ := Option.isSome_iff_exists.mp present
    obtain ⟨he, rfl⟩ := find?_eq_some found
    exact List.mem_map_of_mem he

/-- An eviction, as its counters have it: every entry that goes is counted, and nothing else. -/
structure Evicts (c d : Cache) : Prop extends c.Drops d where
  hits : d.hits = c.hits
  misses : d.misses = c.misses
  stores : d.stores = c.stores
  evictions : d.evictions + d.entries.length = c.evictions + c.entries.length

theorem length_remove (hc : c.Consistent) {h : ContentHash} (present : c.contains h = true) :
    (c.remove h).1.entries.length + 1 = c.entries.length := by
  obtain ⟨e, found⟩ := Option.isSome_iff_exists.mp present
  obtain ⟨he, rfl⟩ := find?_eq_some found
  rw [remove_of_found found, (perm_without hc.distinct he).length_eq]
  rfl

theorem evictEach_evictions (target : Nat) {hashes : List ContentHash} (hc : c.Consistent)
    (distinct : hashes.Nodup) (present : ∀ h ∈ hashes, c.contains h = true) :
    (evictEach target hashes c).1.evictions + (evictEach target hashes c).1.entries.length =
      c.evictions + c.entries.length := by
  induction hashes generalizing c with
  | nil => rfl
  | cons h rest ih =>
      unfold evictEach
      split
      · rfl
      · obtain ⟨new, distinct⟩ := List.nodup_cons.mp distinct
        obtain ⟨here, present⟩ := List.forall_mem_cons.mp present
        have removed := (hc.remove h).1
        have shorter := length_remove hc here
        have counters := (counters_remove c h).2.2.2
        have others : ∀ k ∈ rest, (c.remove h).1.contains k = true := by
          intro k hk
          have other : k ≠ h := fun same => new (same ▸ hk)
          rw [contains, find?_remove, if_neg other]
          exact present k hk
        have more := ih (c := { (c.remove h).1 with
          evictions := (c.remove h).1.evictions + 1 }) ⟨removed.distinct, removed.total_eq⟩
          distinct others
        dsimp only at more ⊢
        omega

theorem evictEach_counters (target : Nat) (hashes : List ContentHash) (c : Cache) :
    (evictEach target hashes c).1.hits = c.hits ∧
      (evictEach target hashes c).1.misses = c.misses ∧
      (evictEach target hashes c).1.stores = c.stores := by
  refine evictEach_preserves
    (P := fun d => d.hits = c.hits ∧ d.misses = c.misses ∧ d.stores = c.stores) target
    (fun d h _ same => ?_) ⟨rfl, rfl, rfl⟩
  obtain ⟨hits, misses, stores, _⟩ := counters_remove d h
  exact ⟨hits.trans same.1, misses.trans same.2.1, stores.trans same.2.2⟩

theorem evicts_evict (hc : c.Consistent) (target : Nat) : c.Evicts (c.evict target).1 := by
  obtain ⟨hits, misses, stores⟩ := evictEach_counters target c.evictable c
  have within : c.evictable.Sublist c.hashes := List.filter_sublist.map _
  refine ⟨drops_evict hc target, hits, misses, stores, ?_⟩
  apply evictEach_evictions target hc (hc.distinct.sublist within)
  intro h hh
  exact mem_hashes.mp (within.subset hh)

theorem Drops.length_lacking (hc : c.Consistent) (drops : c.Drops d) :
    (d.lacking c.hashes).length + d.entries.length = c.entries.length := by
  have kept : (c.hashes.filter d.contains).Perm d.hashes := by
    apply (List.perm_ext_iff_of_nodup (hc.distinct.filter _) drops.consistent.distinct).mpr
    intro h
    rw [List.mem_filter, ← mem_hashes]
    exact ⟨fun both => both.2, fun hh => ⟨(drops.entries.map _).subset hh, hh⟩⟩
  have parts := c.hashes.length_eq_length_filter_add d.contains
  have same := kept.length_eq
  simp only [hashes, List.length_map] at parts same
  unfold lacking hashes
  omega

end Cache

namespace Ledger

/-! ## The record of a run -/

/-- What is seen of a cache from outside. -/
inductive Note where
  /-- A store of a hash that had no entry. -/
  | stored (h : ContentHash) (bytes : List UInt8) (origin : String)
  /-- An operation that evicts left the hash without an entry. -/
  | evicted (h : ContentHash)
  | invalidated (h : ContentHash)
  /-- A lookup with its answer. -/
  | looked (h : ContentHash) (found : Option Artifact)
  deriving DecidableEq

def Note.isHit : Note → Bool
  | .looked _ found => found.isSome
  | _ => false

def Note.isMiss : Note → Bool
  | .looked _ found => found.isNone
  | _ => false

def Note.isStored : Note → Bool
  | .stored .. => true
  | _ => false

def Note.isEvicted : Note → Bool
  | .evicted _ => true
  | _ => false

def Note.isInvalidated : Note → Bool
  | .invalidated _ => true
  | _ => false

/-- The hashes that a cache has no entry of any more. -/
def evictionNotes (d : Cache) (before : List ContentHash) : List Note :=
  (d.lacking before).map .evicted

/-- What is seen of a store, given the cache after it.  It counts as one when there was no entry,
whatever it answers. -/
def storeNotes (c : Cache) (h : ContentHash) (bytes : List UInt8) (origin : String)
    (after : Cache) : List Note :=
  if c.contains h then [] else .stored h bytes origin :: evictionNotes after (c.hashes ++ [h])

def notes (l : Ledger) : Action → List Note
  | .store h bytes origin backend now =>
      storeNotes l.cache h bytes origin (l.cache.store h bytes origin backend now).1
  | .storeAndAcquire h bytes origin backend now =>
      storeNotes l.cache h bytes origin (l.cache.storeAndAcquire h bytes origin backend now).1
  | .acquire _ => []
  | .release h => evictionNotes (l.cache.release h) l.cache.hashes
  | .lookup h => [.looked h (l.cache.lookup h).2]
  | .invalidate h => if (l.cache.invalidate h).2 then [.invalidated h] else []
  | .evict target => evictionNotes (l.cache.evict target).1 l.cache.hashes

def log : Ledger → List Action → List Note
  | _, [] => []
  | l, a :: actions => l.notes a ++ (l.step a).log actions

def answersStored (l : Ledger) : Action → Bool
  | .store h bytes origin backend now =>
      (l.cache.store h bytes origin backend now).2 == some true
  | .storeAndAcquire h bytes origin backend now =>
      (l.cache.storeAndAcquire h bytes origin backend now).2 == some true
  | .acquire _ | .release _ | .lookup _ | .invalidate _ | .evict _ => false

def countStored : Ledger → List Action → Nat
  | _, [] => 0
  | l, a :: actions => (if l.answersStored a then 1 else 0) + (l.step a).countStored actions

/-- A call made the entry of a hash from these bytes, and it was not removed since. -/
def Stands (log : List Note) (h : ContentHash) (bytes : List UInt8) (origin : String) : Prop :=
  ∃ before after, log = before ++ .stored h bytes origin :: after ∧
    .evicted h ∉ after ∧ .invalidated h ∉ after

variable {log more : List Note} {h k : ContentHash} {bytes : List UInt8} {origin : String}

theorem stands_nil : ¬ Stands [] h bytes origin := by
  rintro ⟨before, after, none_yet, _⟩
  simp at none_yet

theorem stands_append (quiet : ∀ n ∈ more, n.isStored = false) :
    Stands (log ++ more) h bytes origin ↔
      Stands log h bytes origin ∧ .evicted h ∉ more ∧ .invalidated h ∉ more := by
  constructor
  · rintro ⟨before, after, split, evicted, invalidated⟩
    rcases List.append_eq_append_iff.mp split with ⟨late, rfl, late_eq⟩ | ⟨rest, rfl, rest_eq⟩
    · have mem : Note.stored h bytes origin ∈ more := by
        rw [late_eq]
        exact List.mem_append_right late List.mem_cons_self
      cases quiet _ mem
    · cases rest with
      | nil =>
          have mem : Note.stored h bytes origin ∈ more := by
            rw [← List.nil_append more, ← rest_eq]
            exact List.mem_cons_self
          cases quiet _ mem
      | cons n rest =>
          rw [List.cons_append, List.cons.injEq] at rest_eq
          obtain ⟨rfl, rfl⟩ := rest_eq
          simp only [List.mem_append, not_or] at evicted invalidated
          exact ⟨⟨before, rest, rfl, evicted.1, invalidated.1⟩, evicted.2, invalidated.2⟩
  · rintro ⟨⟨before, after, rfl, evicted, invalidated⟩, evicted', invalidated'⟩
    refine ⟨before, after ++ more, by simp, ?_, ?_⟩
    · simp [evicted, evicted']
    · simp [invalidated, invalidated']

theorem stands_stored {bytes' : List UInt8} {origin' : String} :
    Stands (log ++ [.stored k bytes' origin']) h bytes origin ↔
      (h = k ∧ bytes = bytes' ∧ origin = origin') ∨ Stands log h bytes origin := by
  constructor
  · rintro ⟨before, after, split, evicted, invalidated⟩
    rcases List.eq_nil_or_concat after with rfl | ⟨after, last, rfl⟩
    · have same := (List.append_inj' split rfl).2
      simp only [List.cons.injEq, Note.stored.injEq, and_true] at same
      exact Or.inl ⟨same.1.symm, same.2.1.symm, same.2.2.symm⟩
    · rw [List.concat_eq_append] at split evicted invalidated
      rw [← List.cons_append, ← List.append_assoc] at split
      obtain ⟨rfl, _⟩ := List.append_inj' split rfl
      simp only [List.mem_append, not_or] at evicted invalidated
      exact Or.inr ⟨before, after, rfl, evicted.1, invalidated.1⟩
  · rintro (⟨rfl, rfl, rfl⟩ | ⟨before, after, rfl, evicted, invalidated⟩)
    · exact ⟨log, [], rfl, by simp, by simp⟩
    · exact ⟨before, after ++ [.stored k bytes' origin'], by simp, by simp [evicted],
        by simp [invalidated]⟩

/-! ## What the record says of a cache -/

def content (e : CacheEntry) : Option (List UInt8) × String := (e.bytes, e.about.origin)

/-- The entries of a cache and its counters are those of a record. -/
structure Recorded (c : Cache) (log : List Note) : Prop where
  stands_iff : ∀ h bytes origin,
    (c.find? h).map content = some (some bytes, origin) ↔ Stands log h bytes origin
  hits : c.hits = log.countP Note.isHit
  misses : c.misses = log.countP Note.isMiss
  stores : c.stores = log.countP Note.isStored
  evictions : c.evictions = log.countP Note.isEvicted
  length : c.entries.length + c.evictions + log.countP Note.isInvalidated = c.stores

/-- Two caches that differ in references, in the order of use and in what lookups count. -/
structure Alike (c d : Cache) : Prop where
  content : ∀ h, (d.find? h).map content = (c.find? h).map content
  length : d.entries.length = c.entries.length
  stores : d.stores = c.stores
  evictions : d.evictions = c.evictions

variable {c d : Cache} {held : ContentHash → Nat}

theorem recorded_inMemory (budget : Nat) : Recorded (.inMemory budget) [] where
  stands_iff := by
    intro h bytes origin
    constructor
    · intro found
      cases found
    · intro stands
      exact absurd stands stands_nil
  hits := rfl
  misses := rfl
  stores := rfl
  evictions := rfl
  length := rfl

theorem Recorded.alike (r : Recorded c log) (alike : Alike c d) (hits : d.hits = c.hits)
    (misses : d.misses = c.misses) : Recorded d log where
  stands_iff := by
    intro h bytes origin
    rw [alike.content]
    exact r.stands_iff h bytes origin
  hits := hits.trans r.hits
  misses := misses.trans r.misses
  stores := alike.stores.trans r.stores
  evictions := alike.evictions.trans r.evictions
  length := by
    rw [alike.length, alike.evictions, alike.stores]
    exact r.length

theorem Recorded.looked (r : Recorded c log) (alike : Alike c d) (h : ContentHash)
    (found : Option Artifact) (hits : d.hits = c.hits + if found.isSome then 1 else 0)
    (misses : d.misses = c.misses + if found.isNone then 1 else 0) :
    Recorded d (log ++ [.looked h found]) where
  stands_iff := by
    intro k bytes origin
    rw [alike.content, r.stands_iff, stands_append (by simp [Note.isStored])]
    simp
  hits := by cases found <;> simp [hits, r.hits, Note.isHit]
  misses := by cases found <;> simp [misses, r.misses, Note.isMiss]
  stores := by simp [alike.stores, r.stores, Note.isStored]
  evictions := by simp [alike.evictions, r.evictions, Note.isEvicted]
  length := by
    have before := r.length
    have length := alike.length
    have stores := alike.stores
    have evictions := alike.evictions
    simp [Note.isInvalidated]
    omega

/-! ### Entries that come and go -/

theorem Recorded.add (r : Recorded c log) (missing : c.find? h = none) (bytes : List UInt8)
    (origin backend : String) (n now : Nat) :
    Recorded (c.add (.ofBytes h bytes origin backend now) (some bytes) n)
      (log ++ [.stored h bytes origin]) where
  stands_iff := by
    intro k bytes' origin'
    rw [Cache.find?_add, stands_stored, ← r.stands_iff]
    by_cases own : k = h
    · subst own
      simp [ArtifactMeta.ofBytes, content, missing, eq_comm]
    · simp [ArtifactMeta.ofBytes, own]
  hits := by simp [Cache.add, Cache.put, r.hits, Note.isHit]
  misses := by simp [Cache.add, Cache.put, r.misses, Note.isMiss]
  stores := by simp [Cache.add, r.stores, Note.isStored]
  evictions := by simp [Cache.add, Cache.put, r.evictions, Note.isEvicted]
  length := by
    have before := r.length
    rw [Cache.entries_add missing]
    simp [Cache.add, Cache.put, Note.isInvalidated]
    omega

theorem countP_evictionNotes (p : Note → Bool) (before : List ContentHash) (b : Bool)
    (constant : ∀ h, p (.evicted h) = b) :
    (evictionNotes d before).countP p = if b then (d.lacking before).length else 0 := by
  unfold evictionNotes
  rw [List.countP_map, show p ∘ Note.evicted = fun _ => b from funext constant]
  cases b <;> simp

theorem Recorded.evicts (r : Recorded c log) (hc : c.Consistent) (evicts : c.Evicts d) :
    Recorded d (log ++ evictionNotes d c.hashes) where
  stands_iff := by
    intro h bytes origin
    have quiet : ∀ n ∈ evictionNotes d c.hashes, n.isStored = false := by
      simp [evictionNotes, Note.isStored]
    have lacking : .evicted h ∉ evictionNotes d c.hashes ↔ c.contains h → d.contains h := by
      simp [evictionNotes, Cache.lacking, Cache.mem_hashes]
    rw [stands_append quiet, lacking, ← r.stands_iff]
    cases present : d.contains h with
    | true =>
        rw [evicts.find?_of_contains hc present]
        simp [evictionNotes]
    | false =>
        have gone : d.find? h = none := by simpa [Cache.contains] using present
        rw [gone]
        cases found : c.find? h <;> simp [Cache.contains, found]
  hits := by
    rw [List.countP_append, countP_evictionNotes _ _ false fun _ => rfl, ← r.hits]
    exact evicts.hits
  misses := by
    rw [List.countP_append, countP_evictionNotes _ _ false fun _ => rfl, ← r.misses]
    exact evicts.misses
  stores := by
    rw [List.countP_append, countP_evictionNotes _ _ false fun _ => rfl, ← r.stores]
    exact evicts.stores
  evictions := by
    have counted := evicts.evictions
    have lost := evicts.length_lacking hc
    rw [List.countP_append, countP_evictionNotes _ _ true fun _ => rfl, ← r.evictions, if_pos rfl]
    omega
  length := by
    have before := r.length
    have counted := evicts.evictions
    have stores := evicts.stores
    rw [List.countP_append, countP_evictionNotes _ _ false fun _ => rfl]
    simp only [Bool.false_eq_true, if_false]
    omega

theorem Recorded.remove (r : Recorded c log) (hc : c.Consistent) (present : c.contains h = true) :
    Recorded (c.remove h).1 (log ++ [.invalidated h]) where
  stands_iff := by
    intro k bytes origin
    rw [Cache.find?_remove, stands_append (by simp [Note.isStored]), ← r.stands_iff]
    by_cases own : k = h <;> simp [own]
  hits := by simp [Cache.counters_remove, r.hits, Note.isHit]
  misses := by simp [Cache.counters_remove, r.misses, Note.isMiss]
  stores := by simp [Cache.counters_remove, r.stores, Note.isStored]
  evictions := by simp [Cache.counters_remove, r.evictions, Note.isEvicted]
  length := by
    have before := r.length
    have shorter := Cache.length_remove hc present
    obtain ⟨_, _, stores, evictions⟩ := Cache.counters_remove c h
    simp [Note.isInvalidated]
    omega

/-! ### Operations -/

theorem alike_put (hc : c.Consistent) {e : CacheEntry} (found : c.find? h = some e)
    (after : CacheEntry) (about : after.about = e.about) (bytes : after.bytes = e.bytes) :
    Alike c (c.put after) where
  content := by
    intro k
    obtain ⟨_, rfl⟩ := Cache.find?_eq_some found
    have own : after.hash = e.hash := congrArg ArtifactMeta.hash about
    rw [Cache.find?_put, own]
    split
    · rename_i same
      rw [same, found]
      simp [content, about, bytes]
    · rfl
  length := by
    obtain ⟨he, rfl⟩ := Cache.find?_eq_some found
    have own : after.hash = e.hash := congrArg ArtifactMeta.hash about
    rw [(Cache.perm_without hc.distinct he).length_eq, Cache.put, own]
    simp
  stores := rfl
  evictions := rfl

theorem alike_recount (c : Cache) (h : ContentHash) (f : Nat → Nat) :
    Alike c (c.modify h (Cache.recount f)) where
  content := by
    intro k
    rw [Cache.find?_modify c h k (f := Cache.recount f) fun _ => rfl]
    split
    · rw [Option.map_map]
      rfl
    · rfl
  length := by simp [Cache.modify]
  stores := rfl
  evictions := rfl

theorem Recorded.insert (r : Recorded c log) (holds : c.Holds held) (h : ContentHash)
    (bytes : List UInt8) (origin backend : String) (n now : Nat) :
    Recorded (c.insert h bytes origin backend n now).1
      (log ++ storeNotes c h bytes origin (c.insert h bytes origin backend n now).1) := by
  unfold Cache.insert storeNotes
  cases found : c.find? h with
  | some e =>
      have alike := alike_put holds.consistent found { e with refcount := e.refcount + n } rfl rfl
      rw [if_pos (Cache.contains_of_find? found), List.append_nil]
      exact r.alike alike rfl rfl
  | none =>
      rw [holds.memory, Cache.contains, found]
      have added := r.add found bytes origin backend n now
      have consistent := (holds.add found bytes origin backend n now).consistent
      have trimmed := added.evicts consistent (Cache.evicts_evict consistent c.budget)
      have hashes : (c.add (.ofBytes h bytes origin backend now) (some bytes) n).hashes =
          c.hashes ++ [h] := by
        rw [Cache.hashes, Cache.entries_add found, List.map_append]
        rfl
      rw [hashes, List.append_assoc] at trimmed
      exact trimmed

theorem Recorded.lookup (r : Recorded c log) (holds : c.Holds held) (h : ContentHash) :
    Recorded (c.lookup h).1 (log ++ [.looked h (c.lookup h).2]) := by
  unfold Cache.lookup
  cases found : c.find? h with
  | none =>
      have alike : Alike c { c with misses := c.misses + 1 } := ⟨fun _ => rfl, rfl, rfl, rfl⟩
      exact r.looked alike h none rfl rfl
  | some e =>
      obtain ⟨bytes, stocked, _⟩ := holds.stocked e (Cache.find?_eq_some found).1
      have alike := alike_put holds.consistent found e rfl rfl
      have hit : Alike c { c.put e with hits := c.hits + 1 } :=
        ⟨alike.content, alike.length, rfl, rfl⟩
      simp only [Cache.read?, stocked]
      exact r.looked hit h (some (e.about.artifact bytes)) rfl rfl

theorem Recorded.invalidate (r : Recorded c log) (hc : c.Consistent) (h : ContentHash) :
    Recorded (c.invalidate h).1
      (log ++ if (c.invalidate h).2 then [.invalidated h] else []) := by
  unfold Cache.invalidate
  cases found : c.find? h with
  | none => simpa using r
  | some e =>
      dsimp only
      split
      · exact r.remove hc (by simp [Cache.contains, found])
      · simpa using r

/-- What is seen of one operation is what it does to the entries and the counters. -/
theorem Recorded.step {l : Ledger} (r : Recorded l.cache log) (h : l.Balanced) (a : Action) :
    Recorded (l.step a).cache (log ++ l.notes a) := by
  unfold Balanced at h
  cases a with
  | store hash bytes origin backend now => exact r.insert h.toHolds hash bytes origin backend 0 now
  | storeAndAcquire hash bytes origin backend now =>
      exact r.insert h.toHolds hash bytes origin backend 1 now
  | acquire hash =>
      rw [notes, List.append_nil]
      exact r.alike (alike_recount l.cache hash (· + 1)) rfl rfl
  | release hash =>
      have released := r.alike (alike_recount l.cache hash fun n => n - 1) rfl rfl
      have consistent := (h.toHolds.release hash).consistent
      have trimmed := released.evicts consistent (Cache.evicts_evict consistent l.cache.budget)
      have hashes : (l.cache.modify hash (Cache.recount fun n => n - 1)).hashes =
          l.cache.hashes := Cache.hashes_modify l.cache hash fun _ => rfl
      rw [hashes] at trimmed
      exact trimmed
  | lookup hash => exact r.lookup h.toHolds hash
  | invalidate hash => exact r.invalidate h.consistent hash
  | evict target => exact r.evicts h.consistent (Cache.evicts_evict h.consistent target)

/-! ## Runs -/

theorem Recorded.run {l : Ledger} (r : Recorded l.cache log) (h : l.Balanced)
    (actions : List Action) : Recorded (l.run actions).cache (log ++ l.log actions) := by
  induction actions generalizing l log with
  | nil => simpa [Ledger.run, Ledger.log] using r
  | cons a actions ih =>
      have next := ih (r.step h a) (h.step a).1
      rw [List.append_assoc] at next
      exact next

def Action.isLookup : Action → Bool
  | .lookup _ => true
  | _ => false

theorem countP_storeNotes (p : Note → Bool) (c after : Cache)
    (evicted : ∀ k, p (.evicted k) = false) :
    (storeNotes c h bytes origin after).countP p =
      if !c.contains h && p (.stored h bytes origin) then 1 else 0 := by
  unfold storeNotes
  cases c.contains h with
  | true => rfl
  | false =>
      rw [if_neg Bool.false_ne_true, List.countP_cons, countP_evictionNotes p _ false evicted]
      simp

/-- Every lookup is a hit or a miss, and nothing else is. -/
theorem countP_looked_notes (l : Ledger) (a : Action) :
    (l.notes a).countP Note.isHit + (l.notes a).countP Note.isMiss =
      if a.isLookup then 1 else 0 := by
  cases a with
  | store hash bytes origin backend now =>
      rw [notes, countP_storeNotes _ _ _ fun _ => rfl, countP_storeNotes _ _ _ fun _ => rfl]
      simp [Note.isHit, Note.isMiss, Action.isLookup]
  | storeAndAcquire hash bytes origin backend now =>
      rw [notes, countP_storeNotes _ _ _ fun _ => rfl, countP_storeNotes _ _ _ fun _ => rfl]
      simp [Note.isHit, Note.isMiss, Action.isLookup]
  | acquire hash => rfl
  | release hash =>
      rw [notes, countP_evictionNotes _ _ false fun _ => rfl,
        countP_evictionNotes _ _ false fun _ => rfl]
      rfl
  | lookup hash =>
      cases found : (l.cache.lookup hash).2 <;>
        simp [notes, found, Note.isHit, Note.isMiss, Action.isLookup]
  | invalidate hash =>
      cases done : (l.cache.invalidate hash).2 <;>
        simp [notes, done, Note.isHit, Note.isMiss, Action.isLookup]
  | evict target =>
      rw [notes, countP_evictionNotes _ _ false fun _ => rfl,
        countP_evictionNotes _ _ false fun _ => rfl]
      rfl

theorem countP_looked (l : Ledger) (actions : List Action) :
    (l.log actions).countP Note.isHit + (l.log actions).countP Note.isMiss =
      actions.countP Action.isLookup := by
  induction actions generalizing l with
  | nil => rfl
  | cons a actions ih =>
      have first := countP_looked_notes l a
      have rest := ih (l.step a)
      rw [log, List.countP_append, List.countP_append, List.countP_cons]
      omega

/-- A store that makes an entry answers so, and no other operation does. -/
theorem countP_stored_notes {l : Ledger} (h : l.Balanced) (a : Action) :
    (l.notes a).countP Note.isStored = if l.answersStored a then 1 else 0 := by
  unfold Balanced at h
  cases a with
  | store hash bytes origin backend now =>
      have answer := (h.stores_insert hash bytes origin backend 0 now).answer
      rw [notes, countP_storeNotes _ _ _ fun _ => rfl, answersStored, Cache.store, answer]
      cases l.cache.contains hash <;> rfl
  | storeAndAcquire hash bytes origin backend now =>
      have answer := (h.stores_insert hash bytes origin backend 1 now).answer
      rw [notes, countP_storeNotes _ _ _ fun _ => rfl, answersStored, Cache.storeAndAcquire, answer]
      cases l.cache.contains hash <;> rfl
  | acquire hash => rfl
  | release hash =>
      rw [notes, countP_evictionNotes _ _ false fun _ => rfl]
      rfl
  | lookup hash => rfl
  | invalidate hash =>
      cases done : (l.cache.invalidate hash).2 <;> simp [notes, done, Note.isStored, answersStored]
  | evict target =>
      rw [notes, countP_evictionNotes _ _ false fun _ => rfl]
      rfl

theorem countP_stored {l : Ledger} (h : l.Balanced) (actions : List Action) :
    (l.log actions).countP Note.isStored = l.countStored actions := by
  induction actions generalizing l with
  | nil => rfl
  | cons a actions ih =>
      rw [log, List.countP_append, countP_stored_notes h a, ih (h.step a).1, countStored]

/-- What a lookup in memory gives is what its entry was made of. -/
theorem lookup_eq_some_iff (holds : c.Holds held) :
    (∃ a, (c.lookup h).2 = some a ∧ a.bytes = bytes ∧ a.origin = origin) ↔
      (c.find? h).map content = some (some bytes, origin) := by
  rw [Cache.lookup_artifact]
  cases found : c.find? h with
  | none => simp
  | some e =>
      obtain ⟨kept, stocked, _⟩ := holds.stocked e (Cache.find?_eq_some found).1
      simp [Cache.read?, stocked, content, ArtifactMeta.artifact]

/-- A cache in memory is a map in which the first store wins.  After any run, a lookup gives an
artifact exactly when a hash without an entry was stored and it was neither evicted nor invalidated
since, and it is the artifact of that call, with its origin.  The next store of any hash makes the
entry if there is none, and leaves what is there if there is one, and it answers which of the two
it was.  Every lookup is a hit or a miss, the hits are those that gave an artifact, the stores are
the calls that answered so, and what was stored is either still there or was evicted or
invalidated. -/
theorem run_first_store_wins (budget : Nat) (actions : List Action) :
    let c := ((fresh budget).run actions).cache
    let log := (fresh budget).log actions
    (∀ h bytes origin,
      (∃ a, (c.lookup h).2 = some a ∧ a.bytes = bytes ∧ a.origin = origin) ↔
        Stands log h bytes origin) ∧
    (∀ h bytes origin backend now,
      c.Stores h bytes origin 0 now (c.store h bytes origin backend now) ∧
      c.Stores h bytes origin 1 now (c.storeAndAcquire h bytes origin backend now)) ∧
    (c.hits + c.misses = actions.countP Action.isLookup ∧ c.hits = log.countP Note.isHit) ∧
    (c.stores = (fresh budget).countStored actions ∧ c.stores = log.countP Note.isStored) ∧
    c.evictions = log.countP Note.isEvicted ∧
    c.entries.length + c.evictions + log.countP Note.isInvalidated = c.stores := by
  intro c log
  have start : (fresh budget).Balanced := Cache.balanced_inMemory budget
  have balanced : c.Balanced ((fresh budget).run actions).references := (start.run actions).1
  have recorded : Recorded c log := (recorded_inMemory budget).run start actions
  refine ⟨?_, ?_, ⟨?_, recorded.hits⟩, ⟨?_, recorded.stores⟩, recorded.evictions, recorded.length⟩
  · intro h bytes origin
    rw [lookup_eq_some_iff balanced.toHolds]
    exact recorded.stands_iff h bytes origin
  · intro h bytes origin backend now
    exact ⟨balanced.stores_insert h bytes origin backend 0 now,
      balanced.stores_insert h bytes origin backend 1 now⟩
  · rw [recorded.hits, recorded.misses]
    exact countP_looked (fresh budget) actions
  · rw [recorded.stores]
    exact countP_stored start actions

/-- An artifact that is larger than the budget goes in the same call, unless a reference is held;
a store that finds an entry leaves no trace.  At the end an artifact of one byte fits, and it is the
one that a lookup gives. -/
theorem run_first_store_wins_crowded :
    let one : ContentHash := ⟨[1]⟩
    let actions : List Action := [.store one [0, 0, 0] "a@1" "test" 1, .lookup one,
      .storeAndAcquire one [1, 1, 1] "b@1" "test" 2, .store one [2] "c@1" "test" 3, .lookup one,
      .release one]
    let c := ((fresh 2).run actions).cache
    (fresh 2).log actions =
      [.stored one [0, 0, 0] "a@1", .evicted one, .looked one none, .stored one [1, 1, 1] "b@1",
        .looked one (some ⟨one, [1, 1, 1], "b@1", 2⟩), .evicted one] ∧
    (c.stores = 2 ∧ (fresh 2).countStored actions = 2) ∧
    ((c.store one [3] "d@1" "test" 4).1.lookup one).2 = some ⟨one, [3], "d@1", 4⟩ := by
  intro one actions c
  obtain ⟨_, stores, _, counted, _⟩ := run_first_store_wins 2 actions
  have missing : c.contains one = false := by decide +kernel
  have referenced : c.referencedBytes = 0 := by decide +kernel
  have count : (fresh 2).countStored actions = 2 := by decide +kernel
  have first := (stores one [3] "d@1" "test" 4).1.first missing
  rw [referenced, if_pos (Or.inr (by decide))] at first
  exact ⟨by decide +kernel, ⟨counted.1.trans count, count⟩, first⟩

end Ledger

end TieredUdf
