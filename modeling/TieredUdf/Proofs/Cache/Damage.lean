import Mathlib.Data.List.Induction
import TieredUdf.Proofs.Cache.LedgerRun

/-! # Damage to the files of a cache

The files of a cache in a directory may change from outside at any time.  No entry ever has more
references than are held, and it has as many, and stays, exactly as long as every lookup of a
referenced artifact finds its file whole: a lookup that does not drops the entry with its
references.  Nothing is said here of sizes, since a directory may describe one artifact twice.
-/

namespace TieredUdf

namespace Cache

/-! ## One entry for each hash -/

def Distinct (c : Cache) : Prop := (c.entries.map CacheEntry.hash).Nodup

variable {c : Cache}

theorem Distinct.put (h : c.Distinct) (e : CacheEntry) : (c.put e).Distinct := by
  unfold Distinct Cache.put
  rw [List.map_append, List.nodup_append]
  refine ⟨h.sublist (List.filter_sublist.map _), List.nodup_singleton _, ?_⟩
  intro k old l new same
  obtain ⟨x, hx, rfl⟩ := List.mem_map.mp old
  exact (mem_without.mp hx).2 (same.trans (List.mem_singleton.mp new))

theorem Distinct.remove (h : c.Distinct) (k : ContentHash) : (c.remove k).1.Distinct := by
  cases found : c.find? k with
  | none => rwa [remove_of_missing found]
  | some e =>
      rw [remove_of_found found]
      exact h.sublist (List.filter_sublist.map _)

theorem Distinct.recount (h : c.Distinct) (k : ContentHash) (f : Nat → Nat) :
    (c.modify k (recount f)).Distinct := by
  have same := hashes_modify c k (f := Cache.recount f) fun _ => rfl
  unfold Distinct
  rwa [same]

/-! ## References -/

theorem refcount_put (c : Cache) (e : CacheEntry) (k : ContentHash) :
    (c.put e).refcount k = if k = e.hash then e.refcount else c.refcount k := by
  rw [refcount, find?_put]
  by_cases own : k = e.hash <;> simp [own, refcount]

theorem refcount_remove (c : Cache) (h k : ContentHash) :
    (c.remove h).1.refcount k = if k = h then 0 else c.refcount k := by
  rw [refcount, find?_remove]
  by_cases own : k = h <;> simp [own, refcount]

theorem Distinct.evictEach (target : Nat) {hashes : List ContentHash} (h : c.Distinct)
    (unreferenced : ∀ k ∈ hashes, c.refcount k = 0) :
    (evictEach target hashes c).1.Distinct ∧
      ∀ k, (evictEach target hashes c).1.refcount k = c.refcount k := by
  let Alike (d : Cache) : Prop := d.Distinct ∧ ∀ k, d.refcount k = c.refcount k
  refine evictEach_preserves (P := Alike) target (fun d l hl ⟨distinct, counts⟩ => ?_)
    ⟨h, fun _ => rfl⟩
  have same : ∀ k, (d.remove l).1.refcount k = c.refcount k := by
    intro k
    rw [refcount_remove]
    split
    · rename_i own
      rw [own, unreferenced l hl]
    · exact counts k
  exact ⟨distinct.remove l, same⟩

theorem Distinct.evict (h : c.Distinct) (target : Nat) :
    (c.evict target).1.Distinct ∧ ∀ k, (c.evict target).1.refcount k = c.refcount k := by
  refine h.evictEach target fun k evictable => ?_
  obtain ⟨e, he, rfl⟩ := List.mem_map.mp evictable
  obtain ⟨mem, unreferenced⟩ := List.mem_filter.mp he
  rw [refcount, find?_of_mem h mem]
  simpa using unreferenced

theorem Distinct.trim (h : c.Distinct) :
    c.trim.Distinct ∧ ∀ k, c.trim.refcount k = c.refcount k := h.evict c.budget

/-- A new entry has the references that are asked for, and it is not evicted if there are any. -/
theorem Distinct.add (h : c.Distinct) (about : ArtifactMeta) (missing : c.find? about.hash = none)
    (bytes : Option (List UInt8)) (n : Nat) :
    (c.add about bytes n).trim.Distinct ∧
      ∀ k, (c.add about bytes n).trim.refcount k =
        c.refcount k + if k = about.hash then n else 0 := by
  have added : (c.add about bytes n).Distinct := h.put ⟨about, n, bytes⟩
  obtain ⟨distinct, trimmed⟩ := added.trim
  refine ⟨distinct, fun k => ?_⟩
  have here : (c.add about bytes n).refcount k = if k = about.hash then n else c.refcount k :=
    refcount_put c ⟨about, n, bytes⟩ k
  rw [trimmed k, here]
  by_cases own : k = about.hash
  · simp [own, refcount, missing]
  · simp [own]

theorem insert_cases (c : Cache) (h : ContentHash) (bytes : List UInt8) (origin backend : String)
    (n now : Nat) :
    (∃ e, c.find? h = some e ∧ c.insert h bytes origin backend n now =
      (c.put { e with refcount := e.refcount + n }, some false)) ∨
    (c.find? h = none ∧ ∃ files kept, c.insert h bytes origin backend n now =
      (({ c with directory := files }.add (.ofBytes h bytes origin backend now) kept n).trim,
        some true)) ∨
    ∃ files, c.insert h bytes origin backend n now = ({ c with directory := files }, none) := by
  unfold insert
  cases c.find? h with
  | some e => exact Or.inl ⟨e, rfl, rfl⟩
  | none =>
      refine Or.inr ?_
      dsimp only
      cases place : c.directory with
      | none => exact Or.inl ⟨rfl, c.directory, some bytes, rfl⟩
      | some d =>
          dsimp only
          rcases d.perform (Directory.storing (.ofBytes h bytes origin backend now) bytes) with
            ⟨files, failed | done⟩
          · exact Or.inr ⟨some files, rfl⟩
          · exact Or.inl ⟨rfl, some files, none, rfl⟩

/-- An artifact is stored, or it was there, with so many references more; or a file operation
failed, and nothing is referenced. -/
theorem Distinct.insert (h : c.Distinct) (hash : ContentHash) (bytes : List UInt8)
    (origin backend : String) (n now : Nat) :
    (c.insert hash bytes origin backend n now).1.Distinct ∧
      ∀ k, (c.insert hash bytes origin backend n now).1.refcount k = c.refcount k +
        if k = hash ∧ (c.insert hash bytes origin backend n now).2.isSome then n else 0 := by
  rcases insert_cases c hash bytes origin backend n now with
    ⟨e, found, inserted⟩ | ⟨missing, files, kept, inserted⟩ | ⟨files, inserted⟩
  · obtain ⟨_, rfl⟩ := find?_eq_some found
    rw [inserted]
    refine ⟨h.put _, fun k => ?_⟩
    rw [refcount_put]
    change (if k = e.hash then e.refcount + n else c.refcount k) = _
    by_cases own : k = e.hash
    · simp [own, refcount_of_found found]
    · simp [own]
  · rw [inserted]
    let written := { c with directory := files }
    have distinct : written.Distinct := h
    obtain ⟨added, counts⟩ :=
      distinct.add (.ofBytes hash bytes origin backend now) missing kept n
    refine ⟨added, fun k => (counts k).trans ?_⟩
    simp only [Option.isSome_some, and_true]
    rfl
  · rw [inserted]
    exact ⟨h, fun k => by simp [refcount, find?]⟩

/-- A lookup finds an artifact, or it drops the entry, if there is one. -/
theorem lookup_cases (c : Cache) (h : ContentHash) :
    (∃ e artifact, c.find? h = some e ∧
      c.lookup h = ({ c.put e with hits := c.hits + 1 }, some artifact)) ∨
    c.lookup h = ({ (c.remove h).1 with misses := (c.remove h).1.misses + 1 }, none) := by
  unfold lookup
  cases found : c.find? h with
  | none => exact Or.inr (by rw [remove_of_missing found])
  | some e =>
      dsimp only
      cases c.read? e with
      | some bytes => exact Or.inl ⟨e, _, rfl, rfl⟩
      | none => exact Or.inr rfl

theorem Distinct.lookup (h : c.Distinct) (hash : ContentHash) :
    (c.lookup hash).1.Distinct ∧
      ∀ k, (c.lookup hash).1.refcount k =
        if k = hash ∧ (c.lookup hash).2.isNone then 0 else c.refcount k := by
  rcases lookup_cases c hash with ⟨e, artifact, found, looked⟩ | looked
  · obtain ⟨_, rfl⟩ := find?_eq_some found
    rw [looked]
    refine ⟨h.put e, fun k => (refcount_put c e k).trans ?_⟩
    by_cases own : k = e.hash
    · simp [own, refcount_of_found found]
    · simp [own]
  · rw [looked]
    refine ⟨h.remove hash, fun k => (refcount_remove c hash k).trans ?_⟩
    simp

theorem Distinct.acquire (h : c.Distinct) (hash : ContentHash) :
    (c.acquire hash).1.Distinct ∧
      ∀ k, (c.acquire hash).1.refcount k =
        c.refcount k + if k = hash ∧ (c.acquire hash).2 then 1 else 0 := by
  refine ⟨h.recount hash (· + 1), fun k => (refcount_modify hash (· + 1) k).trans ?_⟩
  unfold Cache.acquire
  by_cases own : k = hash
  · subst own
    by_cases present : c.contains k <;> simp [present]
  · simp [own]

theorem Distinct.release (h : c.Distinct) (hash : ContentHash) :
    (c.release hash).Distinct ∧
      ∀ k, (c.release hash).refcount k = c.refcount k - if k = hash then 1 else 0 := by
  obtain ⟨after, same⟩ := (h.recount hash fun n => n - 1).trim
  refine ⟨after, fun k => (same k).trans ((refcount_modify hash _ k).trans ?_)⟩
  by_cases own : k = hash
  · subst own
    cases present : c.contains k with
    | true => simp
    | false => simp [refcount_of_missing present]
  · simp [own]

theorem Distinct.invalidate (h : c.Distinct) (hash : ContentHash) :
    (c.invalidate hash).1.Distinct ∧
      ∀ k, (c.invalidate hash).1.refcount k = c.refcount k := by
  unfold Cache.invalidate
  cases found : c.find? hash with
  | none => exact ⟨h, fun _ => rfl⟩
  | some e =>
      dsimp only
      by_cases unreferenced : e.refcount = 0
      · rw [if_pos unreferenced]
        refine ⟨h.remove hash, fun k => ?_⟩
        rw [refcount_remove]
        by_cases own : k = hash
        · simp [own, refcount_of_found found, unreferenced]
        · simp [own]
      · rw [if_neg unreferenced]
        exact ⟨h, fun _ => rfl⟩

/-! ## Opening a directory -/

theorem Distinct.adopted (found : List ArtifactMeta) (h : c.Distinct)
    (unreferenced : ∀ k, c.refcount k = 0) :
    (found.foldl adopt c).Distinct ∧ ∀ k, (found.foldl adopt c).refcount k = 0 := by
  induction found generalizing c with
  | nil => exact ⟨h, unreferenced⟩
  | cons about found ih =>
      refine ih (c := c.adopt about) (h.put _) fun k => ?_
      refine (refcount_put c ⟨about, 0, none⟩ k).trans ?_
      split
      · rfl
      · exact unreferenced k

/-- Whatever a directory holds, nothing is referenced when it is opened. -/
theorem distinct_ofDirectory (d : Directory) (budget : Nat) :
    (ofDirectory d budget).Distinct ∧ ∀ k, (ofDirectory d budget).refcount k = 0 := by
  unfold ofDirectory
  dsimp only
  have empty : (new (some (d.names.foldl scanName ({ d with present := true }, [])).1)
    budget).Distinct := List.nodup_nil
  obtain ⟨distinct, unreferenced⟩ := empty.adopted
    ((d.names.foldl scanName ({ d with present := true }, [])).2.mergeSort
      fun a b => decide (a.createdAt ≤ b.createdAt)) fun _ => rfl
  obtain ⟨trimmed, same⟩ := distinct.trim
  exact ⟨trimmed, fun k => (same k).trans (unreferenced k)⟩

end Cache

namespace Ledger

/-! ## What happens to a cache in a directory -/

inductive Event where
  | use (action : Action)
  /-- The files are changed from outside, in any way. -/
  | damage (files : Directory)

def opened (files : Directory) (budget : Nat) : Ledger := ⟨.ofDirectory files budget, []⟩

def happen (l : Ledger) : Event → Ledger
  | .use action => l.step action
  | .damage files =>
      { l with cache := { l.cache with directory := l.cache.directory.map fun _ => files } }

def history (l : Ledger) (events : List Event) : Ledger := events.foldl happen l

theorem history_append (l : Ledger) (first more : List Event) :
    l.history (first ++ more) = (l.history first).history more := List.foldl_append

/-- The cache has an entry for a hash as long as references to it are held, and counts them. -/
def Keeps (l : Ledger) (h : ContentHash) : Prop :=
  l.cache.refcount h = l.held.count h ∧ (h ∈ l.held → l.cache.contains h)

theorem keeps_of_refcount {l : Ledger} {h : ContentHash}
    (counted : l.cache.refcount h = l.held.count h) : l.Keeps h := by
  refine ⟨counted, fun held => ?_⟩
  have referenced : 0 < l.cache.refcount h := by
    rw [counted]
    exact List.count_pos_iff.mpr held
  obtain ⟨e, found⟩ := Cache.found_of_refcount referenced
  simp [Cache.contains, found]

/-- References are taken and given back together in the cache and in the ledger, unless a lookup
fails: then the cache forgets them. -/
theorem step_counts {l : Ledger} (distinct : l.cache.Distinct) (a : Action) :
    (l.step a).cache.Distinct ∧ ∀ k,
      (∃ taken given, (l.step a).cache.refcount k = l.cache.refcount k + taken - given ∧
        (l.step a).references k = l.references k + taken - given) ∨
      (a = .lookup k ∧ (l.cache.lookup k).2.isNone ∧ (l.step a).cache.refcount k = 0 ∧
        (l.step a).references k = l.references k) := by
  cases a with
  | store hash bytes origin backend now =>
      obtain ⟨after, counts⟩ := distinct.insert hash bytes origin backend 0 now
      exact ⟨after, fun k => Or.inl ⟨_, 0, counts k, by simp [Ledger.step, references]⟩⟩
  | storeAndAcquire hash bytes origin backend now =>
      obtain ⟨after, counts⟩ := distinct.insert hash bytes origin backend 1 now
      refine ⟨after, fun k => Or.inl ⟨_, 0, counts k, ?_⟩⟩
      let stored := l.cache.storeAndAcquire hash bytes origin backend now
      refine (congrFun (references_note l stored.1 hash stored.2.isSome) k).trans ?_
      by_cases own : k = hash <;> simp [Cache.more, own, stored, Cache.storeAndAcquire]
  | acquire hash =>
      obtain ⟨after, counts⟩ := distinct.acquire hash
      refine ⟨after, fun k => Or.inl ⟨_, 0, counts k, ?_⟩⟩
      let acquired := l.cache.acquire hash
      refine (congrFun (references_note l acquired.1 hash acquired.2) k).trans ?_
      by_cases own : k = hash <;> simp [Cache.more, own, acquired]
  | release hash =>
      obtain ⟨after, counts⟩ := distinct.release hash
      exact ⟨after, fun k => Or.inl ⟨0, _, counts k, congrFun (references_erase l hash) k⟩⟩
  | lookup hash =>
      obtain ⟨after, counts⟩ := distinct.lookup hash
      refine ⟨after, fun k => ?_⟩
      have count : (l.step (.lookup hash)).cache.refcount k = _ := counts k
      by_cases failed : k = hash ∧ (l.cache.lookup hash).2.isNone
      · rw [if_pos failed] at count
        obtain ⟨rfl, missed⟩ := failed
        exact Or.inr ⟨rfl, missed, count, rfl⟩
      · rw [if_neg failed] at count
        exact Or.inl ⟨0, 0, count, rfl⟩
  | invalidate hash =>
      obtain ⟨after, same⟩ := distinct.invalidate hash
      exact ⟨after, fun k => Or.inl ⟨0, 0, same k, rfl⟩⟩
  | evict target =>
      obtain ⟨after, same⟩ := distinct.evict target
      exact ⟨after, fun k => Or.inl ⟨0, 0, same k, rfl⟩⟩

/-! ## Histories -/

/-- What every event preserves, whatever becomes of the files. -/
structure Sound (l : Ledger) : Prop where
  distinct : l.cache.Distinct
  refcount_le : ∀ h, l.cache.refcount h ≤ l.references h

theorem sound_opened (files : Directory) (budget : Nat) : (opened files budget).Sound := by
  obtain ⟨distinct, unreferenced⟩ := Cache.distinct_ofDirectory files budget
  exact ⟨distinct, fun h => Nat.le_of_eq (unreferenced h)⟩

theorem Sound.happen {l : Ledger} (h : l.Sound) (e : Event) : (l.happen e).Sound := by
  cases e with
  | damage files => exact ⟨h.distinct, h.refcount_le⟩
  | use a =>
      obtain ⟨distinct, counts⟩ := step_counts h.distinct a
      refine ⟨distinct, fun k => ?_⟩
      change (l.step a).cache.refcount k ≤ (l.step a).references k
      have before := h.refcount_le k
      rcases counts k with ⟨taken, given, cache, ledger⟩ | ⟨_, _, forgotten, _⟩
      · omega
      · omega

theorem Sound.history {l : Ledger} (h : l.Sound) (events : List Event) :
    (l.history events).Sound := by
  induction events generalizing l with
  | nil => exact h
  | cons e events ih => exact ih (h.happen e)

/-- The count of one hash stays right in every event but a failed lookup while it is held. -/
theorem Sound.counted {l : Ledger} (h : l.Sound) {k : ContentHash}
    (counted : l.cache.refcount k = l.references k) (e : Event)
    (whole : e = .use (.lookup k) → k ∈ l.held → (l.cache.lookup k).2.isSome) :
    (l.happen e).cache.refcount k = (l.happen e).references k := by
  cases e with
  | damage files => exact counted
  | use a =>
      change (l.step a).cache.refcount k = (l.step a).references k
      rcases (step_counts h.distinct a).2 k with
        ⟨taken, given, cache, ledger⟩ | ⟨rfl, missed, forgotten, kept⟩
      · rw [cache, ledger, counted]
      · have unheld : k ∉ l.held := by
          intro held
          have found := whole rfl held
          rw [Option.isNone_iff_eq_none] at missed
          simp [missed] at found
        rw [forgotten, kept]
        exact (List.count_eq_zero.mpr unheld).symm

/-- A cache in a directory, opened on any files and used and damaged in any way, never has more
references to an artifact than are held.  It keeps an artifact, with all of its references, as
long as no lookup finds the file of it missing or damaged while it is referenced, and no
longer. -/
theorem history_keeps_iff (files : Directory) (budget : Nat) (events : List Event) :
    let start := opened files budget
    (∀ h, (start.history events).cache.refcount h ≤ (start.history events).held.count h) ∧
    ∀ h, (∀ before, before <+: events → (start.history before).Keeps h) ↔
      ∀ before, before ++ [.use (.lookup h)] <+: events → h ∈ (start.history before).held →
        ((start.history before).cache.lookup h).2.isSome := by
  intro start
  have sound : ∀ events, (start.history events).Sound := (sound_opened files budget).history
  have next (before : List Event) (e : Event) :
      start.history (before ++ [e]) = (start.history before).happen e := history_append ..
  refine ⟨(sound events).refcount_le, fun h => ⟨fun keeps before within held => ?_,
    fun whole before within => keeps_of_refcount ?_⟩⟩
  · -- a lookup that failed would have left no references to count
    by_contra failed
    have missed : ((start.history before).cache.lookup h).2.isNone := by
      simpa using failed
    have after := (keeps _ within).1
    have count := ((sound before).distinct.lookup h).2 h
    rw [if_pos ⟨rfl, missed⟩] at count
    rw [next] at after
    have none_left : (start.history before).held.count h = 0 := after.symm.trans count
    exact List.count_eq_zero.mp none_left held
  · induction before using List.reverseRecOn with
    | nil => exact (Cache.distinct_ofDirectory files budget).2 h
    | append_singleton before e ih =>
        have counted := ih ((List.prefix_append _ _).trans within)
        rw [next]
        refine (sound before).counted counted e fun looked held => ?_
        subst looked
        exact whole before within held

section LostFile

def anyHash : ContentHash := ⟨[1]⟩

/-- The file is lost while a reference is held, and nobody looks for it after that. -/
def unnoticed : List Event :=
  [.use (.storeAndAcquire anyHash [0] "m@1" "test" 1), .use (.lookup anyHash), .damage .missing,
    .use (.acquire anyHash), .use (.release anyHash), .use (.evict 0)]

theorem history_keeps_iff_unnoticed :
    (∀ before, before ++ [.use (.lookup anyHash)] <+: unnoticed →
      anyHash ∈ ((opened .empty 100).history before).held →
        (((opened .empty 100).history before).cache.lookup anyHash).2.isSome) ∧
    ∀ before, before <+: unnoticed → ((opened .empty 100).history before).Keeps anyHash := by
  have whole : ∀ before, before ++ [.use (.lookup anyHash)] <+: unnoticed →
      anyHash ∈ ((opened .empty 100).history before).held →
        (((opened .empty 100).history before).cache.lookup anyHash).2.isSome := by
    intro before ⟨rest, split⟩ held
    rcases before with _ | ⟨first, _ | ⟨second, before⟩⟩
    · simp [unnoticed] at split
    · have first_eq := (List.cons.inj split).1
      rw [first_eq]
      decide +kernel
    · have later : before ++ [.use (.lookup anyHash)] ++ rest = unnoticed.tail.tail :=
        (List.cons.inj (List.cons.inj split).2).2
      have mem : .use (.lookup anyHash) ∈ before ++ [.use (.lookup anyHash)] ++ rest := by simp
      rw [later] at mem
      simp [unnoticed] at mem
  exact ⟨whole, ((history_keeps_iff .empty 100 unnoticed).2 anyHash).mpr whole⟩

/-- Nothing is given back that is not held. -/
def Matched : Ledger → List Event → Prop
  | _, [] => True
  | l, e :: events => (∀ h, e = .use (.release h) → h ∈ l.held) ∧ Matched (l.happen e) events

/-- The file is lost while one user holds a reference, a lookup notices, and the artifact is stored
anew for another user.  What the first one gives back is the reference of the second, whose
artifact is then evicted. -/
def noticed : List Event :=
  [.use (.storeAndAcquire anyHash [0] "m@1" "test" 1), .damage .empty, .use (.lookup anyHash),
    .use (.storeAndAcquire anyHash [0] "m@1" "test" 2), .use (.release anyHash), .use (.evict 0)]

theorem not_always_kept :
    ¬ ∀ (files : Directory) (budget : Nat) (events : List Event),
      (opened files budget).Matched events →
        ∀ h, ((opened files budget).history events).Keeps h := by
  intro always
  have matched : (opened .empty 100).Matched noticed := by
    simp only [noticed, Matched, Event.use.injEq, Action.release.injEq, reduceCtorEq,
      false_implies, implies_true, and_true, true_and, forall_eq']
    decide +kernel
  have kept := (always .empty 100 noticed matched anyHash).2
  have held : anyHash ∈ ((opened .empty 100).history noticed).held := by decide +kernel
  have gone : ((opened .empty 100).history noticed).cache.contains anyHash = false := by
    decide +kernel
  rw [kept held] at gone
  cases gone

end LostFile

end Ledger

end TieredUdf
