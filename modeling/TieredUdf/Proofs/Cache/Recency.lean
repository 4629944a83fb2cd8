import Mathlib.Data.List.Dedup
import Mathlib.Data.List.Perm.Subperm
import TieredUdf.Proofs.Cache.FirstStore
import TieredUdf.Proofs.Cache.Opening

/-! # The order of eviction

An eviction takes the unreferenced entries in their order, and no more of them than it has to.
The entries stand in the order in which they were touched last: by a lookup that found the artifact
or by a store.  Taking references and giving them back touches nothing.  All of this holds of a
cache in memory and in a directory, whatever becomes of its files.
-/

namespace TieredUdf

namespace Cache

variable {c d : Cache} {surplus : Nat}

/-! ## Eviction in order -/

/-- What an eviction leaves when it may take some entries in a given order, and which of them are
gone after it. -/
structure EvictsFirst (c : Cache) (target : Nat) (order gone : List CacheEntry) (d : Cache)
    (freed : Nat) : Prop where
  first : gone <+: order
  /-- The others stay, in their order, with their references and artifacts. -/
  rest : d.entries = c.entries.filter fun e => decide (e ∉ gone)
  readable : ∀ e ∈ d.entries, d.read? e = c.read? e
  freed_eq : freed = bytesOf gone
  total_eq : d.totalBytes + freed = c.totalBytes
  enough : d.totalBytes ≤ target ∨ gone = order
  /-- With fewer of them gone the target is not met. -/
  shortest : ∀ fewer, fewer <+: gone → fewer ≠ gone → target < c.totalBytes - bytesOf fewer
  evictions : d.evictions = c.evictions + gone.length
  hits : d.hits = c.hits
  misses : d.misses = c.misses
  stores : d.stores = c.stores
  budget : d.budget = c.budget

theorem EvictsFirst.nothing (target : Nat) {order : List CacheEntry}
    (enough : c.totalBytes ≤ target ∨ [] = order) : c.EvictsFirst target order [] c 0 where
  first := List.nil_prefix
  rest := by simp
  readable := fun _ _ => rfl
  freed_eq := rfl
  total_eq := rfl
  enough := enough
  shortest := fun fewer within proper => absurd (List.prefix_nil.mp within) proper
  evictions := rfl
  hits := rfl
  misses := rfl
  stores := rfl
  budget := rfl

/-- An entry that is evicted. -/
def drop (c : Cache) (e : CacheEntry) : Cache :=
  { (c.remove e.hash).1 with evictions := (c.remove e.hash).1.evictions + 1 }

theorem Distinct.entries_drop (h : c.Distinct) {e : CacheEntry} (he : e ∈ c.entries) :
    (c.drop e).entries = c.entries.filter fun x => decide (x ≠ e) := by
  unfold drop
  rw [remove_of_found (find?_of_mem h he)]
  refine List.filter_congr fun x hx => ?_
  rw [bne_eq, Bool.eq_iff_iff, Bool.not_eq_true', beq_eq_false_iff_ne, decide_eq_true_iff]
  exact not_congr ⟨fun same => List.inj_on_of_nodup_map h hx he same, congrArg _⟩

theorem Counted.drop (h : c.Counted surplus) {e : CacheEntry} (he : e ∈ c.entries) :
    (c.drop e).Counted surplus ∧ (c.drop e).totalBytes + e.about.size = c.totalBytes := by
  have removed := h.remove e.hash
  refine ⟨⟨removed.distinct, removed.total_eq⟩, ?_⟩
  have total := h.total_eq
  have parts := h.distinct.bytesOf_eq he
  unfold Cache.drop
  rw [remove_of_found (find?_of_mem h.distinct he)]
  dsimp only
  omega

theorem EvictsFirst.cons {target freed : Nat} {e : CacheEntry} {order gone : List CacheEntry}
    (h : c.Counted surplus) (he : e ∈ c.entries) (above : target < c.totalBytes)
    (more : (c.drop e).EvictsFirst target order gone d freed) :
    c.EvictsFirst target (e :: order) (e :: gone) d (e.about.size + freed) := by
  have counted := (h.drop he).2
  have entries := h.distinct.entries_drop he
  obtain ⟨hits, misses, stores, evictions⟩ := counters_remove c e.hash
  refine
    { first := List.cons_prefix_cons.mpr ⟨rfl, more.first⟩, rest := ?_, readable := fun x hx => ?_,
      freed_eq := ?_, total_eq := ?_, enough := more.enough.imp_right (congrArg _),
      shortest := fun fewer within proper => ?_, evictions := ?_, hits := more.hits.trans hits,
      misses := more.misses.trans misses, stores := more.stores.trans stores, budget := ?_ }
  · rw [more.rest, entries, List.filter_filter]
    refine List.filter_congr fun x _ => ?_
    simp [Bool.and_comm]
  · have left : x ∈ c.entries ∧ x ≠ e := by
      have mem := hx
      rw [more.rest, entries] at mem
      simpa using (List.mem_filter.mp mem).1
    have other : x.hash ≠ e.hash := fun same =>
      left.2 (List.inj_on_of_nodup_map h.distinct left.1 he same)
    exact (more.readable x hx).trans (read?_remove c other)
  · rw [bytesOf_cons, more.freed_eq]
  · have total := more.total_eq
    omega
  · -- with none of them gone the target is not met, and once the first is gone the others decide
    cases fewer with
    | nil => exact above
    | cons x fewer =>
        obtain ⟨rfl, shorter⟩ := List.cons_prefix_cons.mp within
        have short := more.shortest fewer shorter fun same => proper (congrArg _ same)
        rw [bytesOf_cons]
        omega
  · have counter : d.evictions = (c.remove e.hash).1.evictions + 1 + gone.length := more.evictions
    rw [counter, evictions, List.length_cons]
    omega
  · refine more.budget.trans ?_
    unfold drop
    rw [remove_of_found (find?_of_mem h.distinct he)]

theorem Counted.evictEach (h : c.Counted surplus) (target : Nat) {order : List CacheEntry}
    (within : order.Sublist c.entries) : ∃ gone, c.EvictsFirst target order gone
      (evictEach target (order.map CacheEntry.hash) c).1
      (evictEach target (order.map CacheEntry.hash) c).2 := by
  -- the cache is general, because every removal changes the entries and the total
  induction order generalizing c with
  | nil => exact ⟨[], .nothing target (Or.inr rfl)⟩
  | cons e order ih =>
      rw [List.map_cons]
      unfold Cache.evictEach
      by_cases met : c.totalBytes ≤ target
      · rw [if_pos met]
        exact ⟨[], .nothing target (Or.inl met)⟩
      · rw [if_neg met]
        have he : e ∈ c.entries := within.subset List.mem_cons_self
        have left : order.Sublist (c.drop e).entries := by
          have others := within.filter fun x => decide (x ≠ e)
          have apart := (List.nodup_cons.mp (h.distinct.of_map.sublist within)).1
          rw [List.filter_cons_of_neg (by simp), List.filter_eq_self.mpr ?_] at others
          · rwa [h.distinct.entries_drop he]
          · exact fun x hx => decide_eq_true fun same => apart (same ▸ hx)
        obtain ⟨gone, more⟩ := ih (h.drop he).1 left
        have size : (c.remove e.hash).2 = e.about.size := by
          rw [remove_of_found (find?_of_mem h.distinct he)]
        have both := more.cons h he (Nat.lt_of_not_le met)
        rw [← size] at both
        exact ⟨e :: gone, both⟩

/-- The entries without references, the least recently used one first. -/
def unreferenced (c : Cache) : List CacheEntry := c.entries.filter fun e => e.refcount == 0

theorem Counted.evictsFirst (h : c.Counted surplus) (target : Nat) : ∃ gone,
    c.EvictsFirst target c.unreferenced gone (c.evict target).1 (c.evict target).2 :=
  h.evictEach target List.filter_sublist

/-! ## The order of the entries -/

/-- The last mention of each is kept, in order. -/
theorem dedup_concat {α : Type} [DecidableEq α] (seen : List α) (a : α) :
    (seen ++ [a]).dedup = (seen.dedup.filter fun b => b != a) ++ [a] := by
  induction seen with
  | nil => rfl
  | cons b seen ih =>
      rw [List.cons_append, List.dedup_cons, List.dedup_cons, ih]
      by_cases same : b = a
      · subst same
        by_cases mem : b ∈ seen <;> simp [mem]
      · by_cases mem : b ∈ seen <;> simp [mem, same]

/-- The entries stand in the order of the last mentions of their hashes. -/
structure Ordered (c : Cache) (surplus : Nat) (seen : List ContentHash) : Prop
    extends c.Counted surplus where
  recent : c.hashes.Sublist seen.dedup

variable {seen : List ContentHash}

/-- The order says it all, since no hash stands in it twice. -/
theorem Ordered.hashes_eq (h : c.Ordered surplus seen) :
    c.hashes = seen.dedup.filter c.contains := by
  have within := h.recent.filter c.contains
  rw [List.filter_eq_self.mpr fun k hk => mem_hashes.mp hk] at within
  -- a part of the order that is as long as the whole
  refine within.eq_of_length_le (List.Subperm.length_le ?_)
  refine List.subperm_of_subset (seen.nodup_dedup.filter _) fun k hk => ?_
  exact mem_hashes.mpr (List.mem_filter.mp hk).2

theorem Counted.ordered (h : c.Counted surplus) : c.Ordered surplus c.hashes where
  toCounted := h
  recent := by
    have distinct : c.hashes.Nodup := h.distinct
    rw [distinct.dedup]

theorem Ordered.like (h : c.Ordered surplus seen) (entries : d.entries = c.entries)
    (total : d.totalBytes = c.totalBytes) : d.Ordered surplus seen := by
  refine ⟨⟨?_, ?_⟩, ?_⟩
  · unfold Distinct
    rw [entries]
    exact h.distinct
  · rw [entries, total]
    exact h.total_eq
  · rw [hashes, entries]
    exact h.recent

/-- What is put last is what was touched last. -/
theorem Ordered.put (h : c.Ordered surplus seen) {e : CacheEntry}
    (entries : d.entries = (c.put e).entries)
    (total : d.totalBytes = bytesOf (without e.hash c.entries) + e.about.size + surplus) :
    d.Ordered surplus (seen ++ [e.hash]) := by
  refine ⟨⟨?_, ?_⟩, ?_⟩
  · have distinct := h.distinct.put e
    unfold Distinct at distinct ⊢
    rwa [entries]
  · rw [total, entries, Cache.put, bytesOf_append, bytesOf_cons]
    rfl
  · have others := h.recent.filter fun k => k != e.hash
    rw [hashes, List.filter_map] at others
    rw [dedup_concat, hashes, entries, Cache.put, List.map_append]
    exact others.append (.refl _)

theorem Ordered.touch (h : c.Ordered surplus seen) {e after : CacheEntry} (he : e ∈ c.entries)
    (about : after.about = e.about) (entries : d.entries = (c.put after).entries)
    (total : d.totalBytes = c.totalBytes) : d.Ordered surplus (seen ++ [e.hash]) := by
  have same : after.hash = e.hash := congrArg ArtifactMeta.hash about
  rw [← same]
  refine h.put entries ?_
  rw [total, h.total_eq, same, about, h.distinct.bytesOf_eq he]
  omega

theorem Ordered.add (h : c.Ordered surplus seen) {about : ArtifactMeta}
    (missing : c.find? about.hash = none) (bytes : Option (List UInt8)) (n : Nat) :
    (c.add about bytes n).Ordered surplus (seen ++ [about.hash]) := by
  refine h.put (e := ⟨about, n, bytes⟩) rfl ?_
  change c.totalBytes + about.size = bytesOf (without about.hash c.entries) + about.size + surplus
  rw [without_of_missing missing, h.total_eq]
  omega

theorem Ordered.remove (h : c.Ordered surplus seen) (k : ContentHash) :
    (c.remove k).1.Ordered surplus seen := by
  refine ⟨h.toCounted.remove k, List.Sublist.trans ?_ h.recent⟩
  cases found : c.find? k with
  | none => rw [remove_of_missing found]
  | some e =>
      rw [remove_of_found found]
      exact List.filter_sublist.map _

theorem Ordered.evict (h : c.Ordered surplus seen) (target : Nat) :
    (c.evict target).1.Ordered surplus seen :=
  evictEach_preserves (P := fun d => d.Ordered surplus seen) target
    (fun _ k _ ordered => (ordered.remove k).like rfl rfl) h

theorem Ordered.recount (h : c.Ordered surplus seen) (k : ContentHash) (f : Nat → Nat) :
    (c.modify k (recount f)).Ordered surplus seen := by
  refine ⟨⟨h.distinct.recount k f, ?_⟩, ?_⟩
  · rw [bytesOf_modify c k (f := Cache.recount f) fun _ => rfl]
    exact h.total_eq
  · rw [hashes, hashes_modify c k (f := Cache.recount f) fun _ => rfl]
    exact h.recent

/-- An artifact that is stored, or found to be stored already, is the last one touched. -/
theorem Ordered.insert (h : c.Ordered surplus seen) (hash : ContentHash) (bytes : List UInt8)
    (origin backend : String) (n now : Nat) :
    (c.insert hash bytes origin backend n now).1.Ordered surplus
      (seen ++ if (c.insert hash bytes origin backend n now).2.isSome then [hash] else []) := by
  rcases insert_cases c hash bytes origin backend n now with
    ⟨e, found, inserted⟩ | ⟨missing, files, kept, inserted⟩ | ⟨files, inserted⟩
  · obtain ⟨he, rfl⟩ := find?_eq_some found
    rw [inserted]
    let after : CacheEntry := { e with refcount := e.refcount + n }
    have about : after.about = e.about := rfl
    exact h.touch he about rfl rfl
  · rw [inserted]
    have written := h.like (d := { c with directory := files }) rfl rfl
    let about := ArtifactMeta.ofBytes hash bytes origin backend now
    have unknown : { c with directory := files }.find? about.hash = none := missing
    exact (written.add unknown kept n).evict _
  · rw [inserted]
    simpa using h.like (d := { c with directory := files }) rfl rfl

/-- A lookup touches what it finds. -/
theorem Ordered.lookup (h : c.Ordered surplus seen) (hash : ContentHash) :
    (c.lookup hash).1.Ordered surplus
      (seen ++ if (c.lookup hash).2.isSome then [hash] else []) := by
  rcases lookup_cases c hash with ⟨e, artifact, found, looked⟩ | looked
  · obtain ⟨he, rfl⟩ := find?_eq_some found
    rw [looked]
    exact h.touch he rfl rfl rfl
  · rw [looked]
    have dropped := (h.remove hash).like
      (d := { (c.remove hash).1 with misses := (c.remove hash).1.misses + 1 }) rfl rfl
    simpa using dropped

theorem Ordered.invalidate (h : c.Ordered surplus seen) (hash : ContentHash) :
    (c.invalidate hash).1.Ordered surplus seen := by
  unfold Cache.invalidate
  split
  · split
    · exact h.remove hash
    · exact h
  · exact h

end Cache

namespace Ledger

/-! ## Touches -/

/-- A ledger of a cache that has just been made, in memory or of the files of a directory. -/
def begun (place : Option Directory) (budget : Nat) : Ledger :=
  match place with
  | none => fresh budget
  | some files => opened files budget

/-- What an event touches: what is found by a lookup, stored or found to be stored already. -/
def touched (l : Ledger) : Event → List ContentHash
  | .use (.store h bytes origin backend now) =>
      if (l.cache.store h bytes origin backend now).2.isSome then [h] else []
  | .use (.storeAndAcquire h bytes origin backend now) =>
      if (l.cache.storeAndAcquire h bytes origin backend now).2.isSome then [h] else []
  | .use (.lookup h) => if (l.cache.lookup h).2.isSome then [h] else []
  | .use (.acquire _) | .use (.release _) | .use (.invalidate _) | .use (.evict _) | .damage _ => []

def touches : Ledger → List Event → List ContentHash
  | _, [] => []
  | l, e :: events => l.touched e ++ (l.happen e).touches events

theorem ordered_happen {l : Ledger} {surplus : Nat} {seen : List ContentHash}
    (h : l.cache.Ordered surplus seen) (e : Event) :
    (l.happen e).cache.Ordered surplus (seen ++ l.touched e) := by
  cases e with
  | damage files =>
      rw [touched, List.append_nil]
      exact h.like rfl rfl
  | use a =>
      cases a with
      | store hash bytes origin backend now => exact h.insert hash bytes origin backend 0 now
      | storeAndAcquire hash bytes origin backend now =>
          exact h.insert hash bytes origin backend 1 now
      | lookup hash => exact h.lookup hash
      | acquire hash =>
          rw [touched, List.append_nil]
          exact h.recount hash (· + 1)
      | release hash =>
          rw [touched, List.append_nil]
          exact (h.recount hash fun n => n - 1).evict _
      | invalidate hash =>
          rw [touched, List.append_nil]
          exact h.invalidate hash
      | evict target =>
          rw [touched, List.append_nil]
          exact h.evict target

theorem ordered_history {l : Ledger} {surplus : Nat} {seen : List ContentHash}
    (h : l.cache.Ordered surplus seen) (events : List Event) :
    (l.history events).cache.Ordered surplus (seen ++ l.touches events) := by
  induction events generalizing l seen with
  | nil => simpa [history, touches] using h
  | cons e events ih =>
      have more := ih (ordered_happen h e)
      rw [List.append_assoc] at more
      exact more

theorem counted_begun (place : Option Directory) (budget : Nat) :
    (begun place budget).cache.Counted ((place.map Directory.surplus).getD 0) := by
  cases place with
  | none => exact ⟨List.nodup_nil, rfl⟩
  | some files => exact (Cache.openedFrom_ofDirectory files budget).counted

/-- An eviction takes as few of the unreferenced entries as meet its target, all of them if none
do, in the order in which they stand; and in every state that a cache comes to, that is the order
of their last touches, after what was never touched since the cache was opened.  Nothing that
happens to a cache changes by how much it counts too many bytes. -/
theorem evicts_least_recent :
    (∀ (c : Cache) (surplus : Nat), c.Counted surplus → ∀ target, ∃ gone,
      c.EvictsFirst target c.unreferenced gone (c.evict target).1 (c.evict target).2) ∧
    ∀ place budget events,
      let start := begun place budget
      let reached := (start.history events).cache
      reached.Counted ((place.map Directory.surplus).getD 0) ∧
      reached.hashes =
        (start.cache.hashes ++ start.touches events).dedup.filter reached.contains := by
  refine ⟨fun c surplus counted => counted.evictsFirst, fun place budget events => ?_⟩
  have ordered := ordered_history (counted_begun place budget).ordered events
  exact ⟨ordered.toCounted, ordered.hashes_eq⟩

/-- Three artifacts, of which the second is referenced; the first is looked up, and a byte has to
go. -/
theorem evicts_least_recent_looked_up :
    let one : ContentHash := ⟨[1]⟩
    let two : ContentHash := ⟨[2]⟩
    let three : ContentHash := ⟨[3]⟩
    let events : List Event := [.use (.store one [0, 0] "a@1" "test" 1),
      .use (.storeAndAcquire two [0] "b@1" "test" 2), .use (.store three [0, 0, 0] "c@1" "test" 3),
      .use (.lookup one)]
    let c := ((begun none 6).history events).cache
    c.Counted 0 ∧ c.hashes = [two, three, one] ∧ (c.evict 5).1.hashes = [two, one] ∧
      ∃ gone, c.EvictsFirst 5 c.unreferenced gone (c.evict 5).1 (c.evict 5).2 := by
  intro one two three events c
  have counted : c.Counted 0 := (evicts_least_recent.2 none 6 events).1
  exact ⟨counted, by decide +kernel, by decide +kernel, evicts_least_recent.1 c 0 counted 5⟩

end Ledger

end TieredUdf
