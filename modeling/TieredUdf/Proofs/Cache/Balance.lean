import Mathlib.Algebra.Order.BigOperators.Group.List
import Mathlib.Algebra.Order.Group.Nat
import TieredUdf.Proofs.Cache.Entries

/-! # The books of a cache in memory

Whatever is done to a cache in memory, its counter of bytes agrees with its entries and its
reference counts with the references that are held; it is within its budget as far as references
allow; and an entry that is referenced afterwards is the one that was there before.
-/

namespace TieredUdf

namespace Cache

/-! ## The invariant -/

/-- The books of a cache in memory agree with the references that are held. -/
structure Holds (c : Cache) (held : ContentHash → Nat) : Prop where
  consistent : c.Consistent
  memory : c.directory = none
  stocked : ∀ e ∈ c.entries, ∃ bytes, e.bytes = some bytes ∧ e.about.size = bytes.length
  refcount_eq : ∀ h, c.refcount h = held h

/-- The cache is within its budget, unless only referenced entries are left. -/
def Within (c : Cache) : Prop := c.totalBytes ≤ c.budget ∨ ∀ e ∈ c.entries, 0 < e.refcount

/-- The books agree and the cache is as small as its references allow. -/
structure Balanced (c : Cache) (held : ContentHash → Nat) : Prop extends c.Holds held where
  within : c.Within

def more (held : ContentHash → Nat) (h : ContentHash) (n : Nat) : ContentHash → Nat :=
  fun k => held k + if k = h then n else 0

def fewer (held : ContentHash → Nat) (h : ContentHash) : ContentHash → Nat :=
  fun k => held k - if k = h then 1 else 0

theorem more_zero (held : ContentHash → Nat) (h : ContentHash) : more held h 0 = held := by
  funext k
  simp [more]

theorem fewer_more (held : ContentHash → Nat) (h : ContentHash) :
    fewer (more held h 1) h = held := by
  funext k
  unfold fewer more
  split <;> rfl

/-- An entry that was there before and is referenced afterwards is still the same one. -/
def Kept (c d : Cache) : Prop :=
  ∀ h e, c.find? h = some e → 0 < d.refcount h → ∃ n, d.find? h = some { e with refcount := n }

theorem balanced_inMemory (budget : Nat) : (inMemory budget).Balanced fun _ => 0 where
  consistent := ⟨List.nodup_nil, rfl⟩
  memory := rfl
  stocked := nofun
  refcount_eq := fun _ => rfl
  within := Or.inl (Nat.zero_le _)

variable {c d : Cache} {held : ContentHash → Nat}

theorem refcount_of_found {h : ContentHash} {e : CacheEntry} (found : c.find? h = some e) :
    c.refcount h = e.refcount := by
  rw [refcount, found]
  rfl

theorem kept_of_find? (same : ∀ h, d.find? h = c.find? h) : c.Kept d :=
  fun h e found _ => ⟨e.refcount, (same h).trans found⟩

theorem Kept.drops {e : Cache} (h : c.Kept d) (hd : d.Consistent) (k : d.Drops e) :
    c.Kept e := by
  intro hash x found referenced
  rw [k.refcount hd] at referenced
  obtain ⟨n, same⟩ := h hash x found referenced
  rw [refcount_of_found same] at referenced
  exact ⟨n, k.find?_referenced same referenced⟩

theorem found_of_refcount {h : ContentHash} (referenced : 0 < c.refcount h) :
    ∃ e, c.find? h = some e := by
  unfold refcount at referenced
  cases found : c.find? h with
  | some e => exact ⟨e, rfl⟩
  | none => simp [found] at referenced

/-! ## What operations preserve -/

theorem Holds.drops (h : c.Holds held) (drops : c.Drops d) : d.Holds held where
  consistent := drops.consistent
  memory := drops.memory h.memory
  stocked := fun e he => h.stocked e (drops.entries.subset he)
  refcount_eq := fun k => (drops.refcount h.consistent k).trans (h.refcount_eq k)

theorem Drops.totalBytes_le (hc : c.Consistent) (drops : c.Drops d) :
    d.totalBytes ≤ c.totalBytes := by
  rw [drops.consistent.total_eq, hc.total_eq]
  exact (drops.entries.map _).sum_le_sum fun _ _ => Nat.zero_le _

theorem Balanced.drops (h : c.Balanced held) (drops : c.Drops d) : d.Balanced held where
  toHolds := h.toHolds.drops drops
  within := by
    refine h.within.imp (fun small => ?_) fun all e he => all e (drops.entries.subset he)
    rw [drops.budget]
    exact Nat.le_trans (drops.totalBytes_le h.consistent) small

/-- Evicting down to the budget restores what an operation may have broken. -/
theorem Holds.trim (h : c.Holds held) : c.trim.Balanced held where
  toHolds := h.drops (drops_evict h.consistent c.budget)
  within := by
    have same : c.trim.budget = c.budget := (drops_evict h.consistent c.budget).budget
    rw [Within, same]
    exact evict_met h.consistent c.budget

theorem Balanced.evict (h : c.Balanced held) (target : Nat) : (c.evict target).1.Balanced held :=
  h.drops (drops_evict h.consistent target)

theorem mem_put {e x : CacheEntry} (hx : x ∈ (c.put e).entries) : x ∈ c.entries ∨ x = e := by
  rcases List.mem_append.mp hx with old | new
  · exact Or.inl (mem_without.mp old).1
  · exact Or.inr (List.mem_singleton.mp new)

/-- An entry is made the most recently used one, with so many references more. -/
theorem Balanced.touch (h : c.Balanced held) {hash : ContentHash} {e : CacheEntry}
    (found : c.find? hash = some e) (n : Nat) :
    (c.put { e with refcount := e.refcount + n }).Balanced (more held hash n) := by
  obtain ⟨he, rfl⟩ := find?_eq_some found
  refine ⟨⟨h.consistent.put he rfl, h.memory, fun x hx => ?_, fun k => ?_⟩, ?_⟩
  · rcases mem_put hx with old | rfl
    · exact h.stocked x old
    · exact h.stocked e he
  · rw [refcount, find?_put, more, ← h.refcount_eq k]
    change ((if k = e.hash then _ else _ : Option CacheEntry).map CacheEntry.refcount).getD 0 = _
    split
    · rename_i same
      rw [same, refcount_of_found found]
      rfl
    · rfl
  · refine h.within.imp id fun all x hx => ?_
    rcases mem_put hx with old | rfl
    · exact all x old
    · exact Nat.lt_add_right n (all e he)

theorem kept_touch {hash : ContentHash} {e : CacheEntry} (found : c.find? hash = some e) (n : Nat) :
    c.Kept (c.put { e with refcount := e.refcount + n }) := by
  intro k x before _
  obtain ⟨_, rfl⟩ := find?_eq_some found
  rw [find?_put]
  change ∃ m, (if k = e.hash then _ else _) = some { x with refcount := m }
  split
  · rename_i same
    rw [same, found] at before
    cases before
    exact ⟨_, rfl⟩
  · exact ⟨x.refcount, before⟩

theorem Holds.add (h : c.Holds held) {hash : ContentHash} (missing : c.find? hash = none)
    (bytes : List UInt8) (origin backend : String) (n now : Nat) :
    (c.add (.ofBytes hash bytes origin backend now) (some bytes) n).Holds (more held hash n) := by
  refine ⟨h.consistent.add missing _ _, h.memory, fun x hx => ?_, fun k => ?_⟩
  · rcases mem_put hx with old | rfl
    · exact h.stocked x old
    · exact ⟨bytes, rfl, rfl⟩
  · rw [refcount, find?_add, more, ← h.refcount_eq k]
    change ((if k = hash then _ else _ : Option CacheEntry).map CacheEntry.refcount).getD 0 = _
    split
    · rename_i same
      rw [same, refcount, missing]
      exact (Nat.zero_add n).symm
    · rfl

theorem kept_add {hash : ContentHash} (missing : c.find? hash = none) (bytes : List UInt8)
    (origin backend : String) (n now : Nat) :
    c.Kept (c.add (.ofBytes hash bytes origin backend now) (some bytes) n) := by
  intro k x before _
  rw [find?_add]
  change ∃ m, (if k = hash then _ else _) = some { x with refcount := m }
  split
  · rename_i same
    rw [same, missing] at before
    cases before
  · exact ⟨x.refcount, before⟩

/-- Storing in memory never fails, and it adds the references that are asked for, whether or not
there was an artifact already. -/
theorem Balanced.insert (h : c.Balanced held) (hash : ContentHash) (bytes : List UInt8)
    (origin backend : String) (n now : Nat) :
    (c.insert hash bytes origin backend n now).1.Balanced (more held hash n) ∧
      (c.insert hash bytes origin backend n now).2.isSome ∧
      c.Kept (c.insert hash bytes origin backend n now).1 := by
  unfold Cache.insert
  cases found : c.find? hash with
  | some e => exact ⟨h.touch found n, rfl, kept_touch found n⟩
  | none =>
      rw [h.memory]
      have added := h.toHolds.add found bytes origin backend n now
      exact ⟨added.trim, rfl, (kept_add found bytes origin backend n now).drops added.consistent
        (drops_evict added.consistent _)⟩

theorem Balanced.insert_budget (h : c.Balanced held) (hash : ContentHash) (bytes : List UInt8)
    (origin backend : String) (n now : Nat) :
    (c.insert hash bytes origin backend n now).1.budget = c.budget := by
  unfold Cache.insert
  cases found : c.find? hash with
  | some e => rfl
  | none =>
      rw [h.memory]
      have added := h.toHolds.add found bytes origin backend n now
      exact (drops_evict added.consistent _).budget

/-- An artifact in memory can always be read. -/
theorem Balanced.lookup (h : c.Balanced held) (hash : ContentHash) :
    (c.lookup hash).1.Balanced held ∧ c.Kept (c.lookup hash).1 := by
  unfold Cache.lookup
  cases found : c.find? hash with
  | none => exact ⟨⟨⟨⟨h.consistent.distinct, h.consistent.total_eq⟩, h.memory, h.stocked,
      h.refcount_eq⟩, h.within⟩, kept_of_find? fun _ => rfl⟩
  | some e =>
      obtain ⟨bytes, stocked, _⟩ := h.stocked e (find?_eq_some found).1
      have touched := h.touch found 0
      rw [more_zero] at touched
      simp only [read?, stocked]
      exact ⟨⟨⟨⟨touched.consistent.distinct, touched.consistent.total_eq⟩, touched.memory,
        touched.stocked, touched.refcount_eq⟩, touched.within⟩, kept_touch found 0⟩

theorem Balanced.lookup_budget (h : c.Balanced held) (hash : ContentHash) :
    (c.lookup hash).1.budget = c.budget := by
  unfold Cache.lookup
  cases found : c.find? hash with
  | none => rfl
  | some e =>
      obtain ⟨bytes, stocked, _⟩ := h.stocked e (find?_eq_some found).1
      simp only [read?, stocked]
      rfl

/-- An entry with another number of references. -/
def recount (f : Nat → Nat) (e : CacheEntry) : CacheEntry := { e with refcount := f e.refcount }

theorem refcount_modify (hash : ContentHash) (f : Nat → Nat) (k : ContentHash) :
    (c.modify hash (recount f)).refcount k =
      if k = hash ∧ c.contains k then f (c.refcount k) else c.refcount k := by
  rw [refcount, find?_modify c hash k (f := recount f) fun e => rfl, refcount, contains]
  by_cases same : k = hash <;> cases c.find? k <;> simp [same, recount]

theorem kept_modify (hash : ContentHash) (f : Nat → Nat) :
    c.Kept (c.modify hash (recount f)) := by
  intro k x before _
  rw [find?_modify c hash k (f := recount f) fun e => rfl, before]
  split
  · exact ⟨_, rfl⟩
  · exact ⟨x.refcount, rfl⟩

theorem mem_modify {hash : ContentHash} {f : Nat → Nat} {x : CacheEntry}
    (hx : x ∈ (c.modify hash (recount f)).entries) :
    ∃ e ∈ c.entries, x = e ∨ x = recount f e := by
  obtain ⟨e, he, rfl⟩ := List.mem_map.mp hx
  refine ⟨e, he, ?_⟩
  split
  · exact Or.inr rfl
  · exact Or.inl rfl

/-- A change of the references of one hash, as the ledger has it. -/
theorem Holds.modify (h : c.Holds held) (hash : ContentHash) (f : Nat → Nat)
    {after : ContentHash → Nat}
    (counts : ∀ k, (if k = hash ∧ c.contains k then f (held k) else held k) = after k) :
    (c.modify hash (recount f)).Holds after := by
  refine ⟨h.consistent.modify hash fun _ => rfl, h.memory, fun x hx => ?_, fun k => ?_⟩
  · obtain ⟨e, he, rfl | rfl⟩ := mem_modify hx
    · exact h.stocked x he
    · exact h.stocked e he
  · rw [refcount_modify, h.refcount_eq]
    exact counts k

theorem refcount_of_missing {h : ContentHash} (missing : c.contains h = false) :
    c.refcount h = 0 := by
  rw [contains, Option.isSome_eq_false_iff, Option.isNone_iff_eq_none] at missing
  rw [refcount, missing]
  rfl

theorem Balanced.acquire (h : c.Balanced held) (hash : ContentHash) :
    (c.acquire hash).1.Balanced (more held hash (if (c.acquire hash).2 then 1 else 0)) ∧
      c.Kept (c.acquire hash).1 := by
  refine ⟨⟨h.toHolds.modify hash (· + 1) fun k => ?_, ?_⟩, kept_modify hash (· + 1)⟩
  · unfold more Cache.acquire
    by_cases same : k = hash
    · subst same
      cases c.contains k <;> simp
    · simp [same]
  · refine h.within.imp id fun all x hx => ?_
    obtain ⟨e, he, rfl | rfl⟩ := mem_modify (f := fun n => n + 1) hx
    · exact all x he
    · exact Nat.succ_pos _

/-- Giving back a reference that nobody holds takes none away. -/
theorem Holds.release (h : c.Holds held) (hash : ContentHash) :
    (c.modify hash (recount fun n => n - 1)).Holds (fewer held hash) := by
  refine h.modify hash (fun n => n - 1) fun k => ?_
  unfold fewer
  by_cases same : k = hash
  · subst same
    cases present : c.contains k with
    | true => simp
    | false =>
        have none_held := (h.refcount_eq k).symm.trans (refcount_of_missing present)
        simp [none_held]
  · simp [same]

theorem Balanced.release (h : c.Balanced held) (hash : ContentHash) :
    (c.release hash).Balanced (fewer held hash) ∧ c.Kept (c.release hash) := by
  have released := h.toHolds.release hash
  exact ⟨released.trim, (kept_modify hash fun n => n - 1).drops released.consistent
    (drops_evict released.consistent _)⟩

theorem Balanced.release_budget (h : c.Balanced held) (hash : ContentHash) :
    (c.release hash).budget = c.budget :=
  (drops_evict (h.toHolds.release hash).consistent _).budget

/-- Nothing but an unreferenced entry is dropped. -/
theorem drops_invalidate (hc : c.Consistent) (hash : ContentHash) :
    c.Drops (c.invalidate hash).1 := by
  unfold invalidate
  cases found : c.find? hash with
  | none => exact .refl hc
  | some e =>
      dsimp only
      split
      · rename_i unreferenced
        exact drops_remove hc ((refcount_of_found found).trans unreferenced)
      · exact .refl hc

end Cache

end TieredUdf
