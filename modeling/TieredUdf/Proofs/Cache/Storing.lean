import TieredUdf.Proofs.Cache.Balance
import TieredUdf.Proofs.Cache.Files

/-! # Storing in memory

A store makes an entry where there is none and changes none that is there.  The new entry is the
last one that the same call may evict, so it goes at once only if nobody references it and it does
not fit beside the artifacts that are referenced.
-/

namespace TieredUdf.Cache

variable {c d : Cache} {held : ContentHash → Nat}

/-- What stays is found as before. -/
theorem Drops.find?_of_contains (hc : c.Consistent) (drops : c.Drops d) {h : ContentHash}
    (present : d.contains h = true) : d.find? h = c.find? h := by
  obtain ⟨e, found⟩ := Option.isSome_iff_exists.mp present
  obtain ⟨he, rfl⟩ := find?_eq_some found
  rw [found, find?_of_mem hc.distinct (drops.entries.subset he)]

theorem contains_of_find? {h : ContentHash} {e : CacheEntry} (found : c.find? h = some e) :
    c.contains h = true := by
  rw [contains, found]
  rfl

theorem find?_of_not_contains {h : ContentHash} (missing : c.contains h = false) :
    c.find? h = none := by
  rwa [contains, Option.isSome_eq_false_iff, Option.isNone_iff_eq_none] at missing

/-! ## The entry that is evicted last -/

def isReferenced (e : CacheEntry) : Bool := decide (0 < e.refcount)

/-- The number of bytes that no eviction frees. -/
def referencedBytes (c : Cache) : Nat := bytesOf (c.entries.filter isReferenced)

theorem bytesOf_le_of_subset {some all : List CacheEntry} (distinct : some.Nodup)
    (within : some ⊆ all) : bytesOf some ≤ bytesOf all := by
  obtain ⟨sorted, perm, part⟩ := List.subperm_of_subset distinct within
  rw [← bytesOf_perm perm]
  exact (part.map _).sum_le_sum fun _ _ => Nat.zero_le _

/-- An eviction goes through its hashes in their order, and stops for good. -/
theorem evictEach_append (target : Nat) (first more : List ContentHash) (c : Cache) :
    (evictEach target (first ++ more) c).1 =
      (evictEach target more (evictEach target first c).1).1 := by
  induction first generalizing c with
  | nil => rfl
  | cons h first ih =>
      rw [List.cons_append]
      conv_lhs => unfold evictEach
      conv_rhs => enter [1, 3]; unfold evictEach
      split
      · rename_i met
        cases more with
        | nil => rfl
        | cons k more =>
            unfold evictEach
            rw [if_pos met]
      · exact ih _

/-- When the other unreferenced entries have had their turn, the new one is left beside those that
are referenced, as far as the target is not met before. -/
theorem referencedBytes_before_last (hc : c.Consistent) {about : ArtifactMeta}
    (missing : c.find? about.hash = none) (bytes : Option (List UInt8)) :
    let d := c.add about bytes 0
    let left := (evictEach c.budget c.evictable d).1
    left.find? about.hash = some ⟨about, 0, bytes⟩ ∧
      (left.totalBytes ≤ c.budget ↔ c.referencedBytes + about.size ≤ c.budget) := by
  intro d left
  let e : CacheEntry := ⟨about, 0, bytes⟩
  have hd : d.Consistent := hc.add missing bytes 0
  have entries : d.entries = c.entries ++ [e] := entries_add missing bytes 0
  have absent := find?_eq_none.mp missing
  have stays : left.find? about.hash = some e := by
    refine evictEach_preserves (P := fun d => d.find? about.hash = some e) c.budget
      (fun f k hk found => ?_) ((find?_add c about bytes 0 about.hash).trans (if_pos rfl))
    obtain ⟨x, hx, rfl⟩ := List.mem_map.mp hk
    have other : about.hash ≠ x.hash := fun same =>
      absent x (List.mem_filter.mp hx).1 same.symm
    exact ((find?_remove f x.hash about.hash).trans (if_neg other)).trans found
  have unreferenced : ∀ k ∈ c.evictable, d.refcount k = 0 := by
    intro k hk
    obtain ⟨x, hx, rfl⟩ := List.mem_map.mp hk
    obtain ⟨mem, zero⟩ := List.mem_filter.mp hx
    have mem : x ∈ d.entries := by simp [entries, mem]
    rw [refcount_of_found (find?_of_mem hd.distinct mem)]
    simpa using zero
  have drops : d.Drops left := (evictEach_spec hd c.budget unreferenced).1
  have apart : e ∉ c.entries := fun mem => absent e mem rfl
  have total : bytesOf (e :: c.entries.filter isReferenced) = c.referencedBytes + about.size := by
    rw [bytesOf_cons]
    exact Nat.add_comm _ _
  refine ⟨stays, ?_⟩
  rw [← total, drops.consistent.total_eq]
  constructor
  · -- what is referenced is still there, and so is the new entry
    refine Nat.le_trans (bytesOf_le_of_subset ?_ ?_)
    · have distinct := hc.distinct.of_map.filter isReferenced
      exact List.nodup_cons.mpr ⟨fun mem => apart (List.mem_filter.mp mem).1, distinct⟩
    · intro x hx
      rcases List.mem_cons.mp hx with rfl | old
      · exact (find?_eq_some stays).1
      · obtain ⟨mem, referenced⟩ := List.mem_filter.mp old
        exact drops.referenced x (by simp [entries, mem]) (of_decide_eq_true referenced)
  · intro fits
    rcases evictEach_met c.budget c.evictable d with met | gone
    · exact drops.consistent.total_eq ▸ met
    · -- of the others only those that are referenced are left
      refine Nat.le_trans (bytesOf_le_of_subset drops.consistent.distinct.of_map ?_) fits
      intro x hx
      have mem := drops.entries.subset hx
      rw [entries, List.mem_append, List.mem_singleton] at mem
      rcases mem with old | rfl
      · refine List.mem_cons_of_mem e (List.mem_filter.mpr ⟨old, decide_eq_true ?_⟩)
        by_contra zero
        have evictable : x.hash ∈ c.evictable := List.mem_map_of_mem
          (List.mem_filter.mpr ⟨old, beq_iff_eq.mpr (Nat.eq_zero_of_not_pos zero)⟩)
        exact find?_eq_none.mp (gone _ evictable) x hx rfl
      · exact List.mem_cons_self

theorem contains_evictEach_singleton (target : Nat) {h : ContentHash}
    (present : c.contains h = true) :
    (evictEach target [h] c).1.contains h = true ↔ c.totalBytes ≤ target := by
  unfold evictEach
  split
  · rename_i met
    exact iff_of_true present met
  · rename_i above
    have gone : (c.remove h).1.find? h = none := (find?_remove c h h).trans (if_pos rfl)
    refine iff_of_false (fun stays => ?_) above
    change ((c.remove h).1.find? h).isSome = true at stays
    rw [gone] at stays
    cases stays

theorem contains_trim_add_iff (hc : c.Consistent) (about : ArtifactMeta)
    (missing : c.find? about.hash = none) (bytes : Option (List UInt8)) :
    (c.add about bytes 0).trim.contains about.hash = true ↔
      c.referencedBytes + about.size ≤ c.budget := by
  obtain ⟨stays, fits⟩ := referencedBytes_before_last hc missing bytes
  have evictable : (c.add about bytes 0).evictable = c.evictable ++ [about.hash] := by
    rw [Cache.evictable, entries_add missing, List.filter_append, List.map_append]
    rfl
  have budget : (c.add about bytes 0).budget = c.budget := rfl
  rw [trim, evict, evictable, budget, evictEach_append, ← fits]
  exact contains_evictEach_singleton c.budget (contains_of_find? stays)

/-! ## One store -/

/-- What a store of an artifact does that takes so many references. -/
structure Stores (c : Cache) (h : ContentHash) (bytes : List UInt8) (origin : String)
    (references now : Nat) (result : Cache × Option Bool) : Prop where
  /-- The answer tells whether there was no entry. -/
  answer : result.2 = some !c.contains h
  /-- The first store wins. -/
  again : c.contains h = true → ∀ k, (result.1.lookup k).2 = (c.lookup k).2
  /-- A new entry has the artifact and its origin.  It stays if it is referenced or fits. -/
  first : c.contains h = false → (result.1.lookup h).2 =
    if 0 < references ∨ c.referencedBytes + bytes.length ≤ c.budget then
      some ⟨h, bytes, origin, now⟩
    else none

/-- What a lookup gives does not depend on references and on the order of use. -/
theorem lookup_put {h : ContentHash} {e : CacheEntry} (found : c.find? h = some e) (n : Nat)
    (k : ContentHash) : ((c.put { e with refcount := n }).lookup k).2 = (c.lookup k).2 := by
  obtain ⟨_, rfl⟩ := find?_eq_some found
  rw [lookup_artifact, lookup_artifact, find?_put]
  by_cases own : k = e.hash
  · subst own
    rw [found, if_pos]
    · rfl
    · rfl
  · rw [if_neg]
    · rfl
    · exact own

theorem Holds.lookup_trim_add (holds : c.Holds held) {h : ContentHash}
    (missing : c.find? h = none) (bytes : List UInt8) (origin backend : String) (n now : Nat) :
    (((c.add (.ofBytes h bytes origin backend now) (some bytes) n).trim).lookup h).2 =
      if 0 < n ∨ c.referencedBytes + bytes.length ≤ c.budget then some ⟨h, bytes, origin, now⟩
      else none := by
  let about := ArtifactMeta.ofBytes h bytes origin backend now
  let d := c.add about (some bytes) n
  have hd : d.Consistent := holds.consistent.add missing (some bytes) n
  have drops : d.Drops d.trim := drops_evict hd d.budget
  have added : d.find? h = some ⟨about, n, some bytes⟩ :=
    (find?_add c about (some bytes) n h).trans (if_pos rfl)
  have stays : d.trim.contains h = true ↔
      0 < n ∨ c.referencedBytes + bytes.length ≤ c.budget := by
    rcases Nat.eq_zero_or_pos n with rfl | referenced
    · rw [or_iff_right (Nat.lt_irrefl 0)]
      exact contains_trim_add_iff holds.consistent about missing (some bytes)
    · exact iff_of_true (contains_of_find? (drops.find?_referenced added referenced))
        (Or.inl referenced)
  rw [lookup_artifact]
  change (d.trim.find? h).bind _ = _
  cases present : d.trim.contains h with
  | true =>
      rw [if_pos (stays.mp present), drops.find?_of_contains hd present, added]
      rfl
  | false =>
      have gone := mt stays.mpr (Bool.eq_false_iff.mp present)
      rw [if_neg gone, find?_of_not_contains present]
      rfl

theorem Holds.stores_insert (holds : c.Holds held) (h : ContentHash) (bytes : List UInt8)
    (origin backend : String) (n now : Nat) :
    c.Stores h bytes origin n now (c.insert h bytes origin backend n now) := by
  unfold insert
  cases found : c.find? h with
  | some e =>
      have present := contains_of_find? found
      exact ⟨by rw [present]; rfl, fun _ => lookup_put found _,
        fun missing => absurd (present.symm.trans missing) nofun⟩
  | none =>
      have missing : c.contains h = false := by rw [contains, found]; rfl
      rw [holds.memory]
      exact ⟨by rw [missing]; rfl, fun present => absurd (present.symm.trans missing) nofun,
        fun _ => holds.lookup_trim_add found bytes origin backend n now⟩

end TieredUdf.Cache
