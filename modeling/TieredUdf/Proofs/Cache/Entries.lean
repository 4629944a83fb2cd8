import Mathlib.Algebra.GroupWithZero.Nat
import Mathlib.Data.List.Nodup
import Mathlib.Data.List.Perm.Basic
import TieredUdf.Cache.Basic

/-! # The entries of a cache

What each operation does to the entry of every hash, and to the sum of the sizes.  An eviction
drops unreferenced entries and nothing else, and it goes on until its target is met or every
entry that is left is referenced.
-/

namespace TieredUdf.Cache

/-! ## One entry for each hash -/

def bytesOf (entries : List CacheEntry) : Nat := (entries.map fun e => e.about.size).sum

/-- A cache has one entry for each hash, and it counts the bytes of its entries. -/
structure Consistent (c : Cache) : Prop where
  distinct : (c.entries.map CacheEntry.hash).Nodup
  total_eq : c.totalBytes = bytesOf c.entries

theorem bytesOf_perm {entries others : List CacheEntry} (h : entries.Perm others) :
    bytesOf entries = bytesOf others :=
  (h.map _).sum_nat

theorem bytesOf_cons (e : CacheEntry) (entries : List CacheEntry) :
    bytesOf (e :: entries) = e.about.size + bytesOf entries := List.sum_cons

theorem mem_without {h : ContentHash} {entries : List CacheEntry} {e : CacheEntry} :
    e ∈ without h entries ↔ e ∈ entries ∧ e.hash ≠ h := by
  simp [without]

theorem find?_eq_some {c : Cache} {h : ContentHash} {e : CacheEntry} (found : c.find? h = some e) :
    e ∈ c.entries ∧ e.hash = h :=
  ⟨List.mem_of_find?_eq_some found, by simpa using List.find?_some found⟩

theorem find?_eq_none {c : Cache} {h : ContentHash} :
    c.find? h = none ↔ ∀ e ∈ c.entries, e.hash ≠ h := by
  simp [find?, List.find?_eq_none]

/-- Entries with distinct hashes are found under their own hash. -/
theorem find?_of_mem {c : Cache} (distinct : (c.entries.map CacheEntry.hash).Nodup)
    {e : CacheEntry} (he : e ∈ c.entries) : c.find? e.hash = some e := by
  cases found : c.find? e.hash with
  | none => exact absurd rfl (find?_eq_none.mp found e he)
  | some other =>
      obtain ⟨mem, same⟩ := find?_eq_some found
      rw [List.inj_on_of_nodup_map distinct mem he same]

/-- An item and those with other keys, when no two items share their key. -/
theorem perm_cons_filter {α κ : Type} [DecidableEq κ] {key : α → κ} {items : List α}
    (distinct : (items.map key).Nodup) {a : α} (ha : a ∈ items) :
    items.Perm (a :: items.filter fun b => key b != key a) := by
  classical
  have nodup := distinct.of_map
  refine (List.perm_cons_erase ha).trans (.cons a (.of_eq ?_))
  rw [nodup.erase_eq_filter]
  refine List.filter_congr fun b hb => ?_
  rw [bne_eq, bne_eq, Bool.not_inj_iff, Bool.eq_iff_iff, beq_iff_eq, beq_iff_eq]
  exact ⟨congrArg _, fun same => List.inj_on_of_nodup_map distinct hb ha same⟩

theorem perm_without {entries : List CacheEntry} (distinct : (entries.map CacheEntry.hash).Nodup)
    {e : CacheEntry} (he : e ∈ entries) : entries.Perm (e :: without e.hash entries) :=
  perm_cons_filter distinct he

theorem find?_without (entries : List CacheEntry) (h k : ContentHash) :
    (without h entries).find? (fun e => e.hash == k) =
      if k = h then none else entries.find? fun e => e.hash == k := by
  rw [without, List.find?_filter]
  split
  · rename_i same
    rw [List.find?_eq_none]
    intro e _
    simp [same]
  · rename_i other
    congr 1
    funext e
    by_cases own : e.hash = k <;> simp [own, other]

theorem Consistent.size_le {c : Cache} (h : c.Consistent) {e : CacheEntry} (he : e ∈ c.entries) :
    e.about.size ≤ c.totalBytes := by
  rw [h.total_eq, bytesOf_perm (perm_without h.distinct he)]
  exact Nat.le_add_right _ _

/-! ## Touching and changing -/

theorem find?_put (c : Cache) (e : CacheEntry) (k : ContentHash) :
    (c.put e).find? k = if k = e.hash then some e else c.find? k := by
  unfold find? put
  rw [List.find?_append, find?_without]
  split
  · rename_i same
    simp [same]
  · rename_i other
    have : ¬ e.hash = k := fun same => other same.symm
    simp [this]

/-- An entry that takes the place of one with the same description changes no sizes. -/
theorem Consistent.put {c : Cache} (h : c.Consistent) {e after : CacheEntry}
    (he : e ∈ c.entries) (about : after.about = e.about) : (c.put after).Consistent := by
  have same : after.hash = e.hash := congrArg ArtifactMeta.hash about
  have parts := perm_without h.distinct he
  have hashes : ((c.put after).entries.map CacheEntry.hash).Perm
      (c.entries.map CacheEntry.hash) := by
    refine List.Perm.trans ?_ (parts.map _).symm
    unfold Cache.put
    rw [List.map_append, List.map_singleton, same]
    exact List.perm_append_singleton _ _
  refine ⟨hashes.nodup_iff.mpr h.distinct, ?_⟩
  have moved : (c.put after).entries.Perm (after :: without e.hash c.entries) := by
    unfold Cache.put
    rw [same]
    exact List.perm_append_singleton _ _
  have total := h.total_eq.trans (bytesOf_perm parts)
  rw [bytesOf_perm moved]
  refine total.trans ?_
  rw [bytesOf_cons, bytesOf_cons, about]

/-- A change of references and recency. -/
theorem find?_modify (c : Cache) (h k : ContentHash) {f : CacheEntry → CacheEntry}
    (about : ∀ e, (f e).about = e.about) :
    (c.modify h f).find? k = if k = h then (c.find? k).map f else c.find? k := by
  unfold find? modify
  dsimp only
  induction c.entries with
  | nil => simp
  | cons e entries ih =>
      have same : (if e.hash = h then f e else e).hash = e.hash := by
        split
        · exact congrArg ArtifactMeta.hash (about e)
        · rfl
      rw [List.map_cons, List.find?_cons, List.find?_cons, same]
      cases own : e.hash == k with
      | false => exact ih
      | true =>
          rw [beq_iff_eq] at own
          subst own
          by_cases it : e.hash = h <;> simp [it]

theorem hashes_modify (c : Cache) (k : ContentHash) {f : CacheEntry → CacheEntry}
    (about : ∀ e, (f e).about = e.about) :
    (c.modify k f).entries.map CacheEntry.hash = c.entries.map CacheEntry.hash := by
  unfold Cache.modify
  rw [List.map_map]
  refine List.map_congr_left fun e _ => congrArg ArtifactMeta.hash ?_
  dsimp only
  split
  · exact about e
  · rfl

theorem bytesOf_modify (c : Cache) (k : ContentHash) {f : CacheEntry → CacheEntry}
    (about : ∀ e, (f e).about = e.about) :
    bytesOf (c.modify k f).entries = bytesOf c.entries := by
  have same : ∀ e : CacheEntry, (if e.hash = k then f e else e).about = e.about := by
    intro e
    split
    · exact about e
    · rfl
  unfold bytesOf Cache.modify
  rw [List.map_map]
  exact congrArg List.sum (List.map_congr_left fun e _ => congrArg ArtifactMeta.size (same e))

theorem Consistent.modify {c : Cache} (h : c.Consistent) (k : ContentHash)
    {f : CacheEntry → CacheEntry} (about : ∀ e, (f e).about = e.about) :
    (c.modify k f).Consistent := by
  constructor
  · rw [hashes_modify c k about]
    exact h.distinct
  · rw [bytesOf_modify c k about]
    exact h.total_eq

/-! ## Adding -/

theorem find?_add (c : Cache) (about : ArtifactMeta) (bytes : Option (List UInt8))
    (refcount : Nat) (k : ContentHash) :
    (c.add about bytes refcount).find? k =
      if k = about.hash then some ⟨about, refcount, bytes⟩ else c.find? k :=
  find?_put c ⟨about, refcount, bytes⟩ k

theorem without_of_missing {c : Cache} {h : ContentHash} (missing : c.find? h = none) :
    without h c.entries = c.entries := by
  rw [without, List.filter_eq_self]
  intro e he
  simpa using find?_eq_none.mp missing e he

/-- A new entry comes last. -/
theorem entries_add {c : Cache} {about : ArtifactMeta} (missing : c.find? about.hash = none)
    (bytes : Option (List UInt8)) (refcount : Nat) :
    (c.add about bytes refcount).entries = c.entries ++ [⟨about, refcount, bytes⟩] := by
  change without about.hash c.entries ++ _ = _
  rw [without_of_missing missing]

theorem Consistent.add {c : Cache} (h : c.Consistent) {about : ArtifactMeta}
    (missing : c.find? about.hash = none) (bytes : Option (List UInt8)) (refcount : Nat) :
    (c.add about bytes refcount).Consistent := by
  have absent := find?_eq_none.mp missing
  have entries := entries_add missing bytes refcount
  constructor
  · rw [entries, List.map_append]
    refine List.nodup_append.mpr ⟨h.distinct, List.nodup_singleton _, ?_⟩
    intro k hk l hl same
    obtain ⟨e, he, rfl⟩ := List.mem_map.mp hk
    exact absent e he (same.trans (List.mem_singleton.mp hl))
  · rw [entries, bytesOf, List.map_append, List.sum_append]
    exact congrArg₂ (· + ·) h.total_eq rfl

/-! ## Dropping unreferenced entries -/

/-- One cache comes from another by losing entries that were not referenced.  Those that stay keep
their order and everything about them. -/
structure Drops (c d : Cache) : Prop where
  entries : d.entries.Sublist c.entries
  referenced : ∀ e ∈ c.entries, 0 < e.refcount → e ∈ d.entries
  consistent : d.Consistent
  budget : d.budget = c.budget
  memory : c.directory = none → d.directory = none

theorem Drops.refl {c : Cache} (h : c.Consistent) : c.Drops c :=
  ⟨.refl _, fun _ he _ => he, h, rfl, id⟩

theorem Drops.trans {c d e : Cache} (h : c.Drops d) (k : d.Drops e) : c.Drops e where
  entries := k.entries.trans h.entries
  referenced := fun x hx held => k.referenced x (h.referenced x hx held) held
  consistent := k.consistent
  budget := k.budget.trans h.budget
  memory := fun hm => k.memory (h.memory hm)

/-- A referenced entry is found as before. -/
theorem Drops.find?_referenced {c d : Cache} (h : c.Drops d) {k : ContentHash} {e : CacheEntry}
    (found : c.find? k = some e) (held : 0 < e.refcount) : d.find? k = some e := by
  obtain ⟨he, rfl⟩ := find?_eq_some found
  exact find?_of_mem h.consistent.distinct (h.referenced e he held)

theorem Drops.refcount {c d : Cache} (hc : c.Consistent) (h : c.Drops d) (k : ContentHash) :
    d.refcount k = c.refcount k := by
  unfold Cache.refcount
  cases found : d.find? k with
  | some e =>
      obtain ⟨he, rfl⟩ := find?_eq_some found
      rw [find?_of_mem hc.distinct (h.entries.subset he)]
  | none =>
      cases before : c.find? k with
      | none => rfl
      | some e =>
          by_cases held : 0 < e.refcount
          · rw [h.find?_referenced before held] at found
            cases found
          · exact (Nat.eq_zero_of_not_pos held).symm

theorem remove_of_missing {c : Cache} {h : ContentHash} (missing : c.find? h = none) :
    c.remove h = (c, 0) := by
  simp [remove, missing]

theorem remove_of_found {c : Cache} {h : ContentHash} {e : CacheEntry}
    (found : c.find? h = some e) :
    c.remove h =
      ({ c with
          directory := c.directory.map fun d => d.removeArtifact h
          entries := without h c.entries
          totalBytes := c.totalBytes - e.about.size }, e.about.size) := by
  simp [remove, found]

/-- Removing an entry counts nothing. -/
theorem counters_remove (c : Cache) (h : ContentHash) :
    (c.remove h).1.hits = c.hits ∧ (c.remove h).1.misses = c.misses ∧
      (c.remove h).1.stores = c.stores ∧ (c.remove h).1.evictions = c.evictions := by
  unfold remove
  split <;> exact ⟨rfl, rfl, rfl, rfl⟩

theorem find?_remove (c : Cache) (h k : ContentHash) :
    (c.remove h).1.find? k = if k = h then none else c.find? k := by
  cases found : c.find? h with
  | none =>
      rw [remove_of_missing found]
      split
      · rename_i same
        rw [same, found]
      · rfl
  | some e =>
      rw [remove_of_found found]
      exact find?_without c.entries h k

/-- The bytes of an entry that is removed are counted off, all of them. -/
theorem Consistent.remove {c : Cache} (hc : c.Consistent) (h : ContentHash) :
    (c.remove h).1.Consistent ∧ (c.remove h).1.totalBytes + (c.remove h).2 = c.totalBytes := by
  cases found : c.find? h with
  | none =>
      rw [remove_of_missing found]
      exact ⟨hc, rfl⟩
  | some e =>
      obtain ⟨he, rfl⟩ := find?_eq_some found
      rw [remove_of_found found]
      have covered := hc.size_le he
      have total := hc.total_eq.trans (bytesOf_perm (perm_without hc.distinct he))
      rw [bytesOf_cons] at total
      refine ⟨⟨(hc.distinct.sublist (List.filter_sublist.map _)), ?_⟩, Nat.sub_add_cancel covered⟩
      dsimp only
      rw [total]
      exact Nat.add_sub_cancel_left _ _

theorem drops_remove {c : Cache} (hc : c.Consistent) {h : ContentHash}
    (unreferenced : c.refcount h = 0) : c.Drops (c.remove h).1 := by
  cases found : c.find? h with
  | none =>
      rw [remove_of_missing found]
      exact .refl hc
  | some e =>
      refine ⟨?_, fun x hx held => ?_, (hc.remove h).1, ?_, fun memory => ?_⟩ <;>
        rw [remove_of_found found]
      · exact List.filter_sublist
      · refine mem_without.mpr ⟨hx, fun same => ?_⟩
        rw [refcount, ← same, find?_of_mem hc.distinct hx] at unreferenced
        exact absurd held (Nat.not_lt_of_le (Nat.le_of_eq unreferenced))
      · rw [memory]
        rfl

/-! ## Eviction -/

/-- What every removal preserves is preserved by an eviction. -/
theorem evictEach_preserves {P : Cache → Prop} (target : Nat) {hashes : List ContentHash}
    (step : ∀ c, ∀ h ∈ hashes, P c →
      P { (c.remove h).1 with evictions := (c.remove h).1.evictions + 1 })
    {c : Cache} (hc : P c) : P (evictEach target hashes c).1 := by
  induction hashes generalizing c with
  | nil => exact hc
  | cons h rest ih =>
      unfold evictEach
      split
      · exact hc
      · have removed := step c h List.mem_cons_self hc
        exact ih (fun d k hk => step d k (List.mem_cons_of_mem h hk)) removed

/-- An eviction goes on until its target is met or nothing that it may evict is left. -/
theorem evictEach_met (target : Nat) (hashes : List ContentHash) (c : Cache) :
    (evictEach target hashes c).1.totalBytes ≤ target ∨
      ∀ h ∈ hashes, (evictEach target hashes c).1.find? h = none := by
  induction hashes generalizing c with
  | nil => exact Or.inr nofun
  | cons h rest ih =>
      unfold evictEach
      split
      · rename_i met
        exact Or.inl met
      · refine (ih _).imp_right fun gone k hk => ?_
        rcases List.mem_cons.mp hk with rfl | later
        · -- what is removed does not come back
          refine evictEach_preserves (P := fun d => d.find? k = none) target (fun d l _ missing => ?_) ?_
          · have after := find?_remove d l k
            rw [missing, ite_self] at after
            exact after
          · have after := find?_remove c k k
            rw [if_pos rfl] at after
            exact after
        · exact gone k later

/-- What evicting unreferenced entries leads to: nothing else is dropped, and the freed bytes are
those that are counted off. -/
theorem evictEach_spec {c : Cache} (hc : c.Consistent) (target : Nat) {hashes : List ContentHash}
    (unreferenced : ∀ h ∈ hashes, c.refcount h = 0) :
    c.Drops (evictEach target hashes c).1 ∧
      (evictEach target hashes c).1.totalBytes + (evictEach target hashes c).2 = c.totalBytes := by
  induction hashes generalizing c with
  | nil => exact ⟨.refl hc, rfl⟩
  | cons h rest ih =>
      unfold evictEach
      split
      · exact ⟨.refl hc, rfl⟩
      · obtain ⟨first, others⟩ := List.forall_mem_cons.mp unreferenced
        have drops := drops_remove hc first
        have counted : c.Drops { (c.remove h).1 with evictions := (c.remove h).1.evictions + 1 } :=
          ⟨drops.entries, drops.referenced, ⟨drops.consistent.distinct, drops.consistent.total_eq⟩,
            drops.budget, drops.memory⟩
        obtain ⟨more, freed⟩ := ih counted.consistent fun k hk =>
          (counted.refcount hc k).trans (others k hk)
        have removed := (hc.remove h).2
        refine ⟨counted.trans more, ?_⟩
        dsimp only at freed removed ⊢
        omega

theorem evictable_unreferenced {c : Cache} (hc : c.Consistent) :
    ∀ h ∈ c.evictable, c.refcount h = 0 := by
  intro h hh
  obtain ⟨e, he, rfl⟩ := List.mem_map.mp hh
  obtain ⟨mem, unreferenced⟩ := List.mem_filter.mp he
  rw [refcount, find?_of_mem hc.distinct mem]
  simpa using unreferenced

theorem drops_evict {c : Cache} (hc : c.Consistent) (target : Nat) :
    c.Drops (c.evict target).1 :=
  (evictEach_spec hc target (evictable_unreferenced hc)).1

theorem evict_freed {c : Cache} (hc : c.Consistent) (target : Nat) :
    (c.evict target).1.totalBytes + (c.evict target).2 = c.totalBytes :=
  (evictEach_spec hc target (evictable_unreferenced hc)).2

/-- An eviction meets its target or leaves only referenced entries. -/
theorem evict_met {c : Cache} (hc : c.Consistent) (target : Nat) :
    (c.evict target).1.totalBytes ≤ target ∨
      ∀ e ∈ (c.evict target).1.entries, 0 < e.refcount := by
  have drops := drops_evict hc target
  refine (evictEach_met target c.evictable c).imp_right fun gone e he => ?_
  by_contra unreferenced
  have mem : e.hash ∈ c.evictable :=
    List.mem_map_of_mem (List.mem_filter.mpr
      ⟨drops.entries.subset he, by simpa using Nat.eq_zero_of_not_pos unreferenced⟩)
  exact find?_eq_none.mp (gone _ mem) e he rfl

end TieredUdf.Cache
