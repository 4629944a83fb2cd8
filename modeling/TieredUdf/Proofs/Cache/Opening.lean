import TieredUdf.Proofs.Cache.Damage
import TieredUdf.Proofs.Cache.Scan

/-! # The index of a directory that is opened

The counter of bytes takes in every description that is kept, but the index has one entry for
each hash.  What is counted twice is never counted off, so that the index is right for every
budget exactly when no kept description repeats another one, unless it is of no bytes, and no
artifact is removed after one of its descriptions was kept.
-/

namespace TieredUdf

namespace Cache

/-! ## Counting too much -/

/-- A cache has one entry for each hash, and counts so many bytes more than those of its
entries. -/
structure Counted (c : Cache) (surplus : Nat) : Prop where
  distinct : c.Distinct
  total_eq : c.totalBytes = bytesOf c.entries + surplus

/-- The bytes of descriptions that are followed by one of the same hash. -/
def repeatedBytes : List ArtifactMeta → Nat
  | [] => 0
  | m :: rest => (if m.hash ∈ rest.map ArtifactMeta.hash then m.size else 0) + repeatedBytes rest

theorem repeatedBytes_eq_zero {found : List ArtifactMeta} :
    repeatedBytes found = 0 ↔ found.Pairwise fun m k => m.hash = k.hash → m.size = 0 := by
  induction found with
  | nil => simp [repeatedBytes]
  | cons m rest ih =>
      have first : (if m.hash ∈ rest.map ArtifactMeta.hash then m.size else 0) = 0 ↔
          ∀ k ∈ rest, m.hash = k.hash → m.size = 0 := by
        by_cases again : m.hash ∈ rest.map ArtifactMeta.hash
        · obtain ⟨k, hk, same⟩ := List.mem_map.mp again
          rw [if_pos again]
          exact ⟨fun empty _ _ _ => empty, fun all => all k hk same.symm⟩
        · rw [if_neg again]
          exact ⟨fun _ k hk same => absurd (List.mem_map.mpr ⟨k, hk, same.symm⟩) again, fun _ => rfl⟩
      rw [repeatedBytes, Nat.add_eq_zero_iff, first, ih, List.pairwise_cons]

theorem bytesOf_filter_or (p q : CacheEntry → Bool) (entries : List CacheEntry) :
    bytesOf (entries.filter p) + bytesOf ((entries.filter fun e => !p e).filter q) =
      bytesOf (entries.filter fun e => p e || q e) := by
  induction entries with
  | nil => rfl
  | cons e entries ih =>
      unfold bytesOf at ih ⊢
      cases hp : p e <;> cases hq : q e <;> simp [hp, hq] at ih ⊢ <;> omega

theorem bytesOf_append (entries others : List CacheEntry) :
    bytesOf (entries ++ others) = bytesOf entries + bytesOf others := by
  simp [bytesOf]

variable {c : Cache} {surplus : Nat}

/-- An entry that takes the place of another one leaves the bytes of that one counted. -/
theorem Counted.adopt (h : c.Counted surplus) (m : ArtifactMeta) :
    (c.adopt m).Counted (surplus + bytesOf (c.entries.filter fun e => e.hash == m.hash)) := by
  have parts := bytesOf_filter_or (fun e => e.hash == m.hash) (fun _ => true) c.entries
  have total := h.total_eq
  have entries : (c.adopt m).entries = without m.hash c.entries ++ [⟨m, 0, none⟩] := rfl
  have after : (c.adopt m).totalBytes = c.totalBytes + m.size := rfl
  refine ⟨h.distinct.put ⟨m, 0, none⟩, ?_⟩
  rw [entries, bytesOf_append, after]
  simp only [List.filter_true, Bool.or_true] at parts
  have others : bytesOf (without m.hash c.entries) =
      bytesOf (c.entries.filter fun e => !(e.hash == m.hash)) := rfl
  have last : bytesOf [(⟨m, 0, none⟩ : CacheEntry)] = m.size := by simp [bytesOf]
  omega

/-- The bytes of the entries that some descriptions would take the place of. -/
def replacedBytes (entries : List CacheEntry) (found : List ArtifactMeta) : Nat :=
  bytesOf (entries.filter fun e => decide (e.hash ∈ found.map ArtifactMeta.hash))

theorem replacedBytes_cons (entries : List CacheEntry) (m : ArtifactMeta)
    (rest : List ArtifactMeta) :
    bytesOf (entries.filter fun e => e.hash == m.hash) +
        replacedBytes (without m.hash entries ++ [⟨m, 0, none⟩]) rest + repeatedBytes rest =
      replacedBytes entries (m :: rest) + repeatedBytes (m :: rest) := by
  have parts := bytesOf_filter_or (fun e => e.hash == m.hash)
    (fun e => decide (e.hash ∈ rest.map ArtifactMeta.hash)) entries
  have either : ∀ e : CacheEntry,
      (e.hash == m.hash || decide (e.hash ∈ rest.map ArtifactMeta.hash)) =
        decide (e.hash ∈ (m :: rest).map ArtifactMeta.hash) := by
    intro e
    by_cases own : e.hash = m.hash <;> simp [own]
  have others : without m.hash entries = entries.filter fun e => !(e.hash == m.hash) := rfl
  have last : bytesOf ([(⟨m, 0, none⟩ : CacheEntry)].filter fun e =>
      decide (e.hash ∈ rest.map ArtifactMeta.hash)) =
        if m.hash ∈ rest.map ArtifactMeta.hash then m.size else 0 := by
    by_cases again : m.hash ∈ rest.map ArtifactMeta.hash
    · rw [if_pos again, List.filter_cons_of_pos (by simpa [CacheEntry.hash] using again)]
      simp [bytesOf]
    · rw [if_neg again, List.filter_cons_of_neg (by simpa [CacheEntry.hash] using again)]
      rfl
  simp only [either] at parts
  unfold replacedBytes
  rw [List.filter_append, bytesOf_append, last, others, repeatedBytes]
  omega

theorem Counted.adopted (found : List ArtifactMeta) (h : c.Counted surplus) :
    (found.foldl Cache.adopt c).Counted
      (surplus + (replacedBytes c.entries found + repeatedBytes found)) := by
  induction found generalizing c surplus with
  | nil => simpa [repeatedBytes, replacedBytes, bytesOf] using h
  | cons m rest ih =>
      have next := ih (h.adopt m)
      have entries : (c.adopt m).entries = without m.hash c.entries ++ [⟨m, 0, none⟩] := rfl
      rw [← replacedBytes_cons, ← entries]
      rwa [Nat.add_assoc, ← Nat.add_assoc (bytesOf _)] at next

theorem Distinct.bytesOf_eq (h : c.Distinct) {e : CacheEntry} (he : e ∈ c.entries) :
    bytesOf c.entries = e.about.size + bytesOf (without e.hash c.entries) :=
  (bytesOf_perm (perm_without h he)).trans (bytesOf_cons ..)

theorem Counted.remove (h : c.Counted surplus) (k : ContentHash) :
    (c.remove k).1.Counted surplus := by
  refine ⟨h.distinct.remove k, ?_⟩
  have total := h.total_eq
  cases found : c.find? k with
  | none => rw [remove_of_missing found, total]
  | some e =>
      obtain ⟨he, rfl⟩ := find?_eq_some found
      have parts := h.distinct.bytesOf_eq he
      rw [remove_of_found found]
      dsimp only
      omega

/-! ## Taking in what was found -/

theorem entries_adopted (found : List ArtifactMeta) (c : Cache) :
    ∀ e ∈ (found.foldl adopt c).entries, e ∈ c.entries ∨ ∃ m ∈ found, e = ⟨m, 0, none⟩ := by
  induction found generalizing c with
  | nil => exact fun e he => Or.inl he
  | cons m rest ih =>
      intro e he
      rcases ih (c.adopt m) e he with before | ⟨k, hk, rfl⟩
      · rcases List.mem_append.mp before with old | new
        · exact Or.inl (mem_without.mp old).1
        · exact Or.inr ⟨m, List.mem_cons_self, List.mem_singleton.mp new⟩
      · exact Or.inr ⟨k, List.mem_cons_of_mem m hk, rfl⟩

/-- Every hash that is found gets an entry, and none loses its entry. -/
theorem contains_adopted (found : List ArtifactMeta) (c : Cache) (h : ContentHash) :
    (found.foldl adopt c).contains h = (c.contains h || decide (h ∈ found.map ArtifactMeta.hash)) := by
  induction found generalizing c with
  | nil => simp
  | cons m rest ih =>
      have here : (c.adopt m).contains h = (c.contains h || decide (h = m.hash)) := by
        have after : (c.adopt m).find? h = if h = m.hash then some ⟨m, 0, none⟩ else c.find? h :=
          find?_put c ⟨m, 0, none⟩ h
        rw [contains, after, contains]
        by_cases own : h = m.hash <;> simp [own]
      refine (ih (c.adopt m)).trans ?_
      rw [here, Bool.or_assoc]
      simp

theorem totalBytes_adopted (found : List ArtifactMeta) (c : Cache) :
    (found.foldl adopt c).totalBytes = c.totalBytes + (found.map ArtifactMeta.size).sum := by
  induction found generalizing c with
  | nil => rfl
  | cons m rest ih =>
      have next := ih (c.adopt m)
      have here : (c.adopt m).totalBytes = c.totalBytes + m.size := rfl
      rw [List.foldl_cons, next, here, List.map_cons, List.sum_cons, Nat.add_assoc]

theorem place_adopted (found : List ArtifactMeta) (c : Cache) :
    (found.foldl adopt c).directory = c.directory ∧ (found.foldl adopt c).budget = c.budget := by
  induction found generalizing c with
  | nil => exact ⟨rfl, rfl⟩
  | cons m rest ih => exact ih (c.adopt m)

end Cache

namespace Directory

/-- What is left of a directory when it is opened, before anything is evicted. -/
def cleaned (d : Directory) : Directory := ({ d with present := true }.scan d.names).1

/-- The descriptions that are kept when a directory is opened, the oldest one first. -/
def found (d : Directory) : List ArtifactMeta :=
  ({ d with present := true }.scan d.names).2.mergeSort fun a b => decide (a.createdAt ≤ b.createdAt)

theorem found_perm (d : Directory) : d.found.Perm ({ d with present := true }.scan d.names).2 :=
  List.mergeSort_perm _ _

/-- How many bytes are counted that no entry has. -/
def surplus (d : Directory) : Nat := Cache.repeatedBytes d.found

/-- The cache of a directory before anything is evicted. -/
def indexed (d : Directory) (budget : Nat) : Cache :=
  d.found.foldl Cache.adopt (.new (some d.cleaned) budget)

end Directory

namespace Cache

theorem ofDirectory_eq (d : Directory) (budget : Nat) :
    ofDirectory d budget = (d.indexed budget).trim := rfl

/-- A cache comes from the index of a directory by evictions. -/
structure OpenedFrom (d : Directory) (budget : Nat) (c : Cache) : Prop where
  counted : c.Counted d.surplus
  entries : c.entries ⊆ (d.indexed budget).entries
  budget : c.budget = budget
  /-- The files of the entries are those that were left. -/
  files : ∃ files, c.directory = some files ∧
    ∀ e ∈ c.entries, files.file? e.hash.artifactFile = d.cleaned.file? e.hash.artifactFile

theorem openedFrom_indexed (d : Directory) (budget : Nat) :
    (d.indexed budget).OpenedFrom d budget := by
  have empty : (new (some d.cleaned) budget).Counted 0 := ⟨List.nodup_nil, rfl⟩
  have counted := empty.adopted d.found
  have place := place_adopted d.found (new (some d.cleaned) budget)
  have amount : 0 + (replacedBytes [] d.found + repeatedBytes d.found) = d.surplus := by
    simp [replacedBytes, bytesOf, Directory.surplus]
  refine ⟨?_, List.Subset.refl _, place.2, d.cleaned, place.1, fun _ _ => rfl⟩
  exact amount ▸ counted

theorem OpenedFrom.remove {d : Directory} {budget : Nat} {c : Cache} (h : c.OpenedFrom d budget)
    (k : ContentHash) :
    OpenedFrom d budget { (c.remove k).1 with evictions := (c.remove k).1.evictions + 1 } := by
  have counted := h.counted.remove k
  obtain ⟨files, place, same⟩ := h.files
  cases found : c.find? k with
  | none =>
      rw [remove_of_missing found] at counted ⊢
      exact ⟨⟨counted.distinct, counted.total_eq⟩, h.entries, h.budget, files, place, same⟩
  | some e =>
      rw [remove_of_found found] at counted ⊢
      refine ⟨⟨counted.distinct, counted.total_eq⟩, fun x hx => ?_, h.budget, files.removeArtifact k,
        ?_, fun x hx => ?_⟩
      · exact h.entries (mem_without.mp hx).1
      · simp [place]
      · obtain ⟨mem, other⟩ := mem_without.mp hx
        rw [Directory.file?_removeArtifact other]
        exact same x mem

theorem openedFrom_ofDirectory (d : Directory) (budget : Nat) :
    (ofDirectory d budget).OpenedFrom d budget :=
  evictEach_preserves _ (fun _ k _ h => h.remove k) (openedFrom_indexed d budget)

theorem entries_indexed (d : Directory) (budget : Nat) :
    ∀ e ∈ (d.indexed budget).entries, ∃ m ∈ d.found, e = ⟨m, 0, none⟩ := by
  intro e he
  exact (entries_adopted d.found _ e he).resolve_left nofun

/-- Opening a directory evicts until the budget is met or no entry is left. -/
theorem ofDirectory_met (d : Directory) (budget : Nat) :
    (ofDirectory d budget).totalBytes ≤ budget ∨ (ofDirectory d budget).entries = [] := by
  have opened := openedFrom_ofDirectory d budget
  have same := (openedFrom_indexed d budget).budget
  refine (evictEach_met (d.indexed budget).budget (d.indexed budget).evictable
    (d.indexed budget)).imp (fun met => met.trans (Nat.le_of_eq same)) fun gone => ?_
  rw [List.eq_nil_iff_forall_not_mem]
  intro e he
  obtain ⟨m, _, rfl⟩ := entries_indexed d budget e (opened.entries he)
  have evictable : m.hash ∈ (d.indexed budget).evictable :=
    List.mem_map.mpr ⟨_, List.mem_filter.mpr ⟨opened.entries he, rfl⟩, rfl⟩
  exact find?_eq_none.mp (gone _ evictable) _ he rfl

/-- A directory is brought within the budget exactly if what no entry has is within it. -/
theorem ofDirectory_within_iff (d : Directory) (budget : Nat) :
    (ofDirectory d budget).totalBytes ≤ budget ↔ d.surplus ≤ budget := by
  have total := (openedFrom_ofDirectory d budget).counted.total_eq
  constructor
  · intro within
    omega
  · intro small
    rcases ofDirectory_met d budget with met | empty
    · exact met
    · rw [total, empty]
      simpa [bytesOf] using small

/-! ## When the index is right -/

/-- The index agrees with the files, nothing is referenced, and the budget is kept. -/
structure Indexed (c : Cache) : Prop where
  total_eq : c.totalBytes = bytesOf c.entries
  held : ∀ e ∈ c.entries, ∃ files, c.directory = some files ∧ files.holdsArtifact e.about = true
  unreferenced : ∀ e ∈ c.entries, e.refcount = 0
  within : c.totalBytes ≤ c.budget

end Cache

/-- No kept description repeats another one, unless it is of no bytes, and every artifact that has
one is still there once all names were looked at. -/
structure Directory.ReadsOnce (d : Directory) : Prop where
  repeats : d.found.Pairwise fun m k => m.hash = k.hash → m.size = 0
  held : ∀ m ∈ d.found, d.cleaned.holdsArtifact m = true

namespace Cache

variable {d : Directory}

theorem mem_found {m : ArtifactMeta} :
    m ∈ d.found ↔ m ∈ ({ d with present := true }.scan d.names).2 := d.found_perm.mem_iff

/-- Whether an artifact is there depends on its hash and its size. -/
theorem holdsArtifact_congr {files others : Directory} {m k : ArtifactMeta} (hash : m.hash = k.hash)
    (size : m.size = k.size)
    (same : files.file? m.hash.artifactFile = others.file? m.hash.artifactFile) :
    files.holdsArtifact m = others.holdsArtifact k := by
  unfold Directory.holdsArtifact
  rw [same, hash, size]

theorem indexed_of_readsOnce (h : d.ReadsOnce) (budget : Nat) : (ofDirectory d budget).Indexed := by
  have opened := openedFrom_ofDirectory d budget
  have exact_ : d.surplus = 0 := repeatedBytes_eq_zero.mpr h.repeats
  have total := opened.counted.total_eq
  rw [exact_, Nat.add_zero] at total
  obtain ⟨files, place, same⟩ := opened.files
  refine ⟨total, fun e he => ⟨files, place, ?_⟩, fun e he => ?_, ?_⟩
  · obtain ⟨m, hm, rfl⟩ := entries_indexed d budget e (opened.entries he)
    rw [holdsArtifact_congr rfl rfl (same _ he)]
    exact h.held m hm
  · obtain ⟨m, _, rfl⟩ := entries_indexed d budget e (opened.entries he)
    rfl
  · have within := (ofDirectory_within_iff d budget).mpr (by omega)
    rwa [opened.budget]

/-- Nothing is evicted from what is within its budget. -/
theorem ofDirectory_of_large {budget : Nat} (large : (d.found.map ArtifactMeta.size).sum ≤ budget) :
    ofDirectory d budget = d.indexed budget := by
  have total : (d.indexed budget).totalBytes ≤ (d.indexed budget).budget := by
    rw [(openedFrom_indexed d budget).budget, Directory.indexed, totalBytes_adopted]
    simpa [new] using large
  rw [ofDirectory_eq, trim, evict]
  cases (d.indexed budget).evictable with
  | nil => rfl
  | cons h rest => rw [evictEach, if_pos total]

theorem readsOnce_of_indexed (h : ∀ budget, (ofDirectory d budget).Indexed) : d.ReadsOnce := by
  -- nothing is evicted with a budget for everything that was found
  let budget := (d.found.map ArtifactMeta.size).sum
  have index := h budget
  have all := ofDirectory_of_large (d := d) (Nat.le_refl budget)
  have counted := (openedFrom_indexed d budget).counted.total_eq
  obtain ⟨files, place, same⟩ := (openedFrom_indexed d budget).files
  rw [all] at index
  have exact_ : repeatedBytes d.found = 0 := by
    have total := index.total_eq
    change _ = _ + repeatedBytes d.found at counted
    omega
  refine ⟨repeatedBytes_eq_zero.mp exact_, fun m hm => ?_⟩
  have present : (d.indexed budget).contains m.hash = true := by
    refine (contains_adopted d.found _ m.hash).trans ?_
    simpa using Or.inr ⟨m, hm, rfl⟩
  obtain ⟨e, found⟩ := Option.isSome_iff_exists.mp present
  obtain ⟨he, hash⟩ := find?_eq_some found
  obtain ⟨k, hk, rfl⟩ := entries_indexed d budget e he
  have size := Directory.scan_agrees _ _ (mem_found.mp hk) (mem_found.mp hm) hash
  obtain ⟨_, again, held⟩ := index.held _ he
  cases place.symm.trans again
  rw [← holdsArtifact_congr hash size (same _ he)]
  exact held

theorem readsOnce_of_describesOnce (distinct : d.names.Nodup) (once : d.DescribesOnce) :
    d.ReadsOnce := by
  have same : Directory.DescribesOnce { d with present := true } := once
  obtain ⟨hashes, held⟩ := same.scan distinct
  refine ⟨?_, fun m hm => held m (mem_found.mp hm)⟩
  have sorted : (d.found.map ArtifactMeta.hash).Nodup :=
    (d.found_perm.map _).nodup_iff.mpr hashes
  exact (List.pairwise_map.mp sorted).imp fun other same => absurd same other

/-- Whatever a directory holds, nothing is referenced when it is opened, the counter is that of the
entries and of the repeated descriptions, and the budget is kept as far as these leave room.  The
index is right for every budget exactly if no description repeats another one or was kept for an
artifact that is removed afterwards; so it is if no artifact is described twice. -/
theorem ofDirectory_indexed_iff (d : Directory) :
    (∀ budget, (∀ h, (ofDirectory d budget).refcount h = 0) ∧
      (ofDirectory d budget).totalBytes = bytesOf (ofDirectory d budget).entries + d.surplus ∧
      ((ofDirectory d budget).totalBytes ≤ budget ↔ d.surplus ≤ budget)) ∧
    ((∀ budget, (ofDirectory d budget).Indexed) ↔ d.ReadsOnce) ∧
    (d.names.Nodup → d.DescribesOnce → d.ReadsOnce) := by
  refine ⟨fun budget => ⟨?_, ?_, ?_⟩, ⟨readsOnce_of_indexed, indexed_of_readsOnce⟩,
    readsOnce_of_describesOnce⟩
  · exact (distinct_ofDirectory d budget).2
  · exact (openedFrom_ofDirectory d budget).counted.total_eq
  · exact ofDirectory_within_iff d budget

section Copy

def oneByte : ArtifactMeta := .ofBytes ⟨List.replicate 32 0⟩ [0] "m@1" "test" 1

def single : Directory :=
  ⟨true, [(oneByte.hash.artifactFile, .file [0]),
    (oneByte.hash.metaFile, .file oneByte.fileText.toUTF8.toList)]⟩

theorem writable_oneByte : oneByte.Writable :=
  ⟨rfl, Digest.Sha256.length_digest _, by decide, by decide⟩

theorem describesOnce_single : single.DescribesOnce := by
  have only : ∀ name m, single.described? name = some m → name = oneByte.hash.metaFile := by
    intro name m said
    obtain ⟨json, data, found, _⟩ := Directory.file?_of_described said
    rcases List.mem_pair.mp (Directory.mem_names_of_file? found) with rfl | rfl
    · exact absurd json (ContentHash.fileExtension?_artifactFile_ne _).1
    · rfl
  intro name other m k said also _
  rw [only name m said, only other k also]

theorem ofDirectory_indexed_iff_single :
    single.names.Nodup ∧ single.DescribesOnce ∧
      single.described? oneByte.hash.metaFile = some oneByte ∧ single.ReadsOnce := by
  have distinct : single.names.Nodup := by decide
  have described : single.described? oneByte.hash.metaFile = some oneByte :=
    Directory.described?_of_file (ContentHash.fileExtension?_metaFile rfl) rfl writable_oneByte
  exact ⟨distinct, describesOnce_single, described,
    (ofDirectory_indexed_iff single).2.2 distinct describesOnce_single⟩

def copied : Directory :=
  ⟨true, single.items ++ [("copy.json", .file oneByte.fileText.toUTF8.toList)]⟩

theorem found_copied : copied.found = List.replicate 2 oneByte := by
  have extensions := ContentHash.fileExtension?_artifactFile_ne oneByte.hash
  have held : copied.holdsArtifact oneByte = true := Directory.holdsArtifact_iff.mpr ⟨[0], rfl, rfl⟩
  have artifact : scanName (copied, []) oneByte.hash.artifactFile = (copied, []) := by
    simp [Directory.scanName_eq, Directory.cleaning, Directory.kept?, extensions,
      Directory.described?_of_extension extensions.1]
  have described (name : String) (json : fileExtension? name = some "json")
      (file : copied.file? name = some oneByte.fileText.toUTF8.toList)
      (found : List ArtifactMeta) :
      scanName (copied, found) name = (copied, found ++ [oneByte]) := by
    have kept : copied.kept? name = some oneByte := Directory.kept?_eq_some.mpr
      ⟨Directory.described?_of_file json file writable_oneByte, held⟩
    rw [Directory.scanName_eq, Directory.cleaning_of_kept kept, kept]
    rfl
  have first := described oneByte.hash.metaFile (ContentHash.fileExtension?_metaFile rfl) rfl []
  have second := described "copy.json" (by decide) rfl [oneByte]
  have scanned : (copied.scan copied.names).2 = List.replicate 2 oneByte := by
    have names : copied.names =
        [oneByte.hash.artifactFile, oneByte.hash.metaFile, "copy.json"] := rfl
    simp only [Directory.scan, names, List.foldl_cons, List.foldl_nil, artifact, first,
      List.nil_append, second]
    rfl
  exact List.perm_replicate.mp (copied.found_perm.trans (.of_eq scanned))

/-- The bytes of the artifact are counted twice. -/
theorem not_always_indexed :
    ¬ ∀ (d : Directory) (budget : Nat), (ofDirectory d budget).Indexed := by
  intro always
  have once := (readsOnce_of_indexed (always copied)).repeats
  rw [found_copied] at once
  have empty : oneByte.size = 0 := (List.pairwise_cons.mp once).1 oneByte (by simp) rfl
  cases empty

end Copy

end Cache

end TieredUdf
