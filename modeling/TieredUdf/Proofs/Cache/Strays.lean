import Mathlib.Algebra.BigOperators.Group.Finset.Basic
import Mathlib.Algebra.Order.BigOperators.Group.Finset
import TieredUdf.Proofs.Cache.ArtifactNames
import TieredUdf.Proofs.Cache.InStep

/-! # Artifacts that belong to no entry

Opening a directory goes by the descriptions.  An artifact that no readable description is about
stays in the directory and has no entry, so its bytes are not part of what the budget limits; all
other artifacts that are left belong to entries and are within the budget.
-/

namespace TieredUdf

/-! ## What opening a directory leaves -/

namespace Directory

variable {d : Directory}

/-- An artifact is left over, and no description of it is kept. -/
def Stray (d : Directory) (h : ContentHash) : Prop :=
  (d.cleaned.file? h.artifactFile).isSome = true ∧ h ∉ d.found.map ArtifactMeta.hash

theorem mem_found_hashes {h : ContentHash} : h ∈ d.found.map ArtifactMeta.hash ↔
    h ∈ ({ d with present := true }.scan d.names).2.map ArtifactMeta.hash :=
  (d.found_perm.map _).mem_iff

theorem shrinks_cleaned (d : Directory) : d.Shrinks d.cleaned :=
  (scan_sound { d with present := true } d.names).1

/-- What nobody describes is not touched. -/
theorem scan_undescribed {h : ContentHash}
    (unknown : ∀ name m, d.described? name = some m → m.hash ≠ h) (names : List String) :
    (d.scan names).1.file? h.artifactFile = d.file? h.artifactFile ∧
      h ∉ (d.scan names).2.map ArtifactMeta.hash := by
  constructor
  · induction names using List.reverseRecOn with
    | nil => rfl
    | append_singleton names name ih =>
        have shrinks := (scan_sound d names).1
        rw [scan_append_singleton]
        refine (file?_foldl_attempt ?_).trans ih
        exact untouched_cleaning fun m said same =>
          absurd same (unknown name m (shrinks.described? said))
  · intro mem
    obtain ⟨m, hm, same⟩ := List.mem_map.mp mem
    obtain ⟨_, name, _, said⟩ := (scan_sound d names).2 m hm
    exact unknown name m said same

/-- The description that bears the name of its own hash stays when a name is looked at, and is
kept when it is looked at itself, or else the artifact is removed. -/
theorem cleaning_own {h : ContentHash} {m : ArtifactMeta}
    (here : d.described? h.metaFile = some m) (own : m.hash = h) (name : String) :
    ((d.cleaning name).foldl attempt d).file? h.artifactFile = none ∨
      (((d.cleaning name).foldl attempt d).described? h.metaFile = some m ∧
        (name = h.metaFile → d.kept? name = some m)) := by
  cases looked : d.described? name with
  | none =>
      -- only the name itself is removed, and it is another one
      have other : name ≠ h.metaFile := by
        rintro rfl
        rw [here] at looked
        cases looked
      have untouched : ∀ op ∈ d.cleaning name, ¬ op.Touches h.metaFile := by
        intro op hop
        rcases mem_cleaning hop with ⟨k, described, _, _⟩ | ⟨_, rfl, _⟩
        · rw [looked] at described
          cases described
        · exact other
      exact Or.inr ⟨(described?_congr (file?_foldl_attempt untouched)).trans here,
        fun same => absurd same other⟩
  | some k =>
      have itself : name = h.metaFile → k = m := by
        rintro rfl
        exact Option.some.inj (looked.symm.trans here)
      by_cases held : d.holdsArtifact k = true
      · have keeps : d.kept? name = some k := kept?_eq_some.mpr ⟨looked, held⟩
        rw [cleaning_of_kept keeps]
        exact Or.inr ⟨here, fun same => itself same ▸ keeps⟩
      · have lost : d.cleaning name = removing k.hash := by simp [cleaning, looked, held]
        rw [lost]
        by_cases same : h = k.hash
        · rw [same]
          exact Or.inl (file?_removeArtifact_self _ k.hash)
        · refine Or.inr ⟨(described?_removeArtifact_of_ne _ same).trans here, fun named => ?_⟩
          exact absurd (itself named ▸ own.symm) same

/-- A description that bears the name of its own hash is found, or its artifact is removed. -/
theorem scan_own {h : ContentHash} {m : ArtifactMeta} (said : d.described? h.metaFile = some m)
    (own : m.hash = h) (names : List String) :
    (d.scan names).1.file? h.artifactFile = none ∨
      ((d.scan names).1.described? h.metaFile = some m ∧
        (h.metaFile ∈ names → h ∈ (d.scan names).2.map ArtifactMeta.hash)) := by
  induction names using List.reverseRecOn with
  | nil => exact Or.inr ⟨said, nofun⟩
  | append_singleton names name ih =>
      rw [scan_append_singleton]
      rcases ih with gone | ⟨here, kept⟩
      · have shrinks := shrinks_foldl_attempt (removals_cleaning (d.scan names).1 name)
          (d.scan names).1
        exact Or.inl ((shrinks h.artifactFile).elim id fun same => same.trans gone)
      · rcases cleaning_own here own name with gone | ⟨still, found⟩
        · exact Or.inl gone
        · refine Or.inr ⟨still, fun mem => ?_⟩
          rw [List.map_append, List.mem_append]
          rcases List.mem_append.mp mem with old | last
          · exact Or.inl (kept old)
          · rw [found (List.mem_singleton.mp last).symm]
            exact Or.inr (by simp [own])

/-- An artifact that no readable description is about is a stray one. -/
theorem stray_of_undescribed {h : ContentHash}
    (unknown : ∀ name m, d.described? name = some m → m.hash ≠ h) :
    d.Stray h ↔ (d.file? h.artifactFile).isSome = true := by
  obtain ⟨file, absent⟩ := scan_undescribed (d := { d with present := true }) unknown d.names
  have same : d.cleaned.file? h.artifactFile = d.file? h.artifactFile := file
  rw [Stray, same]
  exact and_iff_left fun mem => absent (mem_found_hashes.mp mem)

/-- An artifact whose description bears its name is none. -/
theorem not_stray_of_own {h : ContentHash} {m : ArtifactMeta}
    (said : d.described? h.metaFile = some m) (own : m.hash = h) : ¬ d.Stray h := by
  rintro ⟨left, absent⟩
  obtain ⟨_, data, file, _⟩ := file?_of_described said
  rcases scan_own (d := { d with present := true }) said own d.names with gone | ⟨_, kept⟩
  · rw [show d.cleaned.file? h.artifactFile = none from gone] at left
    cases left
  · exact absent (mem_found_hashes.mpr (kept (mem_names_of_file? file)))

end Directory

namespace Cache

variable {d : Directory} {budget : Nat}

theorem artifact?_indexed (d : Directory) (budget : Nat) (h : ContentHash) :
    (d.indexed budget).artifact? h = d.cleaned.file? h.artifactFile := by
  rw [artifact?, Directory.indexed, (place_adopted d.found _).1]
  rfl

theorem contains_indexed (d : Directory) (budget : Nat) (h : ContentHash) :
    (d.indexed budget).contains h = decide (h ∈ d.found.map ArtifactMeta.hash) := by
  rw [Directory.indexed, contains_adopted]
  rfl

theorem sheds_ofDirectory (d : Directory) (budget : Nat) :
    (d.indexed budget).Sheds (ofDirectory d budget) := sheds_evictEach _ _ _

/-- Evictions neither add stray artifacts nor remove them. -/
theorem stray_ofDirectory {h : ContentHash} : (ofDirectory d budget).Stray h ↔ d.Stray h := by
  have indexed : (d.indexed budget).Stray h ↔ d.Stray h := by
    rw [Stray, artifact?_indexed, contains_indexed, decide_eq_false_iff_not, Directory.Stray]
  rw [← indexed]
  constructor
  · exact (sheds_ofDirectory d budget).settles.stray
  · rintro ⟨artifact, missing⟩
    rcases sheds_ofDirectory d budget h with ⟨same, also⟩ | ⟨present, _⟩
    · exact ⟨same ▸ artifact, also ▸ missing⟩
    · exact absurd (missing.symm.trans present) Bool.false_ne_true

end Cache

/-! ## The bytes that are left -/

namespace Directory

variable {d files : Directory}

def lengthOf (d : Directory) (name : String) : Nat := ((d.file? name).getD []).length

/-- The files that are named like artifacts. -/
def artifactNames (d : Directory) : Finset String :=
  {name ∈ d.names.toFinset | isArtifactName name = true ∧ (d.file? name).isSome = true}

def artifactBytes (d : Directory) : Nat := ∑ name ∈ d.artifactNames, d.lengthOf name

def strayNames (d : Directory) : Finset String :=
  {name ∈ d.cleaned.artifactNames | name ∉ d.found.map fun m => m.hash.artifactFile}

def strayBytes (d : Directory) : Nat := ∑ name ∈ d.strayNames, d.lengthOf name

theorem mem_artifactNames {name : String} : name ∈ d.artifactNames ↔
    ∃ h : ContentHash, h.bytes.length = 32 ∧ name = h.artifactFile ∧
      (d.file? h.artifactFile).isSome = true := by
  simp only [artifactNames, Finset.mem_filter, List.mem_toFinset, isArtifactName_iff]
  constructor
  · rintro ⟨_, ⟨h, whole, rfl⟩, there⟩
    exact ⟨h, whole, rfl, there⟩
  · rintro ⟨h, whole, rfl, there⟩
    obtain ⟨data, file⟩ := Option.isSome_iff_exists.mp there
    exact ⟨mem_names_of_file? file, ⟨h, whole, rfl⟩, there⟩

theorem mem_strayNames {name : String} : name ∈ d.strayNames ↔
    ∃ h : ContentHash, h.bytes.length = 32 ∧ name = h.artifactFile ∧ d.Stray h := by
  have named (h : ContentHash) : h.artifactFile ∈ d.found.map (fun m => m.hash.artifactFile) ↔
      h ∈ d.found.map ArtifactMeta.hash := by
    simp only [List.mem_map]
    exact exists_congr fun m => and_congr_right fun _ =>
      ⟨ContentHash.artifactFile_inj, congrArg ContentHash.artifactFile⟩
  simp only [strayNames, Finset.mem_filter, mem_artifactNames]
  constructor
  · rintro ⟨⟨h, whole, rfl, there⟩, absent⟩
    exact ⟨h, whole, rfl, there, fun mem => absent ((named h).mpr mem)⟩
  · rintro ⟨h, whole, rfl, there, absent⟩
    exact ⟨⟨h, whole, rfl, there⟩, fun mem => absent ((named h).mp mem)⟩

/-- The files of some entries, one for each hash, are no larger than the entries say. -/
theorem lengths_le_bytesOf {entries : List CacheEntry}
    (distinct : (entries.map CacheEntry.hash).Nodup)
    (sizes : ∀ e ∈ entries, files.lengthOf e.hash.artifactFile ≤ e.about.size)
    {names : Finset String} (named : ∀ name ∈ names, ∃ e ∈ entries, name = e.hash.artifactFile) :
    ∑ name ∈ names, files.lengthOf name ≤ Cache.bytesOf entries := by
  let fileNames := entries.map fun e => e.hash.artifactFile
  have once : fileNames.Nodup := by
    have hashes := distinct.map (f := ContentHash.artifactFile)
      fun _ _ same => ContentHash.artifactFile_inj same
    rwa [List.map_map] at hashes
  have among : names ⊆ fileNames.toFinset := by
    intro name mem
    obtain ⟨e, he, rfl⟩ := named name mem
    exact List.mem_toFinset.mpr (List.mem_map.mpr ⟨e, he, rfl⟩)
  calc ∑ name ∈ names, files.lengthOf name
      ≤ ∑ name ∈ fileNames.toFinset, files.lengthOf name := Finset.sum_le_sum_of_subset among
    _ = (fileNames.map files.lengthOf).sum := List.sum_toFinset _ once
    _ = (entries.map fun e => files.lengthOf e.hash.artifactFile).sum := by rw [List.map_map]; rfl
    _ ≤ Cache.bytesOf entries := List.sum_le_sum sizes

end Directory

namespace Cache

variable {d : Directory} {budget : Nat}

/-- The entries are within the budget, even if the counter is not. -/
theorem bytesOf_ofDirectory_le (d : Directory) (budget : Nat) :
    bytesOf (ofDirectory d budget).entries ≤ budget := by
  rcases ofDirectory_met d budget with met | empty
  · have total := (openedFrom_ofDirectory d budget).counted.total_eq
    omega
  · rw [empty]
    exact Nat.zero_le _

section Left

variable {files : Directory} (place : (ofDirectory d budget).directory = some files)

include place

theorem artifact?_left (h : ContentHash) :
    (ofDirectory d budget).artifact? h = files.file? h.artifactFile := by
  rw [artifact?, place]
  rfl

theorem file?_left (h : ContentHash) :
    files.file? h.artifactFile = d.cleaned.file? h.artifactFile ∨
      files.file? h.artifactFile = none := by
  rw [← artifact?_left place, ← artifact?_indexed d budget]
  exact (sheds_ofDirectory d budget h).imp And.left fun gone => gone.2.1

/-- A stray artifact is left as it was. -/
theorem file?_left_of_stray {h : ContentHash} (stray : d.Stray h) :
    (files.file? h.artifactFile).isSome = true ∧
      files.file? h.artifactFile = d.file? h.artifactFile := by
  have still : (ofDirectory d budget).Stray h := stray_ofDirectory.mpr stray
  have there := still.1
  rw [artifact?_left place] at there
  refine ⟨there, ?_⟩
  rcases file?_left place h with same | gone
  · rcases d.shrinks_cleaned h.artifactFile with removed | kept
    · rw [same, removed] at there
      cases there
    · exact same.trans kept
  · rw [gone] at there
    cases there

/-- The artifact of an entry, if it is left, has the size that the entry says. -/
theorem lengthOf_left_le {e : CacheEntry} (he : e ∈ (ofDirectory d budget).entries) :
    files.lengthOf e.hash.artifactFile ≤ e.about.size := by
  obtain ⟨m, hm, rfl⟩ :=
    entries_indexed d budget e ((openedFrom_ofDirectory d budget).entries he)
  obtain ⟨held, _⟩ := (Directory.scan_sound _ _).2 m (mem_found.mp hm)
  obtain ⟨bytes, file, size⟩ := Directory.holdsArtifact_iff.mp held
  have here : d.file? m.hash.artifactFile = some bytes := file
  have least : files.file? m.hash.artifactFile = none ∨
      files.file? m.hash.artifactFile = some bytes := by
    rcases file?_left place m.hash with same | gone
    · rw [same, ← here]
      exact d.shrinks_cleaned m.hash.artifactFile
    · exact Or.inl gone
  change ((files.file? m.hash.artifactFile).getD []).length ≤ m.size
  rcases least with gone | left
  · rw [gone]
    exact Nat.zero_le _
  · rw [left]
    exact size.le

/-- Every artifact that is left is a stray one or that of an entry. -/
theorem owned_left {name : String} (mem : name ∈ files.artifactNames) :
    name ∈ d.strayNames ∨ ∃ e ∈ (ofDirectory d budget).entries, name = e.hash.artifactFile := by
  obtain ⟨h, whole, rfl, there⟩ := Directory.mem_artifactNames.mp mem
  cases found : (ofDirectory d budget).find? h with
  | none =>
      have stray : (ofDirectory d budget).Stray h :=
        ⟨(artifact?_left place h).symm ▸ there, by rw [contains, found]; rfl⟩
      exact Or.inl (Directory.mem_strayNames.mpr ⟨h, whole, rfl, stray_ofDirectory.mp stray⟩)
  | some e =>
      obtain ⟨he, rfl⟩ := find?_eq_some found
      exact Or.inr ⟨e, he, rfl⟩

/-- A stray artifact is left, and it is that of no entry. -/
theorem stray_left {name : String} (mem : name ∈ d.strayNames) :
    name ∈ files.artifactNames ∧ files.file? name = d.file? name ∧
      ∀ e ∈ (ofDirectory d budget).entries, name ≠ e.hash.artifactFile := by
  obtain ⟨h, whole, rfl, stray⟩ := Directory.mem_strayNames.mp mem
  obtain ⟨there, same⟩ := file?_left_of_stray place stray
  refine ⟨Directory.mem_artifactNames.mpr ⟨h, whole, rfl, there⟩, same, ?_⟩
  intro e he own
  have still : (ofDirectory d budget).Stray h := stray_ofDirectory.mpr stray
  have missing := still.2
  have distinct := (openedFrom_ofDirectory d budget).counted.distinct
  rw [ContentHash.artifactFile_inj own, contains, find?_of_mem distinct he] at missing
  cases missing

/-- The artifacts of entries are within the budget, and the stray ones come on top. -/
theorem artifactBytes_left :
    d.strayBytes ≤ files.artifactBytes ∧ files.artifactBytes ≤ d.strayBytes + budget := by
  have distinct := (openedFrom_ofDirectory d budget).counted.distinct
  have strays : ∑ name ∈ d.strayNames, files.lengthOf name = d.strayBytes :=
    Finset.sum_congr rfl fun name mem =>
      congrArg (fun data => (data.getD []).length) (stray_left place mem).2.1
  have others : ∑ name ∈ files.artifactNames \ d.strayNames, files.lengthOf name ≤ budget := by
    refine (Directory.lengths_le_bytesOf distinct (fun e he => lengthOf_left_le place he)
      fun name mem => ?_).trans (bytesOf_ofDirectory_le d budget)
    obtain ⟨artifact, other⟩ := Finset.mem_sdiff.mp mem
    exact (owned_left place artifact).resolve_left other
  have total : ∑ name ∈ files.artifactNames \ d.strayNames, files.lengthOf name + d.strayBytes =
      files.artifactBytes := by
    rw [← strays]
    exact Finset.sum_sdiff fun name mem => (stray_left place mem).1
  omega

end Left

end Cache

/-! ## When nothing is stray -/

theorem ArtifactMeta.whole_of_ofFile? {data : List UInt8} {m : ArtifactMeta}
    (read : ofFile? data = some m) : m.hash.bytes.length = 32 := by
  obtain ⟨_, _, read⟩ := Option.bind_eq_some_iff.mp read
  obtain ⟨_, _, read⟩ := Option.bind_eq_some_iff.mp read
  obtain ⟨_, _, read⟩ := Option.bind_eq_some_iff.mp read
  obtain ⟨values, _, read⟩ := Option.bind_eq_some_iff.mp read
  split at read
  · rename_i hash _ _ _ _ _
    obtain ⟨h, parsed, read⟩ := Option.bind_eq_some_iff.mp read
    obtain ⟨_, _, read⟩ := Option.bind_eq_some_iff.mp read
    obtain ⟨_, _, read⟩ := Option.bind_eq_some_iff.mp read
    obtain ⟨_, _, read⟩ := Option.bind_eq_some_iff.mp read
    cases read
    obtain ⟨bytes, _, parsed⟩ := Option.bind_eq_some_iff.mp parsed
    split at parsed
    · rename_i whole
      cases parsed
      exact whole
    · cases parsed
  · cases read

def Directory.left (d : Directory) (budget : Nat) : Directory :=
  (Cache.ofDirectory d budget).directory.getD d

namespace Cache

variable {d : Directory} {budget : Nat}

theorem directory_left (d : Directory) (budget : Nat) :
    (ofDirectory d budget).directory = some (d.left budget) := by
  obtain ⟨files, place, _⟩ := (openedFrom_ofDirectory d budget).files
  rw [Directory.left, place, Option.getD_some]

theorem whole_of_found {m : ArtifactMeta} (hm : m ∈ d.found) : m.hash.bytes.length = 32 := by
  obtain ⟨_, name, _, said⟩ := (Directory.scan_sound _ _).2 m (mem_found.mp hm)
  obtain ⟨_, data, _, read⟩ := Directory.file?_of_described said
  exact ArtifactMeta.whole_of_ofFile? read

theorem owned_iff (d : Directory) (budget : Nat) :
    (∀ name ∈ (d.left budget).artifactNames,
      ∃ e ∈ (ofDirectory d budget).entries, name = e.hash.artifactFile) ↔ d.strayNames = ∅ := by
  have place := directory_left d budget
  rw [Finset.eq_empty_iff_forall_notMem]
  constructor
  · intro owned name mem
    obtain ⟨artifact, _, other⟩ := stray_left place mem
    obtain ⟨e, he, own⟩ := owned name artifact
    exact other e he own
  · intro none name mem
    exact (owned_left place mem).resolve_left (none name)

theorem within_iff (d : Directory) :
    (∀ budget, (d.left budget).artifactBytes ≤ budget) ↔ d.strayBytes = 0 := by
  constructor
  · intro within
    exact Nat.eq_zero_of_le_zero ((artifactBytes_left (directory_left d 0)).1.trans (within 0))
  · intro zero budget
    have most := (artifactBytes_left (directory_left d budget)).2
    rwa [zero, Nat.zero_add] at most

/-- The artifacts that are left are those of the entries if none is stray and none was removed
after its description was kept. -/
theorem agrees_ofDirectory_iff (d : Directory) :
    (∀ budget, (ofDirectory d budget).Agrees) ↔
      d.strayNames = ∅ ∧ ∀ m ∈ d.found, (d.cleaned.file? m.hash.artifactFile).isSome = true := by
  rw [Finset.eq_empty_iff_forall_notMem]
  constructor
  · intro agrees
    refine ⟨fun name mem => ?_, fun m hm => ?_⟩
    · obtain ⟨h, whole, rfl, stray⟩ := Directory.mem_strayNames.mp mem
      exact (agrees_iff.mp (agrees 0) h whole).1 (stray_ofDirectory.mpr stray)
    · -- nothing is evicted with a budget for everything that was found
      have index := agrees (d.found.map ArtifactMeta.size).sum m.hash (whole_of_found hm)
      rw [ofDirectory_of_large (Nat.le_refl _), artifact?_indexed, contains_indexed] at index
      exact index.trans (decide_eq_true (List.mem_map.mpr ⟨m, hm, rfl⟩))
  · rintro ⟨none, there⟩ budget
    refine agrees_iff.mpr fun h whole => ⟨fun stray => ?_, fun lost => ?_⟩
    · exact none _ (Directory.mem_strayNames.mpr ⟨h, whole, rfl, stray_ofDirectory.mp stray⟩)
    · obtain ⟨gone, present⟩ := (sheds_ofDirectory d budget).settles.lost lost
      rw [artifact?_indexed] at gone
      rw [contains_indexed] at present
      obtain ⟨m, hm, rfl⟩ := List.mem_map.mp (of_decide_eq_true present)
      exact absurd (gone.symm.trans (there m hm)) Bool.false_ne_true

/-- After an opening every artifact that is left is a stray one or that of an entry, and those of
the entries are within the budget.  The stray ones, which are those whose description is missing
or unreadable, are left as they were, so the law that every artifact has its entry holds exactly
when there are none, and the artifacts are within every budget exactly when the stray ones have no
bytes.  A use in which no file operation fails makes no artifact a stray one, and keeps the
artifacts and the entries in step when they are so at the beginning. -/
theorem ofDirectory_strays (d : Directory) :
    (∀ budget, (ofDirectory d budget).directory = some (d.left budget) ∧
      (∀ name ∈ (d.left budget).artifactNames, name ∈ d.strayNames ∨
        ∃ e ∈ (ofDirectory d budget).entries, name = e.hash.artifactFile) ∧
      (∀ name ∈ d.strayNames, name ∈ (d.left budget).artifactNames ∧
        (d.left budget).file? name = d.file? name ∧
        ∀ e ∈ (ofDirectory d budget).entries, name ≠ e.hash.artifactFile) ∧
      d.strayBytes ≤ (d.left budget).artifactBytes ∧
      (d.left budget).artifactBytes ≤ d.strayBytes + budget) ∧
    (∀ h : ContentHash, h.bytes.length = 32 →
      ((∀ name m, d.described? name = some m → m.hash ≠ h) →
        (h.artifactFile ∈ d.strayNames ↔ (d.file? h.artifactFile).isSome = true)) ∧
      ∀ m, d.described? h.metaFile = some m → m.hash = h → h.artifactFile ∉ d.strayNames) ∧
    (∀ budget, (∀ name ∈ (d.left budget).artifactNames,
      ∃ e ∈ (ofDirectory d budget).entries, name = e.hash.artifactFile) ↔ d.strayNames = ∅) ∧
    ((∀ budget, (d.left budget).artifactBytes ≤ budget) ↔ d.strayBytes = 0) ∧
    ((∀ budget, (ofDirectory d budget).Agrees) ↔
      d.strayNames = ∅ ∧ ∀ m ∈ d.found, (d.cleaned.file? m.hash.artifactFile).isSome = true) ∧
    ∀ (budget : Nat) (actions : List Ledger.Action),
      (Ledger.opened d budget).Completes actions →
        (∀ h, ((Ledger.opened d budget).run actions).cache.Stray h → d.Stray h) ∧
        ((ofDirectory d budget).Agrees →
          ((Ledger.opened d budget).run actions).cache.Agrees) := by
  have named (h : ContentHash) (whole : h.bytes.length = 32) :
      h.artifactFile ∈ d.strayNames ↔ d.Stray h := by
    rw [Directory.mem_strayNames]
    constructor
    · rintro ⟨k, _, same, stray⟩
      rwa [ContentHash.artifactFile_inj same]
    · exact fun stray => ⟨h, whole, rfl, stray⟩
  refine ⟨fun budget => ?_, fun h whole => ⟨fun unknown => ?_, fun m said own => ?_⟩, owned_iff d,
    within_iff d, agrees_ofDirectory_iff d, fun budget actions done => ?_⟩
  · have place := directory_left d budget
    exact ⟨place, fun name => owned_left place, fun name => stray_left place,
      artifactBytes_left place⟩
  · exact (named h whole).trans (Directory.stray_of_undescribed unknown)
  · exact fun stray => Directory.not_stray_of_own said own ((named h whole).mp stray)
  · have settles := Ledger.settles_run (l := Ledger.opened d budget) (directory_left d budget) done
    exact ⟨fun h stray => stray_ofDirectory.mp (settles.stray stray), settles.agrees⟩

theorem strayNames_single : single.strayNames = ∅ := by
  rw [Finset.eq_empty_iff_forall_notMem]
  intro name mem
  obtain ⟨h, _, rfl, stray⟩ := Directory.mem_strayNames.mp mem
  obtain ⟨there, _⟩ := file?_left_of_stray (directory_left single 1) stray
  rw [(file?_left_of_stray (directory_left single 1) stray).2] at there
  obtain ⟨data, file⟩ := Option.isSome_iff_exists.mp there
  have own : h = oneByte.hash := by
    rcases List.mem_pair.mp (Directory.mem_names_of_file? file) with same | same
    · exact ContentHash.artifactFile_inj same
    · exact absurd same (ContentHash.artifactFile_ne_metaFile _ _)
  have said : single.described? oneByte.hash.metaFile = some oneByte :=
    Directory.described?_of_file (ContentHash.fileExtension?_metaFile rfl) rfl writable_oneByte
  subst own
  exact Directory.not_stray_of_own said rfl stray

theorem ofDirectory_strays_single :
    oneByte.hash.bytes.length = 32 ∧
      single.described? oneByte.hash.metaFile = some oneByte ∧
      oneByte.hash.artifactFile ∉ single.strayNames ∧ (ofDirectory single 1).Agrees ∧
      (Ledger.opened single 1).Completes [.lookup oneByte.hash, .evict 0] ∧
      ((Ledger.opened single 1).run [.lookup oneByte.hash, .evict 0]).cache.Agrees := by
  have said : single.described? oneByte.hash.metaFile = some oneByte :=
    Directory.described?_of_file (ContentHash.fileExtension?_metaFile rfl) rfl writable_oneByte
  have there : ∀ m ∈ single.found, (single.cleaned.file? m.hash.artifactFile).isSome = true := by
    intro m hm
    have once := readsOnce_of_describesOnce (by decide) describesOnce_single
    obtain ⟨bytes, file, _⟩ := Directory.holdsArtifact_iff.mp (once.held m hm)
    exact Option.isSome_iff_exists.mpr ⟨bytes, file⟩
  obtain ⟨_, strays, _, _, agrees, runs⟩ := ofDirectory_strays single
  have start := agrees.mpr ⟨strayNames_single, there⟩ 1
  have done : (Ledger.opened single 1).Completes [.lookup oneByte.hash, .evict 0] :=
    ⟨rfl, rfl, trivial⟩
  exact ⟨rfl, said, (strays oneByte.hash rfl).2 oneByte said rfl, start, done,
    (runs 1 _ done).2 start⟩

def alone : Directory := ⟨true, [(oneByte.hash.artifactFile, .file [0])]⟩

/-- The artifact is left without an entry, and it is over the budget. -/
theorem not_always_owned :
    oneByte.hash.artifactFile ∈ (alone.left 0).artifactNames ∧
      (ofDirectory alone 0).entries = [] ∧ 0 < (alone.left 0).artifactBytes ∧
      ¬ ∀ (d : Directory) (budget : Nat), (∀ name ∈ (d.left budget).artifactNames,
        ∃ e ∈ (ofDirectory d budget).entries, name = e.hash.artifactFile) ∧
        (d.left budget).artifactBytes ≤ budget := by
  have undescribed : ∀ name, alone.described? name = none := by
    intro name
    cases said : alone.described? name with
    | none => rfl
    | some m =>
        obtain ⟨json, data, file, _⟩ := Directory.file?_of_described said
        have named := List.mem_singleton.mp (Directory.mem_names_of_file? file)
        rw [named] at json
        exact absurd json (ContentHash.fileExtension?_artifactFile_ne _).1
  have stray : alone.Stray oneByte.hash := by
    refine (Directory.stray_of_undescribed fun name m said => ?_).mpr rfl
    rw [undescribed] at said
    cases said
  have named : oneByte.hash.artifactFile ∈ alone.strayNames :=
    Directory.mem_strayNames.mpr ⟨_, rfl, rfl, stray⟩
  have place := directory_left alone 0
  obtain ⟨artifact, _, other⟩ := stray_left place named
  have empty : (ofDirectory alone 0).entries = [] := by
    rw [List.eq_nil_iff_forall_not_mem]
    intro e he
    obtain ⟨m, hm, _⟩ := entries_indexed alone 0 e ((openedFrom_ofDirectory alone 0).entries he)
    obtain ⟨_, name, _, said⟩ := (Directory.scan_sound _ _).2 m (mem_found.mp hm)
    cases (undescribed name).symm.trans said
  have bytes : 0 < (alone.left 0).artifactBytes := by
    have least := (artifactBytes_left place).1
    have one : alone.lengthOf oneByte.hash.artifactFile = 1 := rfl
    have among := Finset.single_le_sum (f := alone.lengthOf) (fun _ _ => Nat.zero_le _) named
    unfold Directory.strayBytes at least
    omega
  refine ⟨artifact, empty, bytes, fun always => ?_⟩
  exact absurd (always alone 0).2 (Nat.not_le.mpr bytes)

end Cache

end TieredUdf
