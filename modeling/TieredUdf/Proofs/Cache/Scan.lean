import Mathlib.Data.List.Induction
import TieredUdf.Proofs.Cache.Description

/-! # What opening a directory reads and removes

Opening looks at one name after the other.  A description whose artifact is there with its size
is kept.  Files are removed one by one, and none is changed in any other way: an artifact goes
only when one of its descriptions does not fit it.
-/

namespace TieredUdf

/-! ## Extensions -/

theorem fileExtension?_of_split {name : String} {stem ending : List Char}
    (split : name.toList = stem ++ '.' :: ending) (plain : '.' ∉ ending) :
    fileExtension? name = if stem = [] then none else some (String.ofList ending) := by
  have reversed : name.toList.reverse = ending.reverse ++ '.' :: stem.reverse := by
    simp [split]
  have ends : ∀ c ∈ ending.reverse, (c != '.') = true := by
    intro c hc
    have other : c ≠ '.' := by
      rintro rfl
      exact plain (List.mem_reverse.mp hc)
    simpa using other
  have dropped : name.toList.reverse.dropWhile (· != '.') = '.' :: stem.reverse := by
    rw [reversed, List.dropWhile_append_of_pos ends]
    rfl
  have taken : name.toList.reverse.takeWhile (· != '.') = ending.reverse := by
    rw [reversed, List.takeWhile_append_of_pos ends]
    simp
  unfold fileExtension?
  dsimp only
  rw [dropped, taken, List.reverse_reverse]
  cases split : stem.reverse with
  | nil => simp [List.reverse_eq_nil_iff.mp split]
  | cons c cs =>
      have given : stem ≠ [] := by
        rintro rfl
        cases split
      simp [given]

namespace ContentHash

theorem hex_toList_ne_nil {h : ContentHash} (whole : h.bytes.length = 32) : h.hex.toList ≠ [] := by
  rw [hex_toList]
  cases split : h.bytes with
  | nil => simp [split] at whole
  | cons b bytes => exact nofun

theorem fileExtension?_metaFile {h : ContentHash} (whole : h.bytes.length = 32) :
    fileExtension? h.metaFile = some "json" := by
  have split : h.metaFile.toList = h.hex.toList ++ '.' :: ['j', 's', 'o', 'n'] := by
    rw [metaFile, String.toList_append]
    rfl
  rw [fileExtension?_of_split split (by decide), if_neg (hex_toList_ne_nil whole)]

theorem fileExtension?_temporaryFile_ne (h : ContentHash) :
    fileExtension? h.temporaryFile ≠ some "json" := by
  have split : h.temporaryFile.toList = h.hex.toList ++ '.' :: ['t', 'm', 'p'] := by
    rw [temporaryFile, String.toList_append]
    rfl
  rw [fileExtension?_of_split split (by decide)]
  split <;> decide

theorem fileExtension?_artifactFile_ne (h : ContentHash) :
    fileExtension? h.artifactFile ≠ some "json" ∧ fileExtension? h.artifactFile ≠ some "tmp" := by
  have split : h.artifactFile.toList = h.hex.toList ++ '.' :: ['c', 'w', 'a', 's', 'm'] := by
    rw [artifactFile, String.toList_append]
    rfl
  rw [fileExtension?_of_split split (by decide)]
  split <;> decide

end ContentHash

namespace Directory

variable {d e : Directory}

/-! ## Looking at a name -/

/-- What a file says of an artifact, when it is named like a description and can be read. -/
def described? (d : Directory) (name : String) : Option ArtifactMeta :=
  if fileExtension? name = some "json" then (d.file? name).bind ArtifactMeta.ofFile? else none

theorem described?_of_file {name : String} {m : ArtifactMeta}
    (named : fileExtension? name = some "json")
    (file : d.file? name = some m.fileText.toUTF8.toList) (h : m.Writable) :
    d.described? name = some m := by
  rw [described?, if_pos named, file, Option.bind_some, ArtifactMeta.ofFile?_fileText h]

theorem described?_of_extension {name : String} (h : fileExtension? name ≠ some "json") :
    d.described? name = none := if_neg h

theorem file?_of_described {name : String} {m : ArtifactMeta} (said : d.described? name = some m) :
    fileExtension? name = some "json" ∧
      ∃ data, d.file? name = some data ∧ ArtifactMeta.ofFile? data = some m := by
  unfold described? at said
  split at said
  · rename_i json
    exact ⟨json, Option.bind_eq_some_iff.mp said⟩
  · cases said

/-- The description that is kept when a name is looked at. -/
def kept? (d : Directory) (name : String) : Option ArtifactMeta :=
  (d.described? name).filter d.holdsArtifact

/-- What is removed when a name is looked at. -/
def cleaning (d : Directory) (name : String) : List FileOp :=
  match d.described? name with
  | some m => if d.holdsArtifact m then [] else removing m.hash
  | none =>
      if fileExtension? name = some "json" ∨ fileExtension? name = some "tmp" then [.remove name]
      else []

theorem scanName_eq (d : Directory) (found : List ArtifactMeta) (name : String) :
    Cache.scanName (d, found) name =
      ((d.cleaning name).foldl attempt d, found ++ (d.kept? name).toList) := by
  unfold Cache.scanName cleaning kept? described?
  dsimp only
  split
  · rename_i json
    rw [if_pos json]
    cases said : (d.file? name).bind ArtifactMeta.ofFile? with
    | none => simp [json]
    | some m =>
        by_cases held : d.holdsArtifact m = true
        · simp [held, Option.filter]
        · simp [held, Option.filter, removeArtifact]
  · rename_i temporary
    simp [temporary]
  · rename_i json temporary
    have no_description : fileExtension? name ≠ some "json" := json
    have not_temporary : fileExtension? name ≠ some "tmp" := temporary
    simp [no_description, not_temporary]

/-- What is removed is the files of a description that does not fit, or the name itself when it
describes nothing. -/
theorem mem_cleaning {name : String} {op : FileOp} (h : op ∈ d.cleaning name) :
    (∃ m, d.described? name = some m ∧ d.holdsArtifact m = false ∧ op ∈ removing m.hash) ∨
    (d.described? name = none ∧ op = .remove name ∧
      (fileExtension? name = some "json" ∨ fileExtension? name = some "tmp")) := by
  unfold cleaning at h
  cases said : d.described? name with
  | some m =>
      simp only [said] at h
      split at h
      · cases h
      · rename_i lost
        exact Or.inl ⟨m, rfl, by simpa using lost, h⟩
  | none =>
      simp only [said] at h
      split at h
      · rename_i named
        exact Or.inr ⟨rfl, List.mem_singleton.mp h, named⟩
      · cases h

/-- No artifact is touched but that of a description that does not fit. -/
theorem untouched_cleaning {name : String} {h : ContentHash}
    (fits : ∀ m, d.described? name = some m → m.hash = h → d.holdsArtifact m = true) :
    ∀ op ∈ d.cleaning name, ¬ op.Touches h.artifactFile := by
  intro op hop
  rcases mem_cleaning hop with ⟨m, said, lost, removed⟩ | ⟨_, rfl, named⟩
  · have other : h ≠ m.hash := by
      intro same
      rw [fits m said same.symm] at lost
      cases lost
    exact (untouched_removing other op removed).1
  · rintro rfl
    have artifact := ContentHash.fileExtension?_artifactFile_ne h
    exact named.elim artifact.1 artifact.2

/-! ## Files only disappear -/

/-- Every file that is there is as it was. -/
def Shrinks (d e : Directory) : Prop := ∀ name, e.file? name = none ∨ e.file? name = d.file? name

theorem Shrinks.refl (d : Directory) : d.Shrinks d := fun _ => Or.inr rfl

theorem Shrinks.trans {f : Directory} (h : d.Shrinks e) (k : e.Shrinks f) : d.Shrinks f := by
  intro name
  rcases k name with gone | same
  · exact Or.inl gone
  · rw [same]
    exact h name

theorem Shrinks.file? (h : d.Shrinks e) {name : String} {data : List UInt8}
    (found : e.file? name = some data) : d.file? name = some data := by
  rcases h name with gone | same
  · rw [gone] at found
    cases found
  · rw [← same, found]

theorem Shrinks.described? (h : d.Shrinks e) {name : String} {m : ArtifactMeta}
    (said : e.described? name = some m) : d.described? name = some m := by
  obtain ⟨json, data, found, read⟩ := file?_of_described said
  rw [Directory.described?, if_pos json, h.file? found]
  exact read

theorem holdsArtifact_iff {m : ArtifactMeta} : d.holdsArtifact m = true ↔
    ∃ bytes, d.file? m.hash.artifactFile = some bytes ∧ bytes.length = m.size := by
  cases found : d.file? m.hash.artifactFile <;> simp [holdsArtifact, found]

theorem Shrinks.holdsArtifact (h : d.Shrinks e) {m : ArtifactMeta}
    (held : e.holdsArtifact m = true) : d.holdsArtifact m = true := by
  obtain ⟨bytes, found, size⟩ := holdsArtifact_iff.mp held
  exact holdsArtifact_iff.mpr ⟨bytes, h.file? found, size⟩

theorem shrinks_foldl_attempt {ops : List FileOp} (removals : ∀ op ∈ ops, ∃ name, op = .remove name)
    (d : Directory) : d.Shrinks (ops.foldl attempt d) := by
  induction ops generalizing d with
  | nil => exact .refl d
  | cons op ops ih =>
      obtain ⟨⟨removed, rfl⟩, others⟩ := List.forall_mem_cons.mp removals
      have first : d.Shrinks (d.attempt (.remove removed)) := by
        intro name
        by_cases same : removed = name
        · exact Or.inl (same ▸ file?_attempt_remove_self d removed)
        · exact Or.inr (file?_attempt same)
      exact first.trans (ih others _)

theorem removals_removing (h : ContentHash) : ∀ op ∈ removing h, ∃ name, op = .remove name := by
  intro op hop
  rcases List.mem_pair.mp hop with rfl | rfl <;> exact ⟨_, rfl⟩

theorem removals_cleaning (d : Directory) (name : String) :
    ∀ op ∈ d.cleaning name, ∃ removed, op = .remove removed := by
  intro op hop
  rcases mem_cleaning hop with ⟨m, _, _, removed⟩ | ⟨_, rfl, _⟩
  · exact removals_removing m.hash op removed
  · exact ⟨name, rfl⟩

/-! ## Looking at all names -/

/-- What is left of a directory, and what is kept, once some names were looked at. -/
def scan (d : Directory) (names : List String) : Directory × List ArtifactMeta :=
  names.foldl Cache.scanName (d, [])

theorem scan_append_singleton (d : Directory) (names : List String) (name : String) :
    d.scan (names ++ [name]) =
      (((d.scan names).1.cleaning name).foldl attempt (d.scan names).1,
        (d.scan names).2 ++ ((d.scan names).1.kept? name).toList) := by
  rw [scan, List.foldl_append]
  exact scanName_eq _ _ _

theorem kept?_eq_some {name : String} {m : ArtifactMeta} :
    d.kept? name = some m ↔ d.described? name = some m ∧ d.holdsArtifact m = true := by
  unfold kept?
  rw [Option.filter_eq_some_iff]

theorem cleaning_of_kept {name : String} {m : ArtifactMeta} (h : d.kept? name = some m) :
    d.cleaning name = [] := by
  obtain ⟨said, held⟩ := kept?_eq_some.mp h
  simp [cleaning, said, held]

/-- What is left is part of what was there, and what is kept was described there and held. -/
theorem scan_sound (d : Directory) (names : List String) :
    d.Shrinks (d.scan names).1 ∧ ∀ m ∈ (d.scan names).2,
      d.holdsArtifact m = true ∧ ∃ name ∈ names, d.described? name = some m := by
  induction names using List.reverseRecOn with
  | nil => exact ⟨.refl d, nofun⟩
  | append_singleton names name ih =>
      obtain ⟨shrinks, sound⟩ := ih
      rw [scan_append_singleton]
      refine ⟨shrinks.trans (shrinks_foldl_attempt (removals_cleaning _ name) _), fun m hm => ?_⟩
      rcases List.mem_append.mp hm with old | new
      · obtain ⟨held, other, mem, said⟩ := sound m old
        exact ⟨held, other, List.mem_append_left _ mem, said⟩
      · obtain ⟨said, held⟩ := kept?_eq_some.mp (Option.mem_toList.mp new)
        exact ⟨shrinks.holdsArtifact held, name, by simp, shrinks.described? said⟩

/-- What is kept are descriptions that were there, in their order. -/
theorem scan_sublist (d : Directory) (names : List String) :
    (d.scan names).2.Sublist (names.filterMap d.described?) := by
  induction names using List.reverseRecOn with
  | nil => exact List.Sublist.slnil
  | append_singleton names name ih =>
      have shrinks := (scan_sound d names).1
      rw [scan_append_singleton, List.filterMap_append]
      refine ih.append ?_
      cases kept : (d.scan names).1.kept? name with
      | none => exact List.nil_sublist _
      | some m =>
          have said := shrinks.described? (kept?_eq_some.mp kept).1
          simp [said]

/-- Descriptions of one artifact that are kept agree in its size. -/
theorem scan_agrees (d : Directory) (names : List String) {m k : ArtifactMeta}
    (hm : m ∈ (d.scan names).2) (hk : k ∈ (d.scan names).2) (same : m.hash = k.hash) :
    m.size = k.size := by
  have sound := (scan_sound d names).2
  obtain ⟨bytes, found, size⟩ := holdsArtifact_iff.mp (sound m hm).1
  obtain ⟨others, also, length⟩ := holdsArtifact_iff.mp (sound k hk).1
  rw [same, also] at found
  cases found
  exact size.symm.trans length

/-- No artifact is described twice. -/
def DescribesOnce (d : Directory) : Prop :=
  ∀ name other m k, d.described? name = some m → d.described? other = some k →
    m.hash = k.hash → name = other

/-- When no artifact is described twice, no kept description is of an artifact that was kept
before, and the artifact of none is removed. -/
theorem DescribesOnce.scan (once : d.DescribesOnce) {names : List String} (distinct : names.Nodup) :
    ((d.scan names).2.map ArtifactMeta.hash).Nodup ∧
      ∀ m ∈ (d.scan names).2, (d.scan names).1.holdsArtifact m = true := by
  induction names using List.reverseRecOn with
  | nil => exact ⟨List.nodup_nil, nofun⟩
  | append_singleton names name ih =>
      have fresh : name ∉ names := fun old => (List.nodup_append.mp distinct).2.2 name old name
        (by simp) rfl
      obtain ⟨hashes, held⟩ := ih (List.nodup_append.mp distinct).1
      obtain ⟨shrinks, sound⟩ := scan_sound d names
      -- what is described here was not described under a name before
      have new : ∀ m, (d.scan names).1.described? name = some m →
          ∀ k ∈ (d.scan names).2, m.hash ≠ k.hash := by
        intro m said k hk same
        obtain ⟨_, other, mem, described⟩ := sound k hk
        have again := once name other m k (shrinks.described? said) described same
        exact fresh (again ▸ mem)
      rw [scan_append_singleton]
      cases kept : (d.scan names).1.kept? name with
      | none =>
          simp only [Option.toList_none, List.append_nil]
          refine ⟨hashes, fun m hm => ?_⟩
          have untouched : ∀ op ∈ (d.scan names).1.cleaning name,
              ¬ op.Touches m.hash.artifactFile :=
            untouched_cleaning fun k said same => absurd same (new k said m hm)
          have file := file?_foldl_attempt (d := (d.scan names).1) untouched
          have before := held m hm
          unfold holdsArtifact at before ⊢
          rwa [file]
      | some m =>
          obtain ⟨said, here⟩ := kept?_eq_some.mp kept
          rw [cleaning_of_kept kept, Option.toList_some]
          constructor
          · rw [List.map_append, List.nodup_append]
            refine ⟨hashes, by simp, ?_⟩
            intro h old k last same
            obtain ⟨b, hb, rfl⟩ := List.mem_map.mp old
            rw [List.map_singleton, List.mem_singleton] at last
            exact new m said b hb (last.symm.trans same.symm)
          · intro b hb
            rcases List.mem_append.mp hb with old | last
            · exact held b old
            · rw [List.mem_singleton.mp last]
              exact here

end Directory

end TieredUdf
