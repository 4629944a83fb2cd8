import TieredUdf.Proofs.Cache.Journal

/-! # What a stop leaves of the files

The operations of a cache may be stopped after any of them, also within the bytes of a write.
The description of an artifact is there only as long as the artifact is: it is written last and
removed first.  So every description that can be read is that of one deposit, whose bytes are in
the file of the artifact.
-/

namespace TieredUdf

/-- What is stored in one go. -/
structure Deposit where
  hash : ContentHash
  bytes : List UInt8
  origin : String
  backend : String
  now : Nat
  deriving DecidableEq, Repr

namespace Deposit

def about (s : Deposit) : ArtifactMeta := .ofBytes s.hash s.bytes s.origin s.backend s.now

def artifact (s : Deposit) : Artifact := ⟨s.hash, s.bytes, s.origin, s.now⟩

structure Storable (s : Deposit) : Prop where
  hash : s.hash.bytes.length = 32
  size : s.bytes.length ≤ Numeric.maxWord64
  now : s.now ≤ Numeric.maxWord64

theorem Storable.writable {s : Deposit} (h : s.Storable) : s.about.Writable :=
  ⟨h.hash, Digest.Sha256.length_digest _, h.size, h.now⟩

theorem artifact_congr {s t : Deposit} (about : s.about = t.about) (bytes : s.bytes = t.bytes) :
    s.artifact = t.artifact := by
  obtain ⟨hash, _, _, now, origin, _⟩ := ArtifactMeta.mk.inj about
  simp [artifact, hash, bytes, origin, now]

theorem describes (s : Deposit) : s.about.describes s.bytes = true := by
  simp [about, ArtifactMeta.ofBytes, ArtifactMeta.describes]

end Deposit

def Ledger.Action.deposit? : Ledger.Action → Option Deposit
  | .store h bytes origin backend now => some ⟨h, bytes, origin, backend, now⟩
  | .storeAndAcquire h bytes origin backend now => some ⟨h, bytes, origin, backend, now⟩
  | _ => none

namespace Directory

variable {d e : Directory} {begun kept : List Deposit}

/-- Every readable description is that of a deposit, and the artifact is there with its bytes; and
so is every deposit that is kept. -/
structure Keeps (begun kept : List Deposit) (d : Directory) : Prop where
  traces : ∀ name m, d.described? name = some m → name = m.hash.metaFile ∧
    ∃ s ∈ begun, s.about = m ∧ d.file? m.hash.artifactFile = some s.bytes
  kept : ∀ s ∈ kept, d.described? s.hash.metaFile = some s.about ∧
    d.file? s.hash.artifactFile = some s.bytes
  distinct : d.names.Nodup

theorem Keeps.mono (h : d.Keeps begun kept) {more fewer : List Deposit} (grown : begun ⊆ more)
    (shrunk : fewer ⊆ kept) : d.Keeps more fewer := by
  refine ⟨fun name m said => ?_, fun s hs => h.kept s (shrunk hs), h.distinct⟩
  obtain ⟨named, s, hs, about, file⟩ := h.traces name m said
  exact ⟨named, s, grown hs, about, file⟩

/-- Nothing is lost as long as the descriptions and the artifacts that they are of are the same. -/
theorem Keeps.of_same (h : d.Keeps begun kept)
    (described : ∀ name, e.described? name = d.described? name)
    (artifacts : ∀ name m, d.described? name = some m →
      e.file? m.hash.artifactFile = d.file? m.hash.artifactFile)
    (distinct : e.names.Nodup) : e.Keeps begun kept := by
  refine ⟨fun name m said => ?_, fun s hs => ?_, distinct⟩
  · rw [described] at said
    rw [artifacts name m said]
    exact h.traces name m said
  · obtain ⟨said, file⟩ := h.kept s hs
    rw [described]
    exact ⟨said, (artifacts _ _ said).trans file⟩

theorem described?_congr {name : String} (same : e.file? name = d.file? name) :
    e.described? name = d.described? name := by
  unfold described?
  rw [same]

theorem described?_attempt_remove_self (d : Directory) (name : String) :
    (d.attempt (.remove name)).described? name = none := by
  simp [described?, file?_attempt_remove_self]

theorem nodup_names_foldl_attempt (h : d.names.Nodup) (ops : List FileOp) :
    (ops.foldl attempt d).names.Nodup := by
  induction ops generalizing d with
  | nil => exact h
  | cons op ops ih => exact ih (nodup_names_attempt h op)

/-! ## Removing artifacts -/

/-- A description is removed. -/
theorem Keeps.remove_meta (h : d.Keeps begun kept) (k : ContentHash) {fewer : List Deposit}
    (others : ∀ s ∈ fewer, s ∈ kept ∧ s.hash ≠ k) :
    (d.attempt (.remove k.metaFile)).Keeps begun fewer ∧
      ∀ name m, (d.attempt (.remove k.metaFile)).described? name = some m → m.hash ≠ k := by
  have same (name : String) (other : k.metaFile ≠ name) :
      (d.attempt (.remove k.metaFile)).file? name = d.file? name := file?_attempt other
  have artifact (l : ContentHash) := same l.artifactFile
    fun names => ContentHash.artifactFile_ne_metaFile l k names.symm
  have before : ∀ name m, (d.attempt (.remove k.metaFile)).described? name = some m →
      name ≠ k.metaFile ∧ d.described? name = some m := by
    intro name m said
    by_cases own : name = k.metaFile
    · rw [own, described?_attempt_remove_self] at said
      cases said
    · rw [described?_congr (same name fun names => own names.symm)] at said
      exact ⟨own, said⟩
  refine ⟨⟨fun name m said => ?_, fun s hs => ?_, nodup_names_attempt h.distinct _⟩,
    fun name m said hash => ?_⟩
  · rw [artifact]
    exact h.traces name m (before name m said).2
  · obtain ⟨mem, other⟩ := others s hs
    rw [artifact, described?_congr (same _ fun names => other (ContentHash.metaFile_inj names).symm)]
    exact h.kept s mem
  · obtain ⟨own, described⟩ := before name m said
    exact own ((h.traces name m described).1.trans (congrArg ContentHash.metaFile hash))

/-- An artifact without a description is removed. -/
theorem Keeps.remove_artifact (h : d.Keeps begun kept) {k : ContentHash}
    (gone : ∀ name m, d.described? name = some m → m.hash ≠ k) :
    (d.attempt (.remove k.artifactFile)).Keeps begun kept := by
  refine h.of_same (fun name => ?_) (fun name m said => ?_) (nodup_names_attempt h.distinct _)
  · by_cases own : k.artifactFile = name
    · subst own
      have unnamed := (ContentHash.fileExtension?_artifactFile_ne k).1
      rw [described?_of_extension unnamed, described?_of_extension unnamed]
    · exact described?_congr (file?_attempt own)
  · exact file?_attempt fun names => gone name m said (ContentHash.artifactFile_inj names).symm

/-- Artifacts are removed one after the other, up to any of the operations. -/
theorem Keeps.removals (h : d.Keeps begun kept) (victims : List ContentHash) (n : Nat)
    {fewer : List Deposit}
    (others : ∀ s ∈ fewer, s ∈ kept ∧ s.hash ∉ victims.take ((n + 1) / 2)) :
    (((victims.flatMap removing).take n).foldl attempt d).Keeps begun fewer := by
  induction victims generalizing d n kept with
  | nil =>
      have none_left : (([] : List ContentHash).flatMap removing).take n = [] := List.take_nil
      rw [none_left]
      exact h.mono (List.Subset.refl _) fun s hs => (others s hs).1
  | cons k victims ih =>
      have split : (k :: victims).flatMap removing =
          .remove k.metaFile :: .remove k.artifactFile :: victims.flatMap removing := rfl
      rw [split]
      match n with
      | 0 => exact h.mono (List.Subset.refl _) fun s hs => (others s hs).1
      | 1 =>
          refine (h.remove_meta k fun s hs => ?_).1
          obtain ⟨mem, other⟩ := others s hs
          exact ⟨mem, fun same => other (by simp [same])⟩
      | n + 2 =>
          have half : (n + 2 + 1) / 2 = (n + 1) / 2 + 1 := by omega
          rw [half] at others
          have rest : ∀ s ∈ kept.filter fun s => s.hash ≠ k, s ∈ kept ∧ s.hash ≠ k :=
            fun s hs => by simpa using List.mem_filter.mp hs
          obtain ⟨described, gone⟩ := h.remove_meta k rest
          refine ih (described.remove_artifact gone) n fun s hs => ?_
          obtain ⟨mem, other⟩ := others s hs
          rw [List.take_succ_cons, List.mem_cons, not_or] at other
          exact ⟨List.mem_filter.mpr ⟨mem, by simpa using other.1⟩, other.2⟩

/-! ## Storing an artifact -/

theorem described?_foldl_attempt {ops : List FileOp}
    (unnamed : ∀ op ∈ ops, ∀ name, op.Touches name → fileExtension? name ≠ some "json")
    (name : String) : (ops.foldl attempt d).described? name = d.described? name := by
  by_cases json : fileExtension? name = some "json"
  · exact described?_congr (file?_foldl_attempt fun op hop touched => unnamed op hop name touched json)
  · rw [described?_of_extension json, described?_of_extension json]

/-- Operations of a store before its description is named, the writes among them with any
bytes. -/
def Early (k : ContentHash) (op : FileOp) : Prop :=
  (∃ data, op = .write k.temporaryFile data) ∨ op = .rename k.temporaryFile k.artifactFile

theorem Early.touches {k : ContentHash} {op : FileOp} (h : Early k op) {name : String}
    (about : op.Touches name) : name = k.temporaryFile ∨ name = k.artifactFile := by
  rcases h with ⟨data, rfl⟩ | rfl
  · exact Or.inl about.symm
  · exact about.imp Eq.symm Eq.symm

theorem Early.unnamed {k : ContentHash} {op : FileOp} (h : Early k op) (name : String)
    (about : op.Touches name) : fileExtension? name ≠ some "json" := by
  rcases h.touches about with rfl | rfl
  · exact ContentHash.fileExtension?_temporaryFile_ne k
  · exact (ContentHash.fileExtension?_artifactFile_ne k).1

theorem early_storing (m : ArtifactMeta) (bytes : List UInt8) :
    ∀ op ∈ (storing m bytes).take 3, Early m.hash op := by
  intro op hop
  rcases List.mem_cons.mp hop with rfl | hop
  · exact Or.inl ⟨bytes, rfl⟩
  rcases List.mem_pair.mp hop with rfl | rfl
  · exact Or.inr rfl
  · exact Or.inl ⟨_, rfl⟩

/-- Nothing is lost before the description is named, if there is no other one of the hash. -/
theorem Keeps.early (h : d.Keeps begun kept) {k : ContentHash}
    (fresh : ∀ name m, d.described? name = some m → m.hash ≠ k) {ops : List FileOp}
    (early : ∀ op ∈ ops, Early k op) : (ops.foldl attempt d).Keeps begun kept := by
  refine h.of_same (described?_foldl_attempt fun op hop => (early op hop).unnamed)
    (fun name m said => ?_) (nodup_names_foldl_attempt h.distinct _)
  refine file?_foldl_attempt fun op hop about => ?_
  rcases (early op hop).touches about with same | same
  · exact ContentHash.temporaryFile_ne_artifactFile _ _ same.symm
  · exact fresh name m said (ContentHash.artifactFile_inj same)

/-- An artifact that is stored is there with its bytes, and so is its description. -/
theorem file?_of_stored {m : ArtifactMeta} {bytes : List UInt8}
    (done : d.perform (storing m bytes) = (e, true)) :
    e.file? m.hash.metaFile = some m.fileText.toUTF8.toList ∧
      e.file? m.hash.artifactFile = some bytes := by
  have temporary_artifact := ContentHash.temporaryFile_ne_artifactFile m.hash m.hash
  have artifact_meta := ContentHash.artifactFile_ne_metaFile m.hash m.hash
  obtain ⟨written, first, done⟩ := perform_cons done
  obtain ⟨named, second, done⟩ := perform_cons done
  obtain ⟨described, third, done⟩ := perform_cons done
  obtain ⟨whole, fourth, done⟩ := perform_cons done
  obtain ⟨rfl, _⟩ := Prod.mk.inj done
  obtain rfl := perform?_write first
  obtain ⟨data, source, rfl⟩ := perform?_rename second
  obtain rfl := perform?_write third
  obtain ⟨text, from_, rfl⟩ := perform?_rename fourth
  rw [file?_put_self] at source from_
  cases source
  cases from_
  refine ⟨file?_put_self _ _ _, ?_⟩
  rw [file?_put_of_ne artifact_meta, file?_erase_of_ne temporary_artifact.symm,
    file?_put_of_ne temporary_artifact.symm, file?_put_self]

theorem foldl_storing {m : ArtifactMeta} {bytes : List UInt8}
    (done : d.perform (storing m bytes) = (e, true)) : e = (storing m bytes).foldl attempt d := by
  have files := perform_eq d (storing m bytes)
  have all := (performed_eq_self_iff d (storing m bytes)).mpr (congrArg Prod.snd done)
  rw [all, done] at files
  exact files

/-- The description of an artifact that is stored comes to those that were there. -/
theorem described?_of_stored {m : ArtifactMeta} {bytes : List UInt8} (writable : m.Writable)
    (done : d.perform (storing m bytes) = (e, true)) (name : String) :
    e.described? name = if name = m.hash.metaFile then some m else d.described? name := by
  by_cases own : name = m.hash.metaFile
  · rw [if_pos own, own]
    exact described?_of_file (ContentHash.fileExtension?_metaFile writable.hash)
      (file?_of_stored done).1 writable
  · rw [if_neg own]
    by_cases json : fileExtension? name = some "json"
    · -- of the names that the operations touch only that of the description ends so
      have unlike : name ≠ m.hash.temporaryFile := by
        rintro rfl
        exact ContentHash.fileExtension?_temporaryFile_ne _ json
      have last : ¬ (FileOp.rename m.hash.temporaryFile m.hash.metaFile).Touches name :=
        not_or.mpr ⟨unlike.symm, fun same => own same.symm⟩
      have before : (((storing m bytes).take 3).foldl attempt d).described? name =
          d.described? name :=
        described?_foldl_attempt (fun op hop => (early_storing m bytes op hop).unnamed) name
      rw [foldl_storing done]
      exact (described?_congr (file?_attempt last)).trans before
    · rw [described?_of_extension json, described?_of_extension json]

theorem file?_artifact_of_stored {m : ArtifactMeta} {bytes : List UInt8}
    (done : d.perform (storing m bytes) = (e, true)) {k : ContentHash} (other : k ≠ m.hash) :
    e.file? k.artifactFile = d.file? k.artifactFile := by
  rw [foldl_storing done]
  refine file?_foldl_attempt fun op hop about => ?_
  have temporary := ContentHash.temporaryFile_ne_artifactFile m.hash k
  rcases List.mem_cons.mp hop with rfl | hop
  · exact temporary about
  rcases List.mem_cons.mp hop with rfl | hop
  · exact about.elim temporary fun same => other (ContentHash.artifactFile_inj same).symm
  rcases List.mem_pair.mp hop with rfl | rfl
  · exact temporary about
  · exact about.elim temporary fun same => ContentHash.artifactFile_ne_metaFile k _ same.symm

/-- An artifact that is stored is kept from then on, beside those that were kept before. -/
theorem Keeps.stored (h : d.Keeps begun kept) {s : Deposit} (storable : s.Storable)
    (fresh : ∀ name m, d.described? name = some m → m.hash ≠ s.hash)
    (done : d.perform (storing s.about s.bytes) = (e, true)) :
    e.Keeps (begun ++ [s]) (kept ++ [s]) := by
  have described : ∀ name, e.described? name =
      if name = s.hash.metaFile then some s.about else d.described? name :=
    described?_of_stored storable.writable done
  have bytes : e.file? s.hash.artifactFile = some s.bytes := (file?_of_stored done).2
  refine ⟨fun name m said => ?_, fun t ht => ?_, ?_⟩
  · rw [described] at said
    split at said
    · rename_i own
      cases said
      exact ⟨own, s, by simp, rfl, bytes⟩
    · obtain ⟨named, t, ht, about, file⟩ := h.traces name m said
      have artifact := file?_artifact_of_stored done (fresh name m said)
      exact ⟨named, t, List.mem_append_left _ ht, about, artifact.trans file⟩
  · rcases List.mem_append.mp ht with old | new
    · obtain ⟨said, file⟩ := h.kept t old
      have other : t.hash ≠ s.hash := fresh _ _ said
      rw [described, if_neg fun names => other (ContentHash.metaFile_inj names)]
      exact ⟨said, (file?_artifact_of_stored done other).trans file⟩
    · rw [List.mem_singleton.mp new, described]
      exact ⟨if_pos rfl, bytes⟩
  · rw [foldl_storing done]
    exact nodup_names_foldl_attempt h.distinct _

/-! ## Looking at all names -/

/-- The same descriptions and the same artifacts. -/
structure Same (d e : Directory) : Prop where
  described : ∀ name, e.described? name = d.described? name
  artifacts : ∀ h : ContentHash, e.file? h.artifactFile = d.file? h.artifactFile

theorem Same.refl (d : Directory) : d.Same d := ⟨fun _ => rfl, fun _ => rfl⟩

/-- The removal of a name that describes nothing and is of no artifact. -/
def Idle (d : Directory) (op : FileOp) : Prop :=
  ∃ name, op = .remove name ∧ d.described? name = none ∧ ∀ h : ContentHash, name ≠ h.artifactFile

theorem Same.idle (h : d.Same e) {ops : List FileOp} (idle : ∀ op ∈ ops, d.Idle op) :
    d.Same (ops.foldl attempt e) := by
  induction ops generalizing e with
  | nil => exact h
  | cons op ops ih =>
      obtain ⟨⟨removed, rfl, unsaid, unlike⟩, others⟩ := List.forall_mem_cons.mp idle
      refine ih ⟨fun name => ?_, fun k => ?_⟩ others
      · by_cases own : removed = name
        · rw [← own, described?_attempt_remove_self, unsaid]
        · have untouched : ¬ (FileOp.remove removed).Touches name := own
          exact (described?_congr (file?_attempt untouched)).trans (h.described name)
      · have untouched : ¬ (FileOp.remove removed).Touches k.artifactFile := unlike k
        exact (file?_attempt untouched).trans (h.artifacts k)

/-- Every description is of an artifact that is there. -/
def Fits (d : Directory) : Prop := ∀ name m, d.described? name = some m → d.holdsArtifact m = true

theorem Keeps.fits (h : d.Keeps begun kept) : d.Fits := by
  intro name m said
  obtain ⟨_, s, _, rfl, file⟩ := h.traces name m said
  exact holdsArtifact_iff.mpr ⟨s.bytes, file, rfl⟩

theorem Same.holdsArtifact (h : d.Same e) (m : ArtifactMeta) :
    e.holdsArtifact m = d.holdsArtifact m := by
  unfold Directory.holdsArtifact
  rw [h.artifacts]

/-- Only what describes nothing is removed when every description fits. -/
theorem Same.cleaning (h : d.Same e) (fits : d.Fits) (name : String) :
    ∀ op ∈ e.cleaning name, d.Idle op := by
  intro op hop
  rcases mem_cleaning hop with ⟨m, said, lost, _⟩ | ⟨unsaid, rfl, named⟩
  · rw [h.described] at said
    rw [h.holdsArtifact, fits name m said] at lost
    cases lost
  · refine ⟨name, rfl, (h.described name).symm.trans unsaid, ?_⟩
    rintro k rfl
    have artifact := ContentHash.fileExtension?_artifactFile_ne k
    exact named.elim artifact.1 artifact.2

theorem Same.scanning (h : d.Same e) (fits : d.Fits) (names : List String) :
    ∀ op ∈ e.scanning names, d.Idle op := by
  induction names generalizing e with
  | nil => exact nofun
  | cons name rest ih =>
      intro op hop
      rcases List.mem_append.mp hop with here | later
      · exact h.cleaning fits name op here
      · exact ih (h.idle (h.cleaning fits name)) op later

/-- Every description is kept when all of them fit. -/
theorem scan_complete (fits : d.Fits) {names : List String} {name : String} (mem : name ∈ names)
    {m : ArtifactMeta} (said : d.described? name = some m) : m ∈ (d.scan names).2 := by
  induction names using List.reverseRecOn with
  | nil => cases mem
  | append_singleton names last ih =>
      rw [scan_append_singleton]
      rcases List.mem_append.mp mem with old | new
      · exact List.mem_append_left _ (ih old)
      · have same : d.Same (d.scan names).1 := by
          rw [scan_eq_scanning]
          exact (Same.refl d).idle ((Same.refl d).scanning fits names)
        have kept : (d.scan names).1.kept? name = some m := by
          refine kept?_eq_some.mpr ⟨(same.described name).trans said, ?_⟩
          rw [same.holdsArtifact]
          exact fits name m said
        rw [← List.mem_singleton.mp new, kept]
        simp

end Directory

/-! ## Stops -/

/-- Where operations are stopped. -/
structure Stop where
  /-- How many of them are performed. -/
  count : Nat
  /-- How many bytes of the next one are in its file, if it was begun and is a write. -/
  part : Option Nat
  deriving DecidableEq, Repr

namespace Stop

/-- The operations up to a stop, a write that was begun among them. -/
def operations (s : Stop) (ops : List FileOp) : List FileOp :=
  ops.take s.count ++
    match s.part, ops[s.count]? with
    | some n, some (.write name data) => [.write name (data.take n)]
    | _, _ => []

theorem operations_append_of_lt {s : Stop} {ops : List FileOp} (h : s.count < ops.length)
    (more : List FileOp) : s.operations (ops ++ more) = s.operations ops := by
  unfold operations
  rw [List.take_append_of_le_length (Nat.le_of_lt h), List.getElem?_append_left h]

/-- No write is begun among operations that are none. -/
theorem operations_of_removals {ops : List FileOp} (h : ∀ op ∈ ops, ∃ name, op = .remove name)
    (s : Stop) : s.operations ops = ops.take s.count := by
  unfold operations
  split
  · rename_i name data here
    obtain ⟨removed, same⟩ := h _ (List.mem_of_getElem? here)
    cases same
  · exact List.append_nil _

theorem operations_of_le {s : Stop} {ops : List FileOp} (h : ops.length ≤ s.count) :
    s.operations ops = ops := by
  unfold operations
  rw [List.take_of_length_le h, List.getElem?_eq_none h]
  cases s.part <;> exact List.append_nil ops

theorem operations_append_of_le {s : Stop} {ops : List FileOp} (h : ops.length ≤ s.count)
    (more : List FileOp) :
    s.operations (ops ++ more) = ops ++ (⟨s.count - ops.length, s.part⟩ : Stop).operations more := by
  unfold operations
  rw [List.take_append, List.take_of_length_le h, List.getElem?_append_right h, List.append_assoc]

end Stop

namespace Work

/-- The operations up to a stop, or all of them. -/
def upTo (w : Work) : Option Stop → List FileOp
  | none => w.ops
  | some s => s.operations w.ops

/-- The artifacts whose removal was begun.  There are two operations for each. -/
def dropped (w : Work) : Option Stop → List ContentHash
  | none => w.victims
  | some s => w.victims.take ((s.count - w.first.length + 1) / 2)

variable {w : Work} {d : Directory} {begun kept answered : List Deposit}

/-- The first operations keep what is kept, wherever they are stopped, and more once all of them
are performed. -/
structure Safe (w : Work) (d : Directory) (begun kept answered : List Deposit) : Prop where
  part : ∀ s : Stop, ((s.operations w.first).foldl Directory.attempt d).Keeps begun kept
  whole : (w.first.foldl Directory.attempt d).Keeps begun (kept ++ answered)

theorem removals_victims (victims : List ContentHash) :
    ∀ op ∈ victims.flatMap Directory.removing, ∃ name, op = .remove name := by
  intro op hop
  obtain ⟨h, _, removed⟩ := List.mem_flatMap.mp hop
  exact Directory.removals_removing h op removed

theorem length_victims (victims : List ContentHash) :
    (victims.flatMap Directory.removing).length = 2 * victims.length := by
  induction victims with
  | nil => rfl
  | cons h victims ih =>
      have two : (Directory.removing h).length = 2 := rfl
      rw [List.flatMap_cons, List.length_append, ih, two, List.length_cons]
      omega

/-- Wherever work is stopped, everything is kept but what was being dropped. -/
theorem Safe.upTo (h : w.Safe d begun kept answered) (stop : Option Stop) :
    ((w.upTo stop).foldl Directory.attempt d).Keeps begun
      ((kept ++ if stop.isNone then answered else []).filter fun s =>
        decide (s.hash ∉ w.dropped stop)) := by
  cases stop with
  | none =>
      have all := length_victims w.victims
      have half : (2 * w.victims.length + 1) / 2 = w.victims.length := by omega
      have rest : ∀ s ∈ (kept ++ answered).filter fun s => decide (s.hash ∉ w.victims),
          s ∈ kept ++ answered ∧ s.hash ∉ w.victims.take ((2 * w.victims.length + 1) / 2) := by
        intro s hs
        rw [half, List.take_length]
        simpa using List.mem_filter.mp hs
      have removed := h.whole.removals w.victims (2 * w.victims.length) rest
      rw [← all, List.take_length] at removed
      simp only [Work.upTo, ops, dropped, Option.isNone_none, if_true, List.foldl_append]
      exact removed
  | some s =>
      have shrunk : ∀ t ∈ (kept ++ if (some s).isNone then answered else []).filter fun t =>
          decide (t.hash ∉ w.dropped (some s)), t ∈ kept ∧ t.hash ∉ w.dropped (some s) := by
        intro t ht
        simpa using List.mem_filter.mp ht
      by_cases early : s.count < w.first.length
      · rw [Work.upTo, ops, Stop.operations_append_of_lt early]
        exact (h.part s).mono (List.Subset.refl _) fun t ht => (shrunk t ht).1
      · have late : w.first.length ≤ s.count := Nat.le_of_not_lt early
        rw [Work.upTo, ops, Stop.operations_append_of_le late,
          Stop.operations_of_removals (removals_victims w.victims), List.foldl_append]
        refine h.whole.removals w.victims _ fun t ht => ?_
        obtain ⟨mem, other⟩ := shrunk t ht
        exact ⟨List.mem_append_left _ mem, other⟩

end Work

end TieredUdf
