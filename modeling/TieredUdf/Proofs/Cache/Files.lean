import TieredUdf.Proofs.Cache.Entries
import TieredUdf.Proofs.Files.Operations

/-! # The files of artifacts

The files of an artifact are named by its hash, and no two hashes have the same digits.  So when
an artifact is dropped, the files of all others stay as they are.
-/

namespace TieredUdf

namespace Text.Hex

theorem decodeList_encodeList (bytes : List UInt8) :
    decodeList (encodeList bytes) = some bytes := by
  have digits : ∀ n : Fin 256,
      digitValue? (digit (UInt8.ofFin n >>> 4)) = some (UInt8.ofFin n >>> 4) ∧
      digitValue? (digit (UInt8.ofFin n &&& 15)) = some (UInt8.ofFin n &&& 15) ∧
      (UInt8.ofFin n >>> 4) <<< 4 ||| (UInt8.ofFin n &&& 15) = UInt8.ofFin n := by
    decide +kernel
  induction bytes with
  | nil => rfl
  | cons b bytes ih =>
      obtain ⟨high, low, whole⟩ := digits b.toFin
      rw [UInt8.ofFin_toFin] at high low whole
      have split : encodeList (b :: bytes) =
        digit (b >>> 4) :: digit (b &&& 15) :: encodeList bytes := rfl
      simp [split, decodeList, high, low, whole, ih]

end Text.Hex

namespace ContentHash

theorem hex_toList (h : ContentHash) : h.hex.toList = Text.Hex.encodeList h.bytes :=
  String.toList_ofList

theorem bytes_of_digits {h k : ContentHash}
    (same : Text.Hex.encodeList h.bytes = Text.Hex.encodeList k.bytes) : h = k := by
  have bytes := congrArg Text.Hex.decodeList same
  rw [Text.Hex.decodeList_encodeList, Text.Hex.decodeList_encodeList] at bytes
  cases h
  exact congrArg ContentHash.mk (Option.some.inj bytes)

theorem artifactFile_inj {h k : ContentHash} (same : h.artifactFile = k.artifactFile) : h = k := by
  have names := congrArg String.toList same
  unfold artifactFile at names
  rw [String.toList_append, String.toList_append, hex_toList, hex_toList] at names
  exact bytes_of_digits (List.append_cancel_right names)

theorem metaFile_inj {h k : ContentHash} (same : h.metaFile = k.metaFile) : h = k := by
  have names := congrArg String.toList same
  unfold metaFile at names
  rw [String.toList_append, String.toList_append, hex_toList, hex_toList] at names
  exact bytes_of_digits (List.append_cancel_right names)

theorem artifactFile_ne_metaFile (h k : ContentHash) : h.artifactFile ≠ k.metaFile := by
  intro same
  have names := congrArg (fun s => s.toList.getLast?) same
  unfold artifactFile metaFile at names
  simp at names

theorem temporaryFile_ne_artifactFile (h k : ContentHash) : h.temporaryFile ≠ k.artifactFile := by
  intro same
  have names := congrArg (fun s => s.toList.getLast?) same
  unfold temporaryFile artifactFile at names
  simp at names

end ContentHash

namespace Directory

/-- The files of one hash are not touched when the artifact of another one is removed. -/
theorem untouched_removing {h k : ContentHash} (other : k ≠ h) :
    ∀ op ∈ removing h, ¬ op.Touches k.artifactFile ∧ ¬ op.Touches k.metaFile := by
  intro op hop
  rcases List.mem_pair.mp hop with rfl | rfl
  · exact ⟨fun same => ContentHash.artifactFile_ne_metaFile _ _ same.symm,
      fun same => other (ContentHash.metaFile_inj same).symm⟩
  · exact ⟨fun same => other (ContentHash.artifactFile_inj same).symm,
      ContentHash.artifactFile_ne_metaFile _ _⟩

theorem file?_removeArtifact {d : Directory} {h k : ContentHash} (other : k ≠ h) :
    (d.removeArtifact h).file? k.artifactFile = d.file? k.artifactFile :=
  file?_foldl_attempt fun op hop => (untouched_removing other op hop).1

/-- The artifact of one hash is still there when that of another one is removed. -/
theorem readArtifact?_removeArtifact {d : Directory} {m : ArtifactMeta} {h : ContentHash}
    (other : m.hash ≠ h) : (d.removeArtifact h).readArtifact? m = d.readArtifact? m := by
  rw [readArtifact?, file?_removeArtifact other, readArtifact?]

end Directory

namespace Cache

theorem read?_remove (c : Cache) {e : CacheEntry} {h : ContentHash} (other : e.hash ≠ h) :
    (c.remove h).1.read? e = c.read? e := by
  cases found : c.find? h with
  | none => rw [remove_of_missing found]
  | some dropped =>
      rw [remove_of_found found]
      unfold read?
      cases e.bytes with
      | some bytes => rfl
      | none =>
          cases c.directory with
          | none => rfl
          | some d => exact Directory.readArtifact?_removeArtifact other

/-- What a lookup gives. -/
theorem lookup_artifact (c : Cache) (h : ContentHash) :
    (c.lookup h).2 = (c.find? h).bind fun e => (c.read? e).map e.about.artifact := by
  unfold lookup
  cases c.find? h with
  | none => rfl
  | some e =>
      dsimp only
      cases read : c.read? e <;> simp [read]

end Cache

end TieredUdf
