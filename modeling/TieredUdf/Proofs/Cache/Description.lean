import TieredUdf.Proofs.Cache.Files
import TieredUdf.Proofs.Json.RoundTrip
import TieredUdf.Proofs.Text.Encoding

/-! # The descriptions of artifacts

What is written about an artifact is read back as it was: its hashes have 32 bytes, and its size
and its time fit 64 bits.
-/

namespace TieredUdf

namespace ContentHash

theorem ofHex?_hex {h : ContentHash} (whole : h.bytes.length = 32) : ofHex? h.hex = some h := by
  have decoded : Text.Hex.decode? h.hex = some h.bytes := by
    rw [Text.Hex.decode?, hex_toList, Text.Hex.decodeList_encodeList]
  simp [ofHex?, decoded, whole]

end ContentHash

namespace Digest.Sha256

theorem length_bigEndian (count n : Nat) : (bigEndian count n).length = count := by
  induction count generalizing n with
  | zero => rfl
  | succ count ih => simp [bigEndian, ih]

theorem length_digest (bytes : List UInt8) : (digest bytes).length = 32 := by
  simp [digest, Words.toList, length_bigEndian]

end Digest.Sha256

namespace ArtifactMeta

/-- A description that fits the file of it. -/
structure Writable (m : ArtifactMeta) : Prop where
  hash : m.hash.bytes.length = 32
  digest : m.digest.bytes.length = 32
  size : m.size ≤ Numeric.maxWord64
  createdAt : m.createdAt ≤ Numeric.maxWord64

theorem representable {n : Nat} (h : n ≤ Numeric.maxWord64) : Json.Representable n := by
  unfold Json.Representable Numeric.minInt64
  omega

theorem exact_toJson {m : ArtifactMeta} (h : m.Writable) : m.toJson.Exact := by
  have size := representable h.size
  have createdAt := representable h.createdAt
  simp [toJson, memberNames, Json.Exact, Json.ExactMembers, size, createdAt]

theorem depth_toJson (m : ArtifactMeta) : m.toJson.depth = 1 := by
  simp [toJson, memberNames, Json.depth, Json.depthOfMembers]

theorem toUInt64?_integer {n : Nat} (h : n ≤ Numeric.maxWord64) :
    (Json.integer n).toUInt64? = some n := by
  have inside : (n : Int) ≤ Numeric.maxWord64 := Int.ofNat_le.mpr h
  simp [Json.toUInt64?, inside]

theorem ofJson?_toJson {m : ArtifactMeta} (h : m.Writable) : ofJson? m.toJson = some m := by
  have values : memberValues? m.toJson = some [.string m.hash.hex, .integer m.size,
      .string m.digest.hex, .integer m.createdAt, .string m.origin, .string m.backend] := rfl
  simp [ofJson?, values, ContentHash.ofHex?_hex h.hash, ContentHash.ofHex?_hex h.digest,
    toUInt64?_integer h.size, toUInt64?_integer h.createdAt]

theorem outerNames_toJson (m : ArtifactMeta) : Json.outerNames 0 m.toJson.tokens = memberNames :=
  rfl

theorem timesGiven_fileText {m : ArtifactMeta} (h : m.Writable) (name : String) :
    Json.timesGiven m.fileText name ≤ 1 := by
  have distinct : memberNames.Nodup := by decide
  rw [Json.timesGiven, fileText, Json.tokens?_pretty (exact_toJson h), Option.getD_some,
    outerNames_toJson]
  exact List.nodup_iff_count_le_one.mp distinct name

/-- The file of a description says what the description says. -/
theorem ofFile?_fileText {m : ArtifactMeta} (h : m.Writable) :
    ofFile? m.fileText.toUTF8.toList = some m := by
  have shallow : m.toJson.depth ≤ Json.Reader.maxDepth := by
    rw [depth_toJson]
    decide
  have parsed : Json.parse? m.fileText = some m.toJson :=
    Json.parse?_pretty (exact_toJson h) shallow
  have decoded := Text.fromUTF8?_toUTF8 m.fileText
  have once : (memberNames.all fun name => decide (Json.timesGiven m.fileText name ≤ 1)) = true :=
    List.all_eq_true.mpr fun name _ => decide_eq_true (timesGiven_fileText h name)
  simp only [ofFile?, decoded, Option.bind_eq_bind, Option.bind_some, parsed, once, guard_true]
  exact ofJson?_toJson h

end ArtifactMeta

end TieredUdf
