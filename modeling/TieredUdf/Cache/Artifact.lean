import TieredUdf.Files.Directory
import TieredUdf.Digest.ContentHash
import TieredUdf.Json.Parser
import TieredUdf.Json.Printer

/-!
# Stored artifacts

An artifact is stored as two files that are named by the hash of the bytecode: the artifact
itself, and what is known about it as a JSON object, which is written last.  Each file is written
under a temporary name first and then renamed.
-/

namespace TieredUdf

/-- The compiled form of some bytecode. -/
structure Artifact where
  /-- The hash of the bytecode. -/
  hash : ContentHash
  bytes : List UInt8
  /-- The text of the module that it was compiled for. -/
  origin : String
  /-- When it was stored, in milliseconds. -/
  createdAt : Nat
  deriving DecidableEq, Repr, Inhabited

structure ArtifactMeta where
  /-- The hash of the bytecode. -/
  hash : ContentHash
  /-- The number of bytes of the artifact. -/
  size : Nat
  /-- The hash of the artifact. -/
  digest : ContentHash
  createdAt : Nat
  origin : String
  /-- The name of the compiler. -/
  backend : String
  deriving DecidableEq, Repr, Inhabited

namespace ArtifactMeta

def ofBytes (hash : ContentHash) (bytes : List UInt8) (origin backend : String) (now : Nat) :
    ArtifactMeta :=
  ⟨hash, bytes.length, .ofBytes bytes, now, origin, backend⟩

/-- Whether some bytes are the artifact: their number is looked at before their hash. -/
def describes (m : ArtifactMeta) (bytes : List UInt8) : Bool :=
  bytes.length == m.size && .ofBytes bytes == m.digest

def artifact (m : ArtifactMeta) (bytes : List UInt8) : Artifact :=
  ⟨m.hash, bytes, m.origin, m.createdAt⟩

/-! ### As JSON -/

def memberNames : List String :=
  ["hash", "size", "artifact_sha256", "created_at_unix_ms", "origin", "backend"]

def toJson (m : ArtifactMeta) : Json :=
  .object (memberNames.zip
    [.string m.hash.hex, .integer m.size, .string m.digest.hex, .integer m.createdAt,
     .string m.origin, .string m.backend])

def fileText (m : ArtifactMeta) : String := m.toJson.pretty

/-- The members of an object, or the items of an array in the same order. -/
def memberValues? : Json → Option (List Json)
  | .object members => memberNames.mapM fun n => Json.member? n members
  | .array items => some items
  | _ => none

def ofJson? (j : Json) : Option ArtifactMeta := do
  match ← memberValues? j with
  | [.string hash, size, .string digest, createdAt, .string origin, .string backend] =>
      return ⟨← ContentHash.ofHex? hash, ← size.toUInt64?, ← ContentHash.ofHex? digest,
        ← createdAt.toUInt64?, origin, backend⟩
  | _ => none

/-- What a file says; `none` when it is not readable.  None of these members may be given twice.
Other members count for nothing, but they have to be readable, too. -/
def ofFile? (data : List UInt8) : Option ArtifactMeta := do
  let text ← String.fromUTF8? ⟨data.toArray⟩
  guard (memberNames.all fun name => decide (Json.timesGiven text name ≤ 1))
  ofJson? (← Json.parse? text)

end ArtifactMeta

/-! ### The files of an artifact -/

namespace ContentHash

def artifactFile (h : ContentHash) : String := h.hex ++ ".cwasm"

def metaFile (h : ContentHash) : String := h.hex ++ ".json"

def temporaryFile (h : ContentHash) : String := h.hex ++ ".tmp"

end ContentHash

namespace Directory

def storing (m : ArtifactMeta) (bytes : List UInt8) : List FileOp :=
  [.write m.hash.temporaryFile bytes,
   .rename m.hash.temporaryFile m.hash.artifactFile,
   .write m.hash.temporaryFile m.fileText.toUTF8.toList,
   .rename m.hash.temporaryFile m.hash.metaFile]

def removing (h : ContentHash) : List FileOp := [.remove h.metaFile, .remove h.artifactFile]

/-- Remove an artifact as far as it is there. -/
def removeArtifact (d : Directory) (h : ContentHash) : Directory :=
  (removing h).foldl attempt d

/-- The bytes of a stored artifact; `none` when the file is missing or damaged. -/
def readArtifact? (d : Directory) (m : ArtifactMeta) : Option (List UInt8) :=
  (d.file? m.hash.artifactFile).filter m.describes

def holdsArtifact (d : Directory) (m : ArtifactMeta) : Bool :=
  (d.file? m.hash.artifactFile).any fun bytes => bytes.length == m.size

end Directory

end TieredUdf
