import TieredUdf.Digest.Sha256
import TieredUdf.Text.Hex

/-!
# Content hashes

The SHA-256 digest of some bytes names them: modules with the same bytes share one compiled
artifact, whatever they are called.
-/

namespace TieredUdf

structure ContentHash where
  bytes : List UInt8
  deriving DecidableEq, Repr, Inhabited

namespace ContentHash

def ofBytes (bytes : List UInt8) : ContentHash := ⟨Digest.Sha256.digest bytes⟩

def hex (h : ContentHash) : String := Text.Hex.encode h.bytes

/-- The first twelve digits. -/
def short (h : ContentHash) : String := Text.Hex.encode (h.bytes.take 6)

/-- Text that shows what kind of value it is. -/
def debugText (h : ContentHash) : String := "ContentHash(" ++ h.short ++ ")"

/-- The hash that exactly 64 hexadecimal digits write. -/
def ofHex? (s : String) : Option ContentHash := do
  let bytes ← Text.Hex.decode? s
  if bytes.length = 32 then some ⟨bytes⟩ else none

def invalidMessage (s : String) : String := "invalid content hash '" ++ s ++ "'"

end ContentHash

end TieredUdf
