/-!
# Bytes as hexadecimal text

Two digits a byte, the high one first.  Writing uses lower case; reading takes either case.
-/

namespace TieredUdf.Text.Hex

def digit (n : UInt8) : Char :=
  if n < 10 then .ofNat (n.toNat + 48) else .ofNat (n.toNat + 87)

def digitValue? (c : Char) : Option UInt8 :=
  let n := c.toNat
  if 48 ≤ n ∧ n ≤ 57 then some (.ofNat (n - 48))
  else if 97 ≤ n ∧ n ≤ 102 then some (.ofNat (n - 87))
  else if 65 ≤ n ∧ n ≤ 70 then some (.ofNat (n - 55))
  else none

def encodeList (bytes : List UInt8) : List Char :=
  bytes.flatMap fun (b : UInt8) => [digit (b >>> 4), digit (b &&& 15)]

def encode (bytes : List UInt8) : String := String.ofList (encodeList bytes)

def decodeList : List Char → Option (List UInt8)
  | [] => some []
  | [_] => none
  | high :: low :: rest => do
      let h ← digitValue? high
      let l ← digitValue? low
      let bytes ← decodeList rest
      return (h <<< 4 ||| l) :: bytes

/-- The bytes that a text writes; `none` for an odd number of digits or any other character. -/
def decode? (s : String) : Option (List UInt8) := decodeList s.toList

end TieredUdf.Text.Hex
