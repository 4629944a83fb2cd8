import TieredUdf.Cache.Basic
import TieredUdf.Exchange.HostCall
import TieredUdf.Exchange.Report
import TieredUdf.Json.Printer

/-!
# Commands on a cache and on its files

A command is an object that names what to do.  It names an artifact by its content hash or by a
text whose hash is meant, and a file by its name or by a hash and an extension.
-/

namespace TieredUdf.Exchange

def toHash (j : Json) : ContentHash :=
  ((j.text? "hash").bind ContentHash.ofHex?).getD (.ofBytes (j.text "key").toUTF8.toList)

/-- The bytes to store, written out or as a repeated byte. -/
def toArtifactData (j : Json) : List UInt8 :=
  if (j.text? "bytes").isSome then toBytes j "bytes"
  else List.replicate (j.natural "size") (.ofNat (j.natural "fill"))

def afterFileOp (d : Directory) (changed : Option Directory) : Directory × Json :=
  (changed.getD d, .string (if changed.isSome then "ok" else "failed"))

def fileText? (d : Directory) (name : String) : Option String :=
  (d.file? name).bind fun b => String.fromUTF8? ⟨b.toArray⟩

def withoutTime (line : String) : String :=
  if (line.splitOn "\"created_at_unix_ms\":").length = 1 then line
  else (line.splitOn ":").headD "" ++ ": 0" ++ (if line.endsWith "," then "," else "")

/-- A directory with the members of a metadata file set and removed. -/
def patchMeta? (d : Directory) (name : String) (j : Json) : Option Directory := do
  let stored ← (fileText? d name).bind Json.parse?
  let members ← (stored.override (j.members "set")).asMembers?
  let kept := members.filter fun m => !(j.texts "unset").contains m.1
  d.perform? (.write (j.textOr "as" name) (Json.object kept).pretty.toUTF8.toList)

def fileCommand? (d : Directory) (j : Json) : Option (Directory × Json) :=
  let name := j.textOr "name" ((toHash j).hex ++ "." ++ j.text "ext")
  match j.text "do" with
  | "files" => some (d, Json.ofList .string (d.names.mergeSort fun a b => decide (a ≤ b)))
  | "write_file" => some (afterFileOp d (d.perform? (.write name (toData j "bytes"))))
  | "remove_file" => some (afterFileOp d (d.perform? (.remove name)))
  | "make_dir" => some (afterFileOp d (d.makeFolder? name))
  | "remove_all" => some (afterFileOp d (if d.present then some .missing else none))
  | "read_file" => some (d, Json.ofOption ofBytes (d.file? name))
  | "meta" =>
      let shown := fun s => "\n".intercalate ((s.splitOn "\n").map withoutTime)
      some (d, Json.ofOption (fun s => .string (shown s)) (fileText? d name))
  | "patch_meta" => some (afterFileOp d (patchMeta? d name j))
  | _ => none

def afterStore (r : Cache × Option Bool) : Cache × Json :=
  (r.1, (r.2.map Json.bool).getD (.object [("error", .string "Io")]))

/-- The cache that opens what another one has kept. -/
def reopened (c : Cache) (budget : Nat) : Cache :=
  match c.directory with
  | some d => .ofDirectory d budget
  | none => .inMemory budget

/-- A command on a cache at a moment.  An artifact has the given origin and backend, unless the
command names others. -/
def cacheCommand (origin backend : String) (c : Cache) (now : Nat) (j : Json) : Cache × Json :=
  let h := toHash j
  let origin := j.textOr "origin" origin
  let backend := j.textOr "backend" backend
  match j.text "do" with
  | "store" => afterStore (c.store h (toArtifactData j) origin backend now)
  | "store_and_acquire" =>
      afterStore (c.storeAndAcquire h (toArtifactData j) origin backend now)
  | "lookup" => ((c.lookup h).1, Json.ofOption ofArtifact (c.lookup h).2)
  | "contains" => (c, .bool (c.contains h))
  | "acquire" => ((c.acquire h).1, .bool (c.acquire h).2)
  | "invalidate" => ((c.invalidate h).1, .bool (c.invalidate h).2)
  | "release" => (c.release h, .null)
  | "refcount" => (c, Json.ofNat (c.refcount h))
  | "evict" => ((c.evict (j.natural "to")).1, Json.ofNat (c.evict (j.natural "to")).2)
  | "has_dir" => (c, .bool c.directory.isSome)
  | _ =>
      match c.directory.bind fun d => fileCommand? d j with
      | some (d, answer) => ({ c with directory := some d }, answer)
      | none => (c, .null)

end TieredUdf.Exchange
