import TieredUdf.Cache.Artifact

/-!
# Caches of artifacts

A cache keeps artifacts by the hash of their bytecode, in memory or in a directory.  An entry
that is referenced stays until its references are given back; the others are evicted, the one
that was used longest ago first, while the artifacts together are larger than the budget.
Reports tell its counters in 64 bits.
-/

namespace TieredUdf

structure CacheEntry where
  about : ArtifactMeta
  /-- How many references are held. -/
  refcount : Nat
  /-- The artifact, when it is kept in memory. -/
  bytes : Option (List UInt8)
  deriving DecidableEq, Repr, Inhabited

structure Cache where
  /-- The directory; `none` when artifacts are kept in memory. -/
  directory : Option Directory
  /-- The greatest number of bytes that unreferenced artifacts may add up to. -/
  budget : Nat
  /-- The entries, the least recently used one first. -/
  entries : List CacheEntry
  /-- The number of bytes of all artifacts. -/
  totalBytes : Nat
  hits : Nat
  misses : Nat
  stores : Nat
  evictions : Nat
  deriving Repr, Inhabited

structure CacheStats where
  persistent : Bool
  entries : Nat
  referenced : Nat
  totalBytes : Nat
  budget : Nat
  hits : UInt64
  misses : UInt64
  stores : UInt64
  evictions : UInt64
  deriving DecidableEq, Repr, Inhabited

namespace CacheEntry

def hash (e : CacheEntry) : ContentHash := e.about.hash

end CacheEntry

namespace Cache

def new (directory : Option Directory) (budget : Nat) : Cache :=
  ⟨directory, budget, [], 0, 0, 0, 0, 0⟩

def inMemory (budget : Nat) : Cache := new none budget

def stats (c : Cache) : CacheStats :=
  { persistent := c.directory.isSome
    entries := c.entries.length
    referenced := (c.entries.filter fun e => decide (0 < e.refcount)).length
    totalBytes := c.totalBytes
    budget := c.budget
    hits := .ofNat c.hits
    misses := .ofNat c.misses
    stores := .ofNat c.stores
    evictions := .ofNat c.evictions }

/-! ### Entries -/

def find? (c : Cache) (h : ContentHash) : Option CacheEntry :=
  c.entries.find? fun e => e.hash == h

def contains (c : Cache) (h : ContentHash) : Bool := (c.find? h).isSome

def refcount (c : Cache) (h : ContentHash) : Nat := ((c.find? h).map CacheEntry.refcount).getD 0

def without (h : ContentHash) (entries : List CacheEntry) : List CacheEntry :=
  entries.filter fun e => e.hash != h

/-- Make an entry the most recently used one; it takes the place of one with the same hash. -/
def put (c : Cache) (e : CacheEntry) : Cache :=
  { c with entries := without e.hash c.entries ++ [e] }

def modify (c : Cache) (h : ContentHash) (f : CacheEntry → CacheEntry) : Cache :=
  { c with entries := c.entries.map fun e => if e.hash = h then f e else e }

/-- Drop an entry and its files.  The second part is the number of its bytes. -/
def remove (c : Cache) (h : ContentHash) : Cache × Nat :=
  match c.find? h with
  | none => (c, 0)
  | some e =>
      ({ c with
          directory := c.directory.map fun d => d.removeArtifact h
          entries := without h c.entries
          totalBytes := c.totalBytes - e.about.size }, e.about.size)

/-! ### Eviction -/

/-- Evict hashes one after the other until the target is met.  The second part is the number of
bytes freed. -/
def evictEach (target : Nat) : List ContentHash → Cache → Cache × Nat
  | [], c => (c, 0)
  | h :: rest, c =>
      if c.totalBytes ≤ target then (c, 0)
      else
        let (c, freed) := c.remove h
        let (c, more) := evictEach target rest { c with evictions := c.evictions + 1 }
        (c, freed + more)

/-- The hashes of the entries without references, the least recently used one first. -/
def evictable (c : Cache) : List ContentHash :=
  (c.entries.filter fun e => e.refcount == 0).map CacheEntry.hash

def evict (c : Cache) (target : Nat) : Cache × Nat := evictEach target c.evictable c

/-- Evict down to the budget. -/
def trim (c : Cache) : Cache := (c.evict c.budget).1

/-! ### Looking up and storing -/

/-- The artifact of an entry; `none` when its file is missing or damaged. -/
def read? (c : Cache) (e : CacheEntry) : Option (List UInt8) :=
  match e.bytes with
  | some bytes => some bytes
  | none => c.directory.bind fun d => d.readArtifact? e.about

/-- Find an artifact, and make it the most recently used one.  An entry that cannot be read is
dropped. -/
def lookup (c : Cache) (h : ContentHash) : Cache × Option Artifact :=
  match c.find? h with
  | none => ({ c with misses := c.misses + 1 }, none)
  | some e =>
      match c.read? e with
      | some bytes => ({ c.put e with hits := c.hits + 1 }, some (e.about.artifact bytes))
      | none =>
          let c := (c.remove h).1
          ({ c with misses := c.misses + 1 }, none)

/-- Add a new entry, once its files are written. -/
def add (c : Cache) (about : ArtifactMeta) (bytes : Option (List UInt8)) (refcount : Nat) : Cache :=
  { c.put ⟨about, refcount, bytes⟩ with
    totalBytes := c.totalBytes + about.size
    stores := c.stores + 1 }

/-- Store an artifact, or find that there is one already, and hold as many references more.  The
answer tells whether it was stored; there is none when a file operation failed. -/
def insert (c : Cache) (h : ContentHash) (bytes : List UInt8) (origin backend : String)
    (references now : Nat) : Cache × Option Bool :=
  match c.find? h with
  | some e => (c.put { e with refcount := e.refcount + references }, some false)
  | none =>
      let about := ArtifactMeta.ofBytes h bytes origin backend now
      match c.directory with
      | none => ((c.add about (some bytes) references).trim, some true)
      | some d =>
          match d.perform (Directory.storing about bytes) with
          | (d, true) =>
              (({ c with directory := some d }.add about none references).trim, some true)
          | (d, false) => ({ c with directory := some d }, none)

def store (c : Cache) (h : ContentHash) (bytes : List UInt8) (origin backend : String)
    (now : Nat) : Cache × Option Bool :=
  c.insert h bytes origin backend 0 now

def storeAndAcquire (c : Cache) (h : ContentHash) (bytes : List UInt8)
    (origin backend : String) (now : Nat) : Cache × Option Bool :=
  c.insert h bytes origin backend 1 now

/-! ### References -/

def acquire (c : Cache) (h : ContentHash) : Cache × Bool :=
  (c.modify h fun e => { e with refcount := e.refcount + 1 }, c.contains h)

def release (c : Cache) (h : ContentHash) : Cache :=
  (c.modify h fun e => { e with refcount := e.refcount - 1 }).trim

/-- Drop an entry that cannot be used, unless it is referenced; whether it was dropped. -/
def invalidate (c : Cache) (h : ContentHash) : Cache × Bool :=
  match c.find? h with
  | some e => if e.refcount = 0 then ((c.remove h).1, true) else (c, false)
  | none => (c, false)

/-! ### Opening a directory -/

/-- Look at one name: a readable description of an artifact that is there is kept, and what is
unreadable, temporary or without its artifact is removed. -/
def scanName (scan : Directory × List ArtifactMeta) (name : String) :
    Directory × List ArtifactMeta :=
  let (d, found) := scan
  match fileExtension? name with
  | some "json" =>
      match (d.file? name).bind ArtifactMeta.ofFile? with
      | some about =>
          if d.holdsArtifact about then (d, found ++ [about])
          else (d.removeArtifact about.hash, found)
      | none => (d.attempt (.remove name), found)
  | some "tmp" => (d.attempt (.remove name), found)
  | _ => (d, found)

/-- Take in an artifact that was found in the directory. -/
def adopt (c : Cache) (about : ArtifactMeta) : Cache :=
  { c.put ⟨about, 0, none⟩ with totalBytes := c.totalBytes + about.size }

/-- The cache of a directory, which is made when it is missing.  The artifact that was stored last
counts as the most recently used one. -/
def ofDirectory (d : Directory) (budget : Nat) : Cache :=
  let (d, found) := d.names.foldl scanName ({ d with present := true }, [])
  let oldestFirst := found.mergeSort fun a b => decide (a.createdAt ≤ b.createdAt)
  (oldestFirst.foldl adopt (new (some d) budget)).trim

end Cache

end TieredUdf
