import TieredUdf.Cache.Basic
import TieredUdf.Json.Access
import TieredUdf.Module.Shape
import TieredUdf.Module.Statistics
import TieredUdf.Module.Invocation

/-!
# Reports of the command line

A report is one JSON value.  The members of every object are in the order of their names.
-/

namespace TieredUdf.CommandLine

/-- An object with its members in the order of their names. -/
def record (members : List (String × Json)) : Json :=
  .object (members.mergeSort fun a b => decide (a.1 ≤ b.1))

def ofText (s : Option String) : Json := Json.ofOption Json.string s

def ofMode (m : Mode) : Json := .string m.name.capitalize

def ofPool (p : PoolStats) : Json :=
  record [("capacity", Json.ofNat p.capacity), ("idle", Json.ofNat p.idle),
    ("live", Json.ofNat p.live), ("checkouts", Json.ofWord p.checkouts),
    ("instantiations", Json.ofWord p.instantiations), ("discarded", Json.ofWord p.discarded),
    ("exhausted", Json.ofWord p.exhausted)]

def ofLastError (e : LastError) : Json :=
  record [("message", .string e.message), ("at_unix_ms", Json.ofNat e.moment)]

def ofCompile (d : CompileDiagnostics) : Json :=
  record [("status", .string d.status.name), ("backend", ofText d.backend),
    ("from_cache", .bool d.fromCache), ("duration_ms", Json.ofOption Json.ofNat d.milliseconds),
    ("error", ofText d.error)]

def ofTier (t : TierReport) : Json :=
  record [("calls", Json.ofWord t.calls), ("avg_ns", Json.ofWord t.average)]

def ofModule (r : ModuleReport) : Json :=
  record [
    ("key", record [("name", .string r.key.name), ("version", .string r.key.version)]),
    ("content_hash", .string r.hash.hex), ("mode", ofMode r.mode),
    ("call_count", Json.ofWord r.calls), ("error_count", Json.ofWord r.errors),
    ("error_rate", .number r.errorRate), ("total_ns", Json.ofWord r.nanoseconds),
    ("min_ns", Json.ofWord r.least), ("max_ns", Json.ofWord r.greatest),
    ("avg_ns", Json.ofWord r.average),
    ("last_call_unix_ms", Json.ofOption Json.ofNat r.lastCall),
    ("last_error", Json.ofOption ofLastError r.lastError),
    ("field_reads", Json.ofWord r.fieldReads),
    ("registered_at_unix_ms", Json.ofNat r.registeredAt), ("interpreter", ofTier r.interpreter),
    ("native", ofTier r.native), ("compile", ofCompile r.compile),
    ("interpreter_pool", Json.ofOption ofPool r.interpreterPool),
    ("native_pool", Json.ofOption ofPool r.nativePool)]

def ofEngine (c : EngineCounters) : Json :=
  record [("registrations", Json.ofCounter c.registrations),
    ("unregistrations", Json.ofCounter c.unregistrations),
    ("compilations_started", Json.ofCounter c.compilationsStarted),
    ("compilations_succeeded", Json.ofCounter c.compilationsSucceeded),
    ("compilations_failed", Json.ofCounter c.compilationsFailed),
    ("compilations_coalesced", Json.ofCounter c.compilationsCoalesced),
    ("cache_hits", Json.ofCounter c.cacheHits), ("cache_misses", Json.ofCounter c.cacheMisses),
    ("hot_swaps", Json.ofCounter c.hotSwaps)]

/-- The counters of a cache with the directory that it is kept in. -/
def ofCache (directory : Option String) (s : CacheStats) : Json :=
  record [("dir", ofText directory), ("entries", Json.ofNat s.entries),
    ("referenced", Json.ofNat s.referenced), ("total_bytes", Json.ofNat s.totalBytes),
    ("budget_bytes", Json.ofNat s.budget), ("hits", Json.ofWord s.hits),
    ("misses", Json.ofWord s.misses), ("stores", Json.ofWord s.stores),
    ("evictions", Json.ofWord s.evictions)]

/-- What inspecting a file of a given size has shown. -/
def ofInspection (path : String) (bytecode : List UInt8) (s : ModuleShape) : Json :=
  let exported := fun (f : ExportedFunction) =>
    record [("name", .string f.name), ("display", .string f.type.text)]
  record [("file", .string path), ("size", Json.ofNat bytecode.length),
    ("content_hash", .string (ContentHash.ofBytes bytecode).hex),
    ("imports", Json.ofList .string s.imports), ("exports", Json.ofList exported s.functions),
    ("exports_memory", .bool s.exportsMemory),
    ("initial_memory_pages", Json.ofNat s.initialPages)]

/-- The calls of a run: how many each tier served, and the last results. -/
structure Tally where
  interpreter : Nat
  native : Nat
  last : List Value
  deriving Repr, Inhabited

namespace Tally

def empty : Tally := ⟨0, 0, []⟩

def add (t : Tally) (i : Invocation) : Tally :=
  match i.tier with
  | .interpreter => { t with interpreter := t.interpreter + 1, last := i.values }
  | .native => { t with native := t.native + 1, last := i.values }

def toJson (t : Tally) : Json :=
  record [("interpreter", Json.ofNat t.interpreter), ("native", Json.ofNat t.native)]

end Tally

end TieredUdf.CommandLine
