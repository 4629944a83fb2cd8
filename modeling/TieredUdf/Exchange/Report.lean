import TieredUdf.Cache.Basic
import TieredUdf.Exchange.Module
import TieredUdf.Host.Call
import TieredUdf.Module.Statistics

/-!
# The exchange form of counters and log lines
-/

namespace TieredUdf.Exchange

def ofPoolStats (p : PoolStats) : Json :=
  .object [("capacity", Json.ofNat p.capacity), ("idle", Json.ofNat p.idle),
    ("live", Json.ofNat p.live), ("checkouts", Json.ofWord p.checkouts),
    ("instantiations", Json.ofWord p.instantiations), ("discarded", Json.ofWord p.discarded),
    ("exhausted", Json.ofWord p.exhausted)]

/-- The counters of a module without what is measured by the clock. -/
def reportMembers (r : ModuleReport) : List (String × Json) :=
  [("key", .string r.key.text), ("hash", .string r.hash.short), ("mode", .string r.mode.name),
    ("calls", Json.ofWord r.calls), ("errors", Json.ofWord r.errors),
    ("error_rate", ofDouble r.errorRate), ("field_reads", Json.ofWord r.fieldReads),
    ("called", .bool r.lastCall.isSome),
    ("last_error", Json.ofOption (fun e => .string e.message) r.lastError),
    ("interpreter_calls", Json.ofWord r.interpreter.calls),
    ("native_calls", Json.ofWord r.native.calls),
    ("interpreter_pool", Json.ofOption ofPoolStats r.interpreterPool),
    ("native_pool", Json.ofOption ofPoolStats r.nativePool)]

def compileMembers (d : CompileDiagnostics) : List (String × Json) :=
  [("status", .string d.status.name), ("backend", Json.ofOption .string d.backend),
    ("from_cache", .bool d.fromCache), ("error", Json.ofOption .string d.error)]

def ofCounters (c : EngineCounters) : Json :=
  .object [("registrations", Json.ofCounter c.registrations),
    ("unregistrations", Json.ofCounter c.unregistrations),
    ("compilations_started", Json.ofCounter c.compilationsStarted),
    ("compilations_succeeded", Json.ofCounter c.compilationsSucceeded),
    ("compilations_failed", Json.ofCounter c.compilationsFailed),
    ("compilations_coalesced", Json.ofCounter c.compilationsCoalesced),
    ("cache_hits", Json.ofCounter c.cacheHits), ("cache_misses", Json.ofCounter c.cacheMisses),
    ("hot_swaps", Json.ofCounter c.hotSwaps)]

/-- The counters of a cache; how the number of bytes is shown is given. -/
def ofCacheStats (total : Nat → Json) (s : CacheStats) : Json :=
  .object [("persistent", .bool s.persistent), ("entries", Json.ofNat s.entries),
    ("referenced", Json.ofNat s.referenced), ("total_bytes", total s.totalBytes),
    ("budget_bytes", Json.ofNat s.budget), ("hits", Json.ofWord s.hits),
    ("misses", Json.ofWord s.misses), ("stores", Json.ofWord s.stores),
    ("evictions", Json.ofWord s.evictions)]

def ofArtifact (a : Artifact) : Json :=
  .object [("hash", .string a.hash.short), ("bytes", .string (ContentHash.ofBytes a.bytes).short),
    ("size", Json.ofNat a.bytes.length), ("origin", .string a.origin)]

def levelName : Host.Level → String
  | .trace => "TRACE"
  | .debug => "DEBUG"
  | .info => "INFO"
  | .warn => "WARN"
  | .error => "ERROR"

def ofLogLines (newestFirst : List Host.LogLine) : Json :=
  Json.ofList (fun l => .array [.string (levelName l.level), .string l.text]) newestFirst.reverse

end TieredUdf.Exchange
