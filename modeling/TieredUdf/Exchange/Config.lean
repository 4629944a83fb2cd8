import TieredUdf.Config
import TieredUdf.Json.Access

/-!
# The exchange form of settings
-/

namespace TieredUdf.Exchange

/-- Settings with what follows from them: the size of a pool for each requested size. -/
def ofConfig (threads : Nat → Json) (requested : List Json) (c : Config) : Json :=
  .object [("background_compilation", .bool c.backgroundCompilation),
    ("cache_budget_bytes", Json.ofNat c.cacheBudgetBytes),
    ("cache_dir", Json.ofOption .string c.cacheDir),
    ("checkout_timeout", .string c.checkoutTimeout.text),
    ("checkout_timeout_ms", Json.ofNat c.checkoutTimeoutMs),
    ("compile_threads", threads c.compileThreads),
    ("default_fuel", Json.ofOption Json.ofNat c.defaultFuel),
    ("default_pool_size", Json.ofNat c.defaultPoolSize),
    ("max_instances_per_module", Json.ofNat c.maxInstancesPerModule),
    ("max_memory_bytes", Json.ofNat c.maxMemoryBytes),
    ("max_memory_pages", Json.ofNat c.maxMemoryPages),
    ("pool_sizes", Json.ofList (fun s => Json.ofNat (c.poolSizeFor s.asNat?)) requested)]

def assigned (c : Config) (j : Json) : Config :=
  { c with
    cacheBudgetBytes := j.naturalOr "cache_budget_bytes" c.cacheBudgetBytes
    compileThreads := j.naturalOr "compile_threads" c.compileThreads
    defaultPoolSize := j.naturalOr "default_pool_size" c.defaultPoolSize
    maxInstancesPerModule := j.naturalOr "max_instances_per_module" c.maxInstancesPerModule
    checkoutTimeoutMs := j.naturalOr "checkout_timeout_ms" c.checkoutTimeoutMs
    defaultFuel :=
      if (j.get? "default_fuel").isSome then j.natural? "default_fuel" else c.defaultFuel
    maxMemoryPages := j.naturalOr "max_memory_pages" c.maxMemoryPages
    backgroundCompilation := j.flagOr "background_compilation" c.backgroundCompilation }

end TieredUdf.Exchange
