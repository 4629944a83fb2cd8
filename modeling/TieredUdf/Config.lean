import TieredUdf.Files.Tree
import TieredUdf.Text.Duration
import TieredUdf.Toml.Decode

/-!
# Settings of an engine

The settings with their defaults and the rules that they have to obey.  A TOML document may give
any of them.
-/

namespace TieredUdf

open Text (Duration)

structure Config where
  /-- Directory of compiled modules; `none` keeps them in memory. -/
  cacheDir : Option String
  cacheBudgetBytes : Nat
  compileThreads : Nat
  defaultPoolSize : Nat
  maxInstancesPerModule : Nat
  checkoutTimeoutMs : Nat
  /-- Instruction budget of a call; `none` does not count instructions. -/
  defaultFuel : Option Nat
  maxMemoryPages : Nat
  backgroundCompilation : Bool
  deriving DecidableEq, Repr, Inhabited

inductive ConfigError where
  | read (path : String) (fault : Files.Fault)
  | parse (detail : String)
  | compileThreads
  | defaultPoolSize
  | maxInstances
  | maxMemoryPages
  | defaultFuel
  deriving DecidableEq, Repr, Inhabited

namespace Config

def maxPoolSize : Nat := 64

def pageSize : Nat := 65536

/-- The default settings for a given cache directory and number of compile threads. -/
def defaults (cacheDir : Option String) (compileThreads : Nat) : Config :=
  { cacheDir := cacheDir
    cacheBudgetBytes := 256 * 1024 * 1024
    compileThreads := compileThreads
    defaultPoolSize := 4
    maxInstancesPerModule := 64
    checkoutTimeoutMs := 10
    defaultFuel := some 10000000
    maxMemoryPages := 256
    backgroundCompilation := true }

/-- Check the rules, the first one first. -/
def validate (c : Config) : Except ConfigError Unit :=
  if c.compileThreads = 0 then .error .compileThreads
  else if c.defaultPoolSize = 0 ∨ maxPoolSize < c.defaultPoolSize then .error .defaultPoolSize
  else if c.maxInstancesPerModule < c.defaultPoolSize then .error .maxInstances
  else if c.maxMemoryPages = 0 ∨ 65536 < c.maxMemoryPages then .error .maxMemoryPages
  else if c.defaultFuel = some 0 then .error .defaultFuel
  else .ok ()

def checkoutTimeout (c : Config) : Duration := .ofMilliseconds c.checkoutTimeoutMs

def maxMemoryBytes (c : Config) : Nat := c.maxMemoryPages * pageSize

/-- The size of a module's pools: what it asks for, or else the default, from 1 to the greatest
size and the greatest number of instances. -/
def poolSizeFor (c : Config) (requested : Option Nat) : Nat :=
  max 1 (min (min maxPoolSize c.maxInstancesPerModule) (requested.getD c.defaultPoolSize))

/-- The settings that a document gives; `defaults` has those that it leaves out. -/
def ofToml? (defaults : Config) (document : List (String × Toml)) : Option Config := do
  let field := fun name => Toml.member? name document
  let cacheDir ← Toml.optional? Toml.text? (field "cache_dir")
  let fuel ← Toml.optional? (Toml.natural? Numeric.maxWord64) (field "default_fuel")
  let number := fun (name : String) (maximum default : Nat) =>
    Toml.withDefault? default (Toml.natural? maximum) (field name)
  return {
    cacheDir := cacheDir.or defaults.cacheDir
    cacheBudgetBytes := ← number "cache_budget_bytes" Numeric.maxWord64 defaults.cacheBudgetBytes
    compileThreads := ← number "compile_threads" Numeric.maxWord64 defaults.compileThreads
    defaultPoolSize := ← number "default_pool_size" Numeric.maxWord64 defaults.defaultPoolSize
    maxInstancesPerModule :=
      ← number "max_instances_per_module" Numeric.maxWord64 defaults.maxInstancesPerModule
    checkoutTimeoutMs := ← number "checkout_timeout_ms" Numeric.maxWord64 defaults.checkoutTimeoutMs
    defaultFuel := fuel.or defaults.defaultFuel
    maxMemoryPages := ← number "max_memory_pages" Numeric.maxWord32 defaults.maxMemoryPages
    backgroundCompilation :=
      ← Toml.withDefault? defaults.backgroundCompilation Toml.flag?
        (field "background_compilation") }

/-- The settings that a text writes, once they are checked. -/
def parse (defaults : Config) (text : String) : Except ConfigError Config := do
  match (Toml.parse? text).bind (ofToml? defaults) with
  | none => .error (.parse "not a list of settings")
  | some c =>
      c.validate
      return c

def load {f : Type → Type} [Monad f] (read : String → f (Except Files.Fault (List UInt8)))
    (defaults : Config) (path : String) : f (Except ConfigError Config) := do
  match (← read path).bind Files.text with
  | .error fault => return .error (.read path fault)
  | .ok text => return parse defaults text

end Config

namespace ConfigError

def message : ConfigError → String
  | .read path fault => "failed to read config '" ++ path ++ "': " ++ fault.message
  | .parse detail => "invalid config TOML: " ++ detail
  | .compileThreads => "invalid config: compile_threads must be at least 1"
  | .defaultPoolSize => "invalid config: default_pool_size must be in 1..=64"
  | .maxInstances => "invalid config: max_instances_per_module must be >= default_pool_size"
  | .maxMemoryPages => "invalid config: max_memory_pages must be in 1..=65536"
  | .defaultFuel =>
      "invalid config: default_fuel must be positive; omit it to disable metering"

end ConfigError

end TieredUdf
