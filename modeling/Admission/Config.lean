/-
The configuration: what an operator may set, and what holds where nothing is set.
-/
import Admission.Address
import Admission.CounterKey
import Admission.RuleSet
import Admission.Whitelist

set_option autoImplicit false

namespace Admission

/-- The server section. -/
structure ServerConfig where
  listenAddress : SocketAddress
  deriving DecidableEq

/-- The section on response headers: whether a limited response tells about its
limit, and the names of the headers that do. -/
structure HeadersConfig where
  enabled : Bool
  limit : String
  remaining : String
  reset : String
  retryAfter : String
  deriving DecidableEq

/-- What keeps the counters. -/
inductive StoreBackend
  | memory
  | redis
  deriving DecidableEq

/-- The store section. -/
structure StoreConfig where
  backend : StoreBackend
  redisUrl : String
  deriving DecidableEq

/-- **The section on rate limiting.** -/
structure RateLimitingConfig where
  enabled : Bool
  failOpen : Bool
  /-- milliseconds a call to the store may take -/
  storeTimeout : Nat
  keySpace : String
  /-- a file with further rules and default limits -/
  rulesPath : Option String
  rules : List Rule
  defaults : DefaultLimits
  whitelist : WhitelistConfig
  headers : HeadersConfig
  /-- paths that are never limited, each with everything below it -/
  skipPaths : List String
  /-- the request header with the caller -/
  apiKeyHeader : String
  /-- the request header with the tenant, if one is to be trusted -/
  tenantHeader : Option String
  store : StoreConfig
  deriving DecidableEq

/-- **A configuration.** -/
structure Config where
  server : ServerConfig
  rateLimiting : RateLimitingConfig
  deriving DecidableEq

/-! ## Defaults -/

/-- The loopback address, port 8080. -/
def ServerConfig.standard : ServerConfig := ⟨.v4 .loopback ⟨8080, by decide⟩⟩

/-- Informational headers under their usual names. -/
def HeadersConfig.standard : HeadersConfig where
  enabled := true
  limit := "X-RateLimit-Limit"
  remaining := "X-RateLimit-Remaining"
  reset := "X-RateLimit-Reset"
  retryAfter := "Retry-After"

/-- Counters in memory. -/
def StoreConfig.standard : StoreConfig := ⟨.memory, "redis://127.0.0.1:6379"⟩

/-- Limiting without rules. -/
def RateLimitingConfig.standard : RateLimitingConfig where
  enabled := true
  failOpen := true
  storeTimeout := 100
  keySpace := defaultKeySpace
  rulesPath := none
  rules := []
  defaults := DefaultLimits.empty
  whitelist := WhitelistConfig.empty
  headers := HeadersConfig.standard
  skipPaths := ["/health", "/metrics"]
  apiKeyHeader := "X-API-Key"
  tenantHeader := none
  store := StoreConfig.standard

/-- **What holds where nothing is set.** -/
def Config.standard : Config := ⟨ServerConfig.standard, RateLimitingConfig.standard⟩

/-! ## Names of store backends -/

/-- The written name of a backend. -/
def StoreBackend.name : StoreBackend → String
  | memory => "memory"
  | redis => "redis"

/-- All names of backends. -/
def StoreBackend.names : List (String × StoreBackend) :=
  [("memory", memory), ("redis", redis)]

/-- A backend is found again under its own name. -/
theorem StoreBackend.lookup_name (b : StoreBackend) : names.lookup b.name = some b := by
  cases b <;> decide

end Admission
