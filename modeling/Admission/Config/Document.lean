/-
Configurations as they are written down: how each section is read, in whatever
notation (`Reading`), and how the whole is written as JSON. A section or a field
that is not written has its standard value; a written configuration shows them
all.
-/
import Admission.Address.Text
import Admission.Config
import Admission.Rule.Document

set_option autoImplicit false

namespace Admission

variable {m : Type → Type} [Monad m] [MonadExcept Unit m] {ν : Type}

/-! ## Reading -/

/-- Reading the server section. -/
def ServerConfig.read (r : Reading m ν) (v : ν) : m ServerConfig := do
  let fields ← r.record ["listen_addr"] v
  let listenAddress ← Reading.orElse fields "listen_addr" standard.listenAddress fun v =>
    do Reading.accept (SocketAddress.parse? (← r.text v))
  return { listenAddress }

/-- Reading the whitelist section. -/
def WhitelistConfig.read (r : Reading m ν) (v : ν) : m WhitelistConfig := do
  let fields ← r.record ["callers", "addresses", "tenants", "dynamic"] v
  let callers ← Reading.orElse fields "callers" [] (r.list r.text)
  let addresses ← Reading.orElse fields "addresses" [] (r.list r.text)
  let tenants ← Reading.orElse fields "tenants" [] (r.list r.text)
  let dynamic ← Reading.orElse fields "dynamic" false r.flag
  return { callers, addresses, tenants, dynamic }

/-- Reading the section on response headers. -/
def HeadersConfig.read (r : Reading m ν) (v : ν) : m HeadersConfig := do
  let fields ← r.record ["enabled", "limit", "remaining", "reset", "retry_after"] v
  let enabled ← Reading.orElse fields "enabled" standard.enabled r.flag
  let limit ← Reading.orElse fields "limit" standard.limit r.text
  let remaining ← Reading.orElse fields "remaining" standard.remaining r.text
  let reset ← Reading.orElse fields "reset" standard.reset r.text
  let retryAfter ← Reading.orElse fields "retry_after" standard.retryAfter r.text
  return { enabled, limit, remaining, reset, retryAfter }

/-- Reading the store section. -/
def StoreConfig.read (r : Reading m ν) (v : ν) : m StoreConfig := do
  let fields ← r.record ["backend", "redis_url"] v
  let backend ← Reading.orElse fields "backend" standard.backend (r.named StoreBackend.names)
  let redisUrl ← Reading.orElse fields "redis_url" standard.redisUrl r.text
  return { backend, redisUrl }

/-- The fields of the section on rate limiting in their order. -/
def RateLimitingConfig.fieldNames : List String :=
  ["enabled", "fail_open", "store_timeout_ms", "key_prefix", "rules_path", "rules", "defaults",
    "whitelist", "headers", "skip_paths", "api_key_header", "tenant_header", "store"]

/-- **Reading the section on rate limiting.** -/
def RateLimitingConfig.read (r : Reading m ν) (v : ν) : m RateLimitingConfig := do
  let fields ← r.record RateLimitingConfig.fieldNames v
  let enabled ← Reading.orElse fields "enabled" standard.enabled r.flag
  let failOpen ← Reading.orElse fields "fail_open" standard.failOpen r.flag
  let storeTimeout ← Reading.orElse fields "store_timeout_ms" standard.storeTimeout r.count
  let keySpace ← Reading.orElse fields "key_prefix" standard.keySpace r.text
  let rulesPath ← Reading.orElse fields "rules_path" none (r.optional r.text)
  let rules ← Reading.orElse fields "rules" [] (r.list (Rule.read r))
  let defaults ← Reading.orElse fields "defaults" DefaultLimits.empty (DefaultLimits.read r)
  let whitelist ← Reading.orElse fields "whitelist" WhitelistConfig.empty (WhitelistConfig.read r)
  let headers ← Reading.orElse fields "headers" standard.headers (HeadersConfig.read r)
  let skipPaths ← Reading.orElse fields "skip_paths" standard.skipPaths (r.list r.text)
  let apiKeyHeader ← Reading.orElse fields "api_key_header" standard.apiKeyHeader r.text
  let tenantHeader ← Reading.orElse fields "tenant_header" none (r.optional r.text)
  let store ← Reading.orElse fields "store" standard.store (StoreConfig.read r)
  return { enabled, failOpen, storeTimeout, keySpace, rulesPath, rules, defaults, whitelist,
           headers, skipPaths, apiKeyHeader, tenantHeader, store }

/-- **Reading a configuration.** -/
def Config.read (r : Reading m ν) (v : ν) : m Config := do
  let fields ← r.record ["server", "rate_limiting"] v
  let server ← Reading.orElse fields "server" standard.server (ServerConfig.read r)
  let rateLimiting ←
    Reading.orElse fields "rate_limiting" standard.rateLimiting (RateLimitingConfig.read r)
  return { server, rateLimiting }

/-! ## Writing -/

/-- The whitelist section written as JSON. -/
def WhitelistConfig.json (w : WhitelistConfig) : Json :=
  .object
    [("callers", .list .string w.callers),
      ("addresses", .list .string w.addresses),
      ("tenants", .list .string w.tenants),
      ("dynamic", .bool w.dynamic)]

/-- The section on response headers written as JSON. -/
def HeadersConfig.json (h : HeadersConfig) : Json :=
  .object
    [("enabled", .bool h.enabled),
      ("limit", .string h.limit),
      ("remaining", .string h.remaining),
      ("reset", .string h.reset),
      ("retry_after", .string h.retryAfter)]

/-- The store section written as JSON. -/
def StoreConfig.json (s : StoreConfig) : Json :=
  .object [("backend", .string s.backend.name), ("redis_url", .string s.redisUrl)]

/-- **The section on rate limiting written as JSON.** -/
def RateLimitingConfig.json (c : RateLimitingConfig) : Json :=
  .object
    [("enabled", .bool c.enabled),
      ("fail_open", .bool c.failOpen),
      ("store_timeout_ms", .nat c.storeTimeout),
      ("key_prefix", .string c.keySpace),
      ("rules_path", .optional .string c.rulesPath),
      ("rules", .list Rule.json c.rules),
      ("defaults", c.defaults.json),
      ("whitelist", c.whitelist.json),
      ("headers", c.headers.json),
      ("skip_paths", .list .string c.skipPaths),
      ("api_key_header", .string c.apiKeyHeader),
      ("tenant_header", .optional .string c.tenantHeader),
      ("store", c.store.json)]

/-- **A configuration written as JSON.** -/
def Config.json (c : Config) : Json :=
  .object
    [("server", .object [("listen_addr", .string c.server.listenAddress.text)]),
      ("rate_limiting", c.rateLimiting.json)]

end Admission
