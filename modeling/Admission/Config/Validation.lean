/-
Which configurations are accepted, and what a limiter is made of that is
configured by one.

A configuration is examined without looking at its rules file; the file is read
when the rules are put in force, and its default limits then win over those of the
configuration.
-/
import Admission.Config
import Admission.Http.Boundary
import Admission.Limiter
import Admission.Rule.Document

set_option autoImplicit false

namespace Admission

/-! ## Examination -/

/-- Whether a text can start every key: it has to be one part of a key. -/
def isKeySpace (s : String) : Bool := s != "" && !s.toList.contains ':'

/-- **Whether a configuration is accepted,** and if not, its first fault. -/
def Config.validate (c : Config) : Except Error Unit := do
  if c.rateLimiting.storeTimeout = 0 then
    throw (.configuration "store_timeout_ms must be positive")
  if !isKeySpace c.rateLimiting.keySpace then
    throw (.configuration
      ("key_prefix '" ++ c.rateLimiting.keySpace ++ "' must be non-empty and contain no ':'"))
  let _ ← Http.Boundary.ofConfig c.rateLimiting
  let _ ← RuleSet.build c.rateLimiting.rules c.rateLimiting.defaults

/-! ## The parts of a limiter -/

namespace RateLimitingConfig

/-- **The rules in force:** those of the configuration and those of its rules file,
which `documentAt` reads. -/
def ruleSet (c : RateLimitingConfig) (documentAt : String → Except Error RulesDocument) :
    Except Error RuleSet :=
  match c.rulesPath with
  | none => RuleSet.build c.rules c.defaults
  | some path => do
    let document ← documentAt path
    RuleSet.build (c.rules ++ document.rules) (c.defaults.merge document.defaults)

/-- The switches of the limiter. -/
def settings (c : RateLimitingConfig) : LimiterSettings where
  enabled := c.enabled
  failOpen := c.failOpen
  storeTimeout := c.storeTimeout
  keySpace := c.keySpace

/-- **The configured limiter.** -/
def limiter (c : RateLimitingConfig) (documentAt : String → Except Error RulesDocument) :
    Except Error Limiter := do
  let rules ← c.ruleSet documentAt
  return { settings := c.settings, rules, whitelist := .ofConfig c.whitelist }

end RateLimitingConfig

end Admission
