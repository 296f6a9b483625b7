/-
The command line: takes a configuration as a server would at its start, and tells
what would be in force.

    admission [-c FILE | --config FILE] [-l ADDRESS | --listen ADDRESS]

Files and the environment are read here and nowhere else; what they mean is
decided by `Config.load` and `RateLimitingConfig.limiter`. The answer goes to the
standard output, an error to the standard error with exit code 1.
-/
import Admission.Config.Sources
import Admission.Config.Validation
import Admission.FileTree

set_option autoImplicit false

namespace Admission

/-! ## Arguments -/

/-- **What the arguments ask for.** -/
structure Arguments where
  /-- the configuration file -/
  config : Option String
  /-- an address in place of the configured one -/
  listen : Option SocketAddress

/-- Arguments from the words of the command line; none if they are not understood. -/
def Arguments.read? (asked : Arguments) : List String → Option Arguments
  | [] => some asked
  | name :: value :: rest =>
    if name = "-c" ∨ name = "--config" then
      Arguments.read? { asked with config := some value } rest
    else if name = "-l" ∨ name = "--listen" then
      (SocketAddress.parse? value).bind fun address =>
        Arguments.read? { asked with listen := some address } rest
    else none
  | _ => none

/-- A configuration with the address that the arguments name. -/
def Arguments.overlay (asked : Arguments) (c : Config) : Config :=
  match asked.listen with
  | some address => { c with server := ⟨address⟩ }
  | none => c

/-! ## Answers -/

/-- **What would be in force,** a line for each thing. -/
def Config.summary (c : Config) (limiter : Limiter) : List String :=
  ["listen address: " ++ c.server.listenAddress.text,
    "limiting: " ++ (if limiter.settings.enabled then "on" else "off"),
    "store: " ++ c.rateLimiting.store.backend.name,
    "rules: " ++ Nat.repr limiter.rules.rules.length] ++
    limiter.rules.rules.map ("  " ++ ·.id)

/-! ## Reading -/

/-- The text of a file, or why there is none. -/
def fileText (path : String) : IO (Except Error String) := do
  try
    return .ok (← IO.FS.readFile path)
  catch error =>
    return .error (.file (toString error))

/-- The environment, as far as the system shows it. -/
def environment : IO (List (String × String)) := do
  match ← fileText "/proc/self/environ" with
  | .error _ => return []
  | .ok text =>
    return (text.splitOn "\x00").map fun entry =>
      (String.ofList (entry.toList.takeWhile (· != '=')),
        String.ofList ((entry.toList.dropWhile (· != '=')).drop 1))

/-- The configuration and the limiter that the arguments ask for. -/
def Arguments.start (asked : Arguments) : IO (Except Error (Config × Limiter)) := do
  let text ← match asked.config with
    | none => pure (.ok none)
    | some path => do pure ((← fileText path).map some)
  let entries ← environment
  match text.bind (Config.load · entries) with
  | .error error => return .error error
  | .ok c =>
    let c := asked.overlay c
    let rules ← match c.rateLimiting.rulesPath with
      | none => pure (.error FileTree.Fault.missing.error)
      | some path => do pure ((← fileText path).bind RulesDocument.ofYaml)
    return (c.rateLimiting.limiter fun _ => rules).map (c, ·)

end Admission

/-- The program. -/
def main (words : List String) : IO UInt32 := do
  match Admission.Arguments.read? ⟨none, none⟩ words with
  | none =>
    IO.eprintln "usage: admission [--config FILE] [--listen ADDRESS]"
    return 2
  | some asked =>
    match ← asked.start with
    | .error error =>
      IO.eprintln error.message
      return 1
    | .ok (c, limiter) =>
      (c.summary limiter).forM IO.println
      return 0
