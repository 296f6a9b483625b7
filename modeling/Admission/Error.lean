/-
What can go wrong outside a single decision. A denied request is not an error: it
is one of the answers. An error is a configuration that cannot be used, a file
that cannot be read, or a counter store that did not do what it was asked.

Each kind carries what is needed to word it, and `Error.message` is the only place
where the wording is.
-/

set_option autoImplicit false

namespace Admission

/-- **An error,** by kind. -/
inductive Error
  /-- a rule that cannot be used, or that does not exist -/
  | rule (id : String) (reason : String)
  /-- a setting that is not tied to one rule -/
  | configuration (text : String)
  /-- the counter store could not be reached, or refused -/
  | storeUnavailable (text : String)
  /-- the counter store did not answer within so many milliseconds -/
  | storeTimeout (budget : Nat)
  /-- a template that asks for a value nobody has -/
  | placeholder (text : String)
  /-- a file that could not be read -/
  | file (text : String)
  /-- a document that is no YAML, or YAML of another shape -/
  | document
  deriving DecidableEq

/-! ## Wording -/

/-- Three digits of a fraction without the zeros at their end, after a point;
nothing if there is nothing left. -/
def fractionText (millis : Nat) : String :=
  let digits := [millis / 100 % 10, millis / 10 % 10, millis % 10]
  let kept := (digits.reverse.dropWhile (· == 0)).reverse
  if kept.isEmpty then "" else "." ++ String.join (kept.map Nat.repr)

/-- **The text of a duration:** seconds with their fraction from one second on,
whole milliseconds below that, and `0ns` for nothing. -/
def durationText (millis : Nat) : String :=
  if millis = 0 then "0ns"
  else if millis < 1000 then Nat.repr millis ++ "ms"
  else Nat.repr (millis / 1000) ++ fractionText (millis % 1000) ++ "s"

/-- **The message of an error.** -/
def Error.message : Error → String
  | rule id reason => "Invalid rule '" ++ id ++ "': " ++ reason
  | configuration text => "Configuration error: " ++ text
  | storeUnavailable text => "Counter store unavailable: " ++ text
  | storeTimeout budget => "Counter store timed out after " ++ durationText budget
  | placeholder text => "Placeholder error: " ++ text
  | file text => "I/O error: " ++ text
  | document => "YAML error"

/-- Whether the counter store is to blame. -/
def Error.isStoreFailure : Error → Bool
  | storeUnavailable _ | storeTimeout _ => true
  | _ => false

/-- Whether the counter store was too slow. -/
def Error.isTimeout : Error → Bool
  | storeTimeout _ => true
  | _ => false

end Admission
