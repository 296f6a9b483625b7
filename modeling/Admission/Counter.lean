/-
The state behind one counter key, and what each kind of counter reports.

A fixed-window counter counts from its first increment until one window later. A
sliding log keeps the instant of every admitted request, and forgets from the
front what has left the window. Instants are words in milliseconds; neither kind
reads a clock.
-/
import Admission.Word

set_option autoImplicit false

namespace Admission

/-! ## Reports -/

/-- What an increment of a fixed window reports: the count after it, and how long
the counter still lives. -/
structure FixedCount where
  count : Nat
  ttl : Nat
  deriving DecidableEq

/-- What an attempt on a sliding window reports. The count includes the attempt if
it was admitted; `resetAfter` is the time until the oldest entry leaves. -/
structure SlidingCount where
  count : Nat
  exceeded : Bool
  resetAfter : Nat
  deriving DecidableEq

/-- What reading a counter reports. There is no `ttl` for a key that does not
exist or never expires. -/
structure Snapshot where
  count : Nat
  ttl : Option Nat
  deriving DecidableEq

/-- The report of a key that does not exist. -/
def Snapshot.empty : Snapshot := ⟨0, none⟩

/-! ## Fixed windows -/

/-- **A fixed-window counter,** which lives until `expiresAt`. -/
structure FixedCounter where
  count : Nat
  expiresAt : Nat
  deriving DecidableEq

namespace FixedCounter

/-- A counter that starts at zero now and lives for one window. -/
def start (now window : Nat) : FixedCounter := ⟨0, Word.add now (Word.clamp window)⟩

/-- Whether the counter's window is over. -/
def isExpired (c : FixedCounter) (now : Nat) : Bool := decide (c.expiresAt ≤ now)

/-- One more. The count has no upper bound here: it stays a word for fewer than `Word.size`
increments of the counter, and no more are meant. -/
def increment (c : FixedCounter) : FixedCounter := { c with count := c.count + 1 }

/-- How long the counter still lives. -/
def ttl (c : FixedCounter) (now : Nat) : Nat := c.expiresAt - now

end FixedCounter

/-! ## Sliding windows -/

/-- **A log of admitted requests,** oldest first as they were recorded. -/
structure SlidingLog where
  instants : List Nat
  /-- the window of the latest attempt, as a word -/
  window : Nat
  expiresAt : Nat
  deriving DecidableEq

namespace SlidingLog

/-- A log without entries. -/
def start (window : Nat) : SlidingLog := ⟨[], Word.clamp window, 0⟩

/-- Whether nothing in the log matters any more. A log that never admitted
anything is expired from the start. -/
def isExpired (l : SlidingLog) (now : Nat) : Bool := decide (l.expiresAt ≤ now)

/-- Whether an entry has left the window that ends now. During the first window
after the epoch nothing has. -/
def hasLeft (window now entry : Nat) : Bool := decide (window ≤ now ∧ entry ≤ now - window)

/-- The log without the entries at its front that have left the window. -/
def trim (l : SlidingLog) (now : Nat) : SlidingLog :=
  { l with instants := l.instants.dropWhile (hasLeft l.window now) }

/-- The time until the oldest entry leaves the window; none if there is no entry. -/
def resetAfter (l : SlidingLog) (now : Nat) : Nat :=
  match l.instants with
  | [] => 0
  | oldest :: _ => Word.add oldest l.window - now

/-- **An attempt:** forget what has left the window, and record the attempt if
fewer than `limit` entries are left. -/
def attempt (l : SlidingLog) (now window limit : Nat) : SlidingCount × SlidingLog :=
  let trimmed := { l with window := Word.clamp window }.trim now
  let current := trimmed.instants.length
  if limit ≤ current then
    (⟨current, true, trimmed.resetAfter now⟩, trimmed)
  else
    let recorded : SlidingLog :=
      { trimmed with
        instants := trimmed.instants ++ [now]
        expiresAt := Word.add now trimmed.window }
    (⟨current + 1, false, recorded.resetAfter now⟩, recorded)

/-- The entries inside the window that ends now. -/
def count (l : SlidingLog) (now : Nat) : Nat :=
  l.instants.countP fun entry => !hasLeft l.window now entry

/-- How long the log still matters. -/
def ttl (l : SlidingLog) (now : Nat) : Nat := l.expiresAt - now

end SlidingLog

end Admission
