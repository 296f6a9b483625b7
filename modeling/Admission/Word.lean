/-
Counts and instants are 64-bit words. Nothing in this library wraps around by
accident: a count, a window or an instant is a natural number, and the places
where a result is held inside the word are written with the operations below,
each of which stops at the largest word instead of passing it.

A duration is a whole number of milliseconds and may be longer than a word (a
window of `2 ^ 64 - 1` seconds is); it is cut down to a word only at the moment
it is added to an instant.
-/

set_option autoImplicit false

namespace Admission

/-! ## The word -/

/-- **The largest word,** `2 ^ 64 - 1`. -/
def Word.max : Nat := 18446744073709551615

/-- How many words there are; a clock that is moved past the last one starts
again at zero. -/
def Word.size : Nat := 18446744073709551616

/-- The closest word to a natural number: itself, or the largest one. -/
def Word.clamp (n : Nat) : Nat := min n Word.max

/-- Sum that stops at the largest word. -/
def Word.add (a b : Nat) : Nat := Word.clamp (a + b)

/-- Product that stops at the largest word. -/
def Word.mul (a b : Nat) : Nat := Word.clamp (a * b)

theorem Word.size_eq : Word.size = Word.max + 1 := rfl

theorem Word.clamp_le (n : Nat) : Word.clamp n ≤ Word.max := Nat.min_le_right _ _

theorem Word.clamp_of_le {n : Nat} (h : n ≤ Word.max) : Word.clamp n = n := Nat.min_eq_left h

theorem Word.add_of_le {a b : Nat} (h : a + b ≤ Word.max) : Word.add a b = a + b :=
  Word.clamp_of_le h

theorem Word.mul_of_le {a b : Nat} (h : a * b ≤ Word.max) : Word.mul a b = a * b :=
  Word.clamp_of_le h

/-- A duration may be cut down to a word before it is added as well as after it. -/
theorem Word.add_clamp (a b : Nat) : Word.add a (Word.clamp b) = Word.clamp (a + b) := by
  rw [Word.add, Word.clamp, Word.clamp, Word.clamp]
  omega

theorem Word.le_add {a b : Nat} (h : a ≤ Word.max) : a ≤ Word.add a b :=
  Nat.le_min.2 ⟨Nat.le_add_right a b, h⟩

/-! ## Seconds and milliseconds -/

/-- A duration given in whole seconds. -/
def secondsToMillis (s : Nat) : Nat := s * 1000

/-- **Whole seconds that cover a duration:** a started second counts in full, so
nobody who waits that long has waited too short. -/
def ceilSeconds (millis : Nat) : Nat := (millis + 999) / 1000

theorem millis_le_ceilSeconds (millis : Nat) : millis ≤ 1000 * ceilSeconds millis := by
  unfold ceilSeconds
  omega

theorem ceilSeconds_lt (millis : Nat) : 1000 * ceilSeconds millis < millis + 1000 := by
  unfold ceilSeconds
  omega

/-! ## The clock -/

/-- **A clock that is set by hand.** It shows milliseconds since the Unix epoch
as a word. -/
structure Clock where
  now : Nat
  deriving DecidableEq

/-- The clock's time in whole seconds. -/
def Clock.seconds (c : Clock) : Nat := c.now / 1000

/-- Moving the clock forward runs over the end of the word; the step itself is
first cut down to a word. -/
def Clock.advance (c : Clock) (by_ : Nat) : Clock := ⟨(c.now + Word.clamp by_) % Word.size⟩

/-- Setting the clock may also move it backward. -/
def Clock.set (_ : Clock) (now : Nat) : Clock := ⟨now⟩

end Admission
