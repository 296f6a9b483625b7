/-
The counter store: entries under text keys, with times of expiry that are looked
at only when an entry is used or when the store is swept.

An entry is a fixed-window counter, a sliding log or a marker. Every operation
works on one key and is atomic; what it does to the other keys is nothing, except
that each thousand and twenty-fourth write also sweeps the whole store. All that
can be asked of a store is asked through `Store.find?`, and the lemmas beside the
operations say what each one does to it.
-/
import Admission.Counter

set_option autoImplicit false

namespace Admission

/-! ## Entries -/

/-- **What a key holds.** A marker without a time of expiry stays until it is
removed. -/
inductive Entry
  | fixed (counter : FixedCounter)
  | sliding (log : SlidingLog)
  | marker (expiresAt : Option Nat)
  deriving DecidableEq

namespace Entry

/-- Whether an entry's time is over. -/
def isExpired (now : Nat) : Entry → Bool
  | fixed counter => counter.isExpired now
  | sliding log => log.isExpired now
  | marker none => false
  | marker (some at_) => decide (at_ ≤ now)

/-- Whether an entry is a marker. -/
def isMarker : Entry → Bool
  | marker _ => true
  | _ => false

/-- What reading an entry reports while its time is not over. -/
def snapshot (now : Nat) : Entry → Snapshot
  | fixed counter => ⟨counter.count, some (counter.ttl now)⟩
  | sliding log => ⟨log.count now, some (log.ttl now)⟩
  | marker expiresAt => ⟨1, expiresAt.map (· - now)⟩

end Entry

/-! ## Stores -/

/-- **A counter store:** entries by key, each key once, and the number of writes
so far. -/
structure Store where
  entries : List (String × Entry)
  writes : Nat
  deriving DecidableEq

namespace Store

/-- A store without entries. -/
def empty : Store := ⟨[], 0⟩

/-- **The entry under a key,** expired or not. -/
def find? (s : Store) (key : String) : Option Entry := s.entries.lookup key

/-- How many keys there are, those of expired entries included. -/
def size (s : Store) : Nat := s.entries.length

/-- The list of entries with one key set. -/
def setEntry (key : String) (entry : Entry) : List (String × Entry) → List (String × Entry)
  | [] => [(key, entry)]
  | (k, e) :: rest => if k = key then (key, entry) :: rest else (k, e) :: setEntry key entry rest

/-- The store with one key set. -/
def put (s : Store) (key : String) (entry : Entry) : Store :=
  { s with entries := setEntry key entry s.entries }

/-- The store without a key. -/
def erase (s : Store) (key : String) : Store :=
  { s with entries := s.entries.filter (·.1 != key) }

/-- **The store without its expired entries.** -/
def sweep (s : Store) (now : Nat) : Store :=
  { s with entries := s.entries.filter fun e => !e.2.isExpired now }

/-- How many writes there are from one sweep to the next. -/
def sweepInterval : Nat := 1024

/-- A write is counted once it is done, and the last one of an interval sweeps. -/
def countWrite (s : Store) (now : Nat) : Store :=
  let counted := { s with writes := s.writes + 1 }
  if counted.writes % sweepInterval = 0 then counted.sweep now else counted

/-! ## Operations -/

/-- The fixed counter that an increment continues: the one under the key if it is
alive, else a new one. -/
def liveFixed (s : Store) (now : Nat) (key : String) (window : Nat) : FixedCounter :=
  match s.find? key with
  | some (.fixed counter) =>
    if counter.isExpired now then FixedCounter.start now window else counter
  | _ => FixedCounter.start now window

/-- **Counting one request in a fixed window.** -/
def incrementFixed (s : Store) (now : Nat) (key : String) (window : Nat) : FixedCount × Store :=
  let counter := (s.liveFixed now key window).increment
  (⟨counter.count, counter.ttl now⟩, (s.put key (.fixed counter)).countWrite now)

/-- The log that an attempt continues: the one under the key, expired or not, else
a new one. -/
def slidingLog (s : Store) (key : String) (window : Nat) : SlidingLog :=
  match s.find? key with
  | some (.sliding log) => log
  | _ => SlidingLog.start window

/-- **Attempting one request in a sliding window.** The instant of the attempt is
the caller's; the store's own time is only for sweeping. -/
def incrementSliding (s : Store) (now : Nat) (key : String) (window limit instant : Nat) :
    SlidingCount × Store :=
  let (count, log) := (s.slidingLog key window).attempt instant window limit
  (count, (s.put key (.sliding log)).countWrite now)

/-- The entry under a key whose time is not over. -/
def live? (s : Store) (now : Nat) (key : String) : Option Entry :=
  (s.find? key).filter fun entry => !entry.isExpired now

/-- **Reading a counter.** -/
def read (s : Store) (now : Nat) (key : String) : Snapshot :=
  match s.live? now key with
  | some entry => entry.snapshot now
  | none => Snapshot.empty

/-- **Removing a key;** reports whether something alive was under it. -/
def reset (s : Store) (now : Nat) (key : String) : Bool × Store :=
  ((s.live? now key).isSome, s.erase key)

/-- **Leaving a marker,** for a time or for good. -/
def setMarker (s : Store) (now : Nat) (key : String) (ttl : Option Nat) : Store :=
  (s.put key (.marker (ttl.map fun t => Word.add now (Word.clamp t)))).countWrite now

/-- **Asking for a marker** that is alive. -/
def hasMarker (s : Store) (now : Nat) (key : String) : Bool :=
  match s.live? now key with
  | some entry => entry.isMarker
  | none => false

/-- Sweeping on request; reports how many entries went. -/
def purge (s : Store) (now : Nat) : Nat × Store :=
  let swept := s.sweep now
  (s.size - swept.size, swept)

/-! ## What is under a key afterwards -/

theorem lookup_setEntry (key k : String) (entry : Entry) (es : List (String × Entry)) :
    (setEntry key entry es).lookup k = if k = key then some entry else es.lookup k := by
  induction es with
  | nil =>
    by_cases h : k = key
    · simp [setEntry, h]
    · simp [setEntry, List.lookup_cons, h, beq_eq_false_iff_ne.2 h]
  | cons head rest ih =>
    obtain ⟨k', e'⟩ := head
    by_cases h' : k' = key
    · subst h'
      by_cases h : k = k'
      · simp [setEntry, h]
      · simp [setEntry, List.lookup_cons, h, beq_eq_false_iff_ne.2 h]
    · simp only [setEntry, if_neg h', List.lookup_cons, ih]
      by_cases h : k = k'
      · subst h
        simp [h']
      · simp [beq_eq_false_iff_ne.2 h]

/-- Setting a key changes that key. -/
theorem find?_put (s : Store) (key k : String) (entry : Entry) :
    (s.put key entry).find? k = if k = key then some entry else s.find? k :=
  lookup_setEntry key k entry s.entries

theorem lookup_filter_ne (key k : String) (es : List (String × Entry)) :
    (es.filter (·.1 != key)).lookup k = if k = key then none else es.lookup k := by
  induction es with
  | nil => simp
  | cons head rest ih =>
    obtain ⟨k', e'⟩ := head
    by_cases h' : k' = key
    · subst h'
      by_cases h : k = k'
      · subst h
        simpa using ih
      · simp [List.lookup_cons, ih, h, beq_eq_false_iff_ne.2 h]
    · by_cases h : k = k'
      · subst h
        simp [h']
      · simp [h', List.lookup_cons, ih, beq_eq_false_iff_ne.2 h]

/-- Erasing a key removes that key. -/
theorem find?_erase (s : Store) (key k : String) :
    (s.erase key).find? k = if k = key then none else s.find? k :=
  lookup_filter_ne key k s.entries

end Store

end Admission
