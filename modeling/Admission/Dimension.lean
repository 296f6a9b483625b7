/-
What a limit counts along, and how it counts. A dimension is the axis on which
requests are told apart (one counter per address, per caller, per tenant, or one
for the whole endpoint); an algorithm is the way in which a counter forgets.

Each has a written name, used in configuration and in answers. A dimension has a
short tag besides, which is what counter keys are made of.
-/

set_option autoImplicit false

namespace Admission

/-! ## Dimensions -/

/-- **The axis a limit counts along.** -/
inductive Dimension
  | address
  | caller
  | tenant
  | endpoint
  deriving DecidableEq

namespace Dimension

/-- The name written in a configuration. -/
def name : Dimension → String
  | address => "address"
  | caller => "caller"
  | tenant => "tenant"
  | endpoint => "endpoint"

/-- The short tag written in a counter key. -/
def tag : Dimension → String
  | address => "ip"
  | caller => "caller"
  | tenant => "tenant"
  | endpoint => "endpoint"

/-- All names by which a dimension may be called; the address has two. -/
def names : List (String × Dimension) :=
  [("address", address), ("ip", address), ("caller", caller), ("tenant", tenant),
    ("endpoint", endpoint)]

theorem tag_injective {a b : Dimension} (h : a.tag = b.tag) : a = b := by
  cases a <;> cases b <;> simp_all [tag]

/-- A dimension is found again under its own name. -/
theorem lookup_name (d : Dimension) : names.lookup d.name = some d := by
  cases d <;> decide

end Dimension

/-! ## Algorithms -/

/-- **How a counter forgets.** A fixed window counts from zero in every bucket of
the clock; a sliding window remembers each admitted request until it is one window
old. -/
inductive Algorithm
  | fixedWindow
  | slidingWindow
  deriving DecidableEq

namespace Algorithm

/-- The name written in a configuration and in answers. -/
def name : Algorithm → String
  | fixedWindow => "fixed_window"
  | slidingWindow => "sliding_window"

/-- All names of algorithms. -/
def names : List (String × Algorithm) :=
  [("fixed_window", fixedWindow), ("sliding_window", slidingWindow)]

/-- An algorithm is found again under its own name. -/
theorem lookup_name (a : Algorithm) : names.lookup a.name = some a := by
  cases a <;> decide

end Algorithm

end Admission
