/-
How written values become settings. A setting may be written in JSON, in YAML or
in layers of files and variables, and each of these has its own idea of what
counts as a number, a text or an absent value. A `Reading` is such an idea; what a
rule or a configuration is made of is then said once, over any `Reading`.

Whatever does not fit is refused as a whole, without a reason. A reader answers in a
monad that can refuse; that is `Option`, unless a notation keeps an account of what
was read.
-/
import Admission.Word

set_option autoImplicit false

namespace Admission

/-! ## Conventions -/

/-- **How the values of a format are understood,** where reading answers in `m`. -/
structure Reading (m : Type → Type) (ν : Type) where
  text : ν → m String
  flag : ν → m Bool
  /-- a count that fits a word -/
  count : ν → m Nat
  /-- a whole number of 32 bits with a sign -/
  int32 : ν → m Int
  /-- the value itself, or `none` if it says that there is none -/
  presence : ν → m (Option ν)
  /-- the items of a list -/
  items : ν → m (List ν)
  /-- the values of a record by field, of those fields that are written -/
  record : (names : List String) → ν → m (List (String × ν))
  /-- which of several names is written -/
  variant : (names : List String) → ν → m String

namespace Reading

variable {m : Type → Type} [Monad m] [MonadExcept Unit m] {ν α : Type}

/-- What there is; nothing is refused. -/
def accept : Option α → m α
  | some a => pure a
  | none => throw ()

/-- A value that may be absent. -/
def optional (r : Reading m ν) (read : ν → m α) (v : ν) : m (Option α) := do
  match ← r.presence v with
  | none => pure none
  | some v => some <$> read v

/-- A list of values of one kind. -/
def list (r : Reading m ν) (read : ν → m α) (v : ν) : m (List α) := do
  (← r.items v).mapM read

/-- A value that is written by its name. -/
def named (r : Reading m ν) (names : List (String × α)) (v : ν) : m α := do
  accept (names.lookup (← r.variant (names.map (·.1)) v))

/-! ## Fields -/

/-- A field that has to be written. -/
def required (fields : List (String × ν)) (name : String) (read : ν → m α) : m α :=
  match fields.lookup name with
  | some v => read v
  | none => throw ()

/-- A field that has a default. -/
def orElse (fields : List (String × ν)) (name : String) (default : α) (read : ν → m α) : m α :=
  match fields.lookup name with
  | some v => read v
  | none => pure default

omit [MonadExcept Unit m] in
/-- A written field is read, whether it has a default or not. -/
theorem orElse_of_lookup {fields : List (String × ν)} {name : String} {v : ν} (default : α)
    (read : ν → m α) (h : fields.lookup name = some v) :
    orElse fields name default read = read v := by
  simp [orElse, h]

/-- The least and the largest number of 32 bits with a sign. -/
def fitsInt32 (n : Int) : Bool := -2147483648 ≤ n && n ≤ 2147483647

end Reading

end Admission
