/-
JSON values. A number is kept as a whole number where it is written as one, and as
its text otherwise, because whole numbers are all that any setting of this library
is made of: a number with a point or an exponent never stands for a count. The
fields of an object keep their order.
-/

set_option autoImplicit false

namespace Admission

/-- **A JSON value.** -/
inductive Json
  | null
  | bool (value : Bool)
  | int (value : Int)
  /-- a number written with a point or an exponent, or as minus zero -/
  | decimal (text : String)
  | string (value : String)
  | array (items : List Json)
  | object (fields : List (String × Json))

namespace Json

instance : Inhabited Json := ⟨null⟩

/-- A count as a number. -/
def nat (n : Nat) : Json := int (Int.ofNat n)

/-- A value that may be absent; its absence is `null`. -/
def optional {α : Type} (f : α → Json) : Option α → Json
  | some value => f value
  | none => null

/-- A list of values. -/
def list {α : Type} (f : α → Json) (items : List α) : Json := array (items.map f)

/-- The value of an object's field; of several fields of one name the last. -/
def field? (name : String) (fields : List (String × Json)) : Option Json :=
  fields.reverse.lookup name

end Json

end Admission
