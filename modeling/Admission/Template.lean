/-
Message templates: texts with places that are filled in from a request or an
event. A place is written as a name in curly brackets, and the names are a closed
set, so a misspelt one is refused when the template is read and not when a client
is turned away.

Reading is one pass from left to right; whatever is filled in is never read again
as a place.
-/

set_option autoImplicit false

namespace Admission

/-! ## Places -/

/-- **What a template may ask for.** -/
inductive Placeholder
  | tenantId
  | callerId
  | address
  | endpoint
  | method
  deriving DecidableEq

namespace Placeholder

/-- The name between the brackets. -/
def name : Placeholder → String
  | tenantId => "tenantId"
  | callerId => "callerId"
  | address => "address"
  | endpoint => "endpoint"
  | method => "method"

/-- All places with their names. -/
def names : List (String × Placeholder) :=
  [("tenantId", tenantId), ("callerId", callerId), ("address", address),
    ("endpoint", endpoint), ("method", method)]

/-- The place of a name. -/
def ofName? (name : String) : Option Placeholder := names.lookup name

theorem ofName?_name (p : Placeholder) : ofName? p.name = some p := by
  cases p <;> decide

end Placeholder

/-- **What can be filled in.** A field that is absent cannot. -/
structure Source where
  tenantId : Option String := none
  callerId : Option String := none
  address : Option String := none
  endpoint : Option String := none
  method : Option String := none
  deriving DecidableEq

/-- The value of a source for a place. -/
def Source.value? (s : Source) : Placeholder → Option String
  | .tenantId => s.tenantId
  | .callerId => s.callerId
  | .address => s.address
  | .endpoint => s.endpoint
  | .method => s.method

/-! ## Templates -/

/-- A piece of a template. -/
inductive Template.Part
  | text (value : String)
  | field (placeholder : Placeholder)
  deriving DecidableEq

/-- **A template that has been read.** -/
structure Template where
  parts : List Template.Part
  deriving DecidableEq

/-- What can be wrong with a template or with filling it in. -/
inductive Template.Fault
  | unclosed (pattern : String)
  | unknown (name : String)
  | missing (placeholder : Placeholder)
  deriving DecidableEq

/-- A name in curly brackets. -/
def Template.bracketed (name : String) : String := "\x7b" ++ name ++ "\x7d"

/-- The wording of a fault. -/
def Template.Fault.message : Template.Fault → String
  | unclosed pattern => "unclosed placeholder in '" ++ pattern ++ "'"
  | unknown name => "unknown placeholder '" ++ Template.bracketed name ++ "'"
  | missing placeholder =>
    "source has no value for '" ++ Template.bracketed placeholder.name ++ "'"

namespace Template

/-- The text gathered so far, latest character first, as a piece in front of
others. No piece is empty. -/
def flush (gathered : List Char) (parts : List Part) : List Part :=
  match gathered with
  | [] => parts
  | _ :: _ => .text (String.ofList gathered.reverse) :: parts

/-- Reading with what was gathered since the last bracket: plain text while
`name` is absent, a name while it is present. -/
def parseFrom (pattern : String) :
    (gathered : List Char) → (name : Option (List Char)) → List Char → Except Fault (List Part)
  | gathered, none, [] => .ok (flush gathered [])
  | _, some _, [] => .error (.unclosed pattern)
  | gathered, none, c :: rest =>
    if c = '\x7b' then (flush gathered ·) <$> parseFrom pattern [] (some []) rest
    else parseFrom pattern (c :: gathered) none rest
  | gathered, some name, c :: rest =>
    if c = '\x7d' then
      match Placeholder.ofName? (String.ofList name.reverse) with
      | none => .error (.unknown (String.ofList name.reverse))
      | some placeholder => (.field placeholder :: ·) <$> parseFrom pattern [] none rest
    else parseFrom pattern gathered (some (c :: name)) rest

/-- **Reading a template.** -/
def parse (pattern : String) : Except Fault Template :=
  Template.mk <$> parseFrom pattern [] none pattern.toList

/-- The places of a template, in order. -/
def placeholders (t : Template) : List Placeholder :=
  t.parts.filterMap fun
    | .field placeholder => some placeholder
    | .text _ => none

/-- One piece written out again. -/
def Part.render : Part → String
  | .text value => value
  | .field placeholder => bracketed placeholder.name

/-- **The text of a template.** -/
def render (t : Template) : String := String.join (t.parts.map Part.render)

/-- One piece filled in. -/
def Part.resolve (source : Source) : Part → Except Fault String
  | .text value => .ok value
  | .field placeholder =>
    match source.value? placeholder with
    | some value => .ok value
    | none => .error (.missing placeholder)

/-- **A template filled in:** the first place without a value is the fault. -/
def resolve (t : Template) (source : Source) : Except Fault String :=
  String.join <$> t.parts.mapM (Part.resolve source)

end Template

end Admission
