/-
Requests and responses, as far as admission control looks at them.
-/
import Admission.Address
import Admission.Http.Header

set_option autoImplicit false

namespace Admission.Http

/-- Who sends a request, as established before it comes here. -/
structure Identity where
  caller : Option String
  tenant : Option String
  deriving DecidableEq

/-- **A request.** -/
structure Request where
  method : String
  /-- the target as it is written: a path, a whole address, or a star -/
  target : String
  headers : Headers
  identity : Option Identity
  /-- the other end of the connection -/
  peer : Option SocketAddress
  deriving DecidableEq

/-- **A response.** -/
structure Response where
  status : Nat
  headers : Headers
  body : String
  deriving DecidableEq

/-! ## Targets -/

/-- A target up to its query or fragment. -/
def withoutQuery (cs : List Char) : List Char := cs.takeWhile fun c => c != '?' && c != '#'

/-- What follows the scheme of a whole address. -/
def afterScheme? : List Char → Option (List Char)
  | ':' :: '/' :: '/' :: rest => some rest
  | c :: rest => if c = '/' then none else afterScheme? rest
  | [] => none

/-- **The path of a request.** A whole address without a path has the path `/`, and
an address without a scheme has none. -/
def Request.path (r : Request) : String :=
  match r.target.toList with
  | ['*'] => "*"
  | '/' :: rest => String.ofList (withoutQuery ('/' :: rest))
  | cs =>
    match afterScheme? cs with
    | none => ""
    | some rest =>
      let path := (withoutQuery rest).dropWhile (· != '/')
      if path.isEmpty then "/" else String.ofList path

end Admission.Http
