/-
What the limiter knows about one request. A description is made once, at the
boundary, and is not changed afterwards; the method is kept in capitals and the
names of headers in small letters.
-/
import Admission.Text.Ascii
import Admission.Template

set_option autoImplicit false

namespace Admission

/-- **The description of a request.** The caller and the tenant are absent for a
request that has none. -/
structure Request where
  method : String
  endpoint : String
  address : String
  caller : Option String
  tenant : Option String
  /-- headers by name, each name once -/
  headers : List (String × String)
  deriving DecidableEq

namespace Request

/-- A description without identity and without headers. -/
def describe (method endpoint address : String) : Request :=
  ⟨Text.upper method, endpoint, address, none, none, []⟩

/-- The same request with a caller, if there is one. -/
def withCaller (r : Request) (caller : Option String) : Request := { r with caller := caller }

/-- The same request with a tenant, if there is one. -/
def withTenant (r : Request) (tenant : Option String) : Request := { r with tenant := tenant }

/-- The same request with a header; the value of an earlier one of that name is
replaced. -/
def withHeader (r : Request) (name value : String) : Request :=
  let key := Text.lower name
  { r with headers := r.headers.filter (·.1 != key) ++ [(key, value)] }

/-- The same request with several headers, in order. -/
def withHeaders (r : Request) (headers : List (String × String)) : Request :=
  headers.foldl (fun r h => r.withHeader h.1 h.2) r

/-- The value of a header; the name may be written in any case. -/
def header? (r : Request) (name : String) : Option String :=
  r.headers.lookup (Text.lower name)

/-- What a request can fill into a template. -/
def source (r : Request) : Source where
  tenantId := r.tenant
  callerId := r.caller
  address := some r.address
  endpoint := some r.endpoint
  method := some r.method

end Request

end Admission
