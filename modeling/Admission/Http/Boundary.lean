/-
The boundary: how a request is described to the limiter, and how the limiter's
answer is given to the client.

The caller of a request is the one that was established before it got here, and
only if there is none the one that the request names itself; the same holds for
the tenant, provided that a header for it is configured at all. The address is the
first hop of the forwarding list, then the real address that a proxy reports, then
the other end of the connection.
-/
import Admission.Address.Text
import Admission.Calendar
import Admission.Config
import Admission.Decision
import Admission.Http.Message
import Admission.Json.Printer
import Admission.Request

set_option autoImplicit false

namespace Admission.Http

/-! ## Settings -/

/-- **The settings of the boundary,** with every header name read. -/
structure Boundary where
  skipPaths : List String
  apiKeyHeader : HeaderName
  tenantHeader : Option HeaderName
  /-- whether a limited response tells about its limit -/
  informational : Bool
  limit : HeaderName
  remaining : HeaderName
  reset : HeaderName
  retryAfter : HeaderName
  deriving DecidableEq

/-- A header name from a setting, or the error that names the setting. -/
def headerName (field raw : String) : Except Error HeaderName :=
  match HeaderName.parse? raw with
  | some name => .ok name
  | none => .error (.configuration (field ++ " '" ++ raw ++ "': invalid HTTP header name"))

/-- The same for a setting that may be absent. -/
def headerName? (field : String) : Option String → Except Error (Option HeaderName)
  | none => .ok none
  | some raw => some <$> headerName field raw

namespace Boundary

/-- **The settings of a configuration.** The first bad header name is the error. -/
def ofConfig (config : RateLimitingConfig) : Except Error Boundary := do
  let apiKeyHeader ← headerName "api_key_header" config.apiKeyHeader
  let tenantHeader ← headerName? "tenant_header" config.tenantHeader
  let limit ← headerName "headers.limit" config.headers.limit
  let remaining ← headerName "headers.remaining" config.headers.remaining
  let reset ← headerName "headers.reset" config.headers.reset
  let retryAfter ← headerName "headers.retry_after" config.headers.retryAfter
  return { skipPaths := config.skipPaths, apiKeyHeader, tenantHeader,
           informational := config.headers.enabled, limit, remaining, reset, retryAfter }

/-- Whether a skip path covers a path: it is the same, or a slash follows it. -/
def covers (skip path : List Char) : Bool :=
  path == skip || (skip.isPrefixOf path && (path.drop skip.length).head? == some '/')

/-- **Whether a path is never limited.** -/
def isSkipped (b : Boundary) (path : String) : Bool :=
  b.skipPaths.any fun skip => covers skip.toList path.toList

/-! ## Describing a request -/

/-- The list of hops that a request was forwarded over. -/
def forwardedFor : HeaderName := ⟨"x-forwarded-for"⟩

/-- The address that a proxy reports. -/
def realIp : HeaderName := ⟨"x-real-ip"⟩

/-- The first hop of the forwarding list, if it is anything but blank. -/
def firstHop? (headers : Headers) : Option String :=
  match headers.saying? forwardedFor with
  | none => none
  | some list =>
    let first := Text.trim (Text.before ',' list)
    if first = "" then none else some first

/-- **The address of the client.** -/
def clientAddress (r : Request) : String :=
  match firstHop? r.headers with
  | some address => address
  | none =>
    match r.headers.saying? realIp with
    | some address => address
    | none =>
      match r.peer with
      | some peer => peer.ip.text
      | none => "unknown"

/-- The caller of a request. -/
def caller? (b : Boundary) (r : Request) : Option String :=
  r.identity.bind Identity.caller <|> r.headers.saying? b.apiKeyHeader

/-- The tenant of a request. -/
def tenant? (b : Boundary) (r : Request) : Option String :=
  r.identity.bind Identity.tenant <|> b.tenantHeader.bind r.headers.saying?

/-- **The description of a request.** Headers whose value is no text are left out. -/
def describe (b : Boundary) (r : Request) : Admission.Request :=
  (((Request.describe r.method r.path (clientAddress r)).withCaller (b.caller? r)).withTenant
    (b.tenant? r)).withHeaders (r.headers.fields.filter fun h => isReadable h.2)

/-! ## Answering -/

/-- A response with the headers that tell about the limit. -/
def inform (b : Boundary) (d : Decision) (r : Response) : Response :=
  if b.informational && d.hasRule then
    { r with
      headers := ((r.headers.set b.limit (Nat.repr d.limit)).set b.remaining
        (Nat.repr d.remaining)).set b.reset (Nat.repr d.resetAt) }
  else r

/-- A response with a JSON value. -/
def jsonResponse (status : Nat) (value : Json) : Response :=
  ⟨status, ⟨[("content-type", "application/json")]⟩, value.text false⟩

/-- What a client is told that is turned away. -/
def denialBody (d : Decision) : Json :=
  .object
    [("error", .string "Rate limit exceeded"),
      ("message", .string (d.message.getD "Too many requests")),
      ("details", .object
        [("limit", .nat d.limit),
          ("current", .nat d.currentCount),
          ("resetTime", .string (timestamp d.resetAt)),
          ("retryAfter", .optional .nat d.retryAfterSeconds)])]

/-- **The response to a denial.** -/
def denial (b : Boundary) (d : Decision) : Response :=
  let response := b.inform d (jsonResponse 429 (denialBody d))
  { response with
    headers := response.headers.set b.retryAfter (Nat.repr (d.retryAfterSeconds.getD 1)) }

/-- The response when there is no decision. It does not say why. -/
def unavailable : Response :=
  jsonResponse 503 (.object [("error", .string "Service temporarily unavailable")])

/-! ## The gate -/

/-- **The gate in front of a handler.** A request on a skipped path goes straight
to the handler; any other one is described, and gets to the handler only if it is
allowed. What `check` and the handler do besides is up to the monad they run in. -/
def serve {m : Type → Type} [Monad m] (b : Boundary)
    (check : Admission.Request → m (Except Error Decision)) (handler : Request → m Response)
    (r : Request) : m Response :=
  if b.isSkipped r.path then handler r
  else do
    match ← check (b.describe r) with
    | .error _ => pure unavailable
    | .ok d => if d.allowed then b.inform d <$> handler r else pure (b.denial d)

end Boundary

end Admission.Http
