/-
What passes the gate in front of a handler, and what is answered.

The gate runs in any monad, so what it does can be written down: put a monad under it that notes
each question to the limiter and each call of the handler (`Boundary.run`), and the notes of a
request are one of four lists. What the response says is read off from the values that each
header name has in it (`Headers.values`); setting a name touches the values of no other, which
settles the answer also where the configured names clash.
-/
import Admission.Http.Boundary
import Mathlib

set_option autoImplicit false

namespace Admission.Http

/-! ## Values of a name -/

/-- **All values of a header name,** in their order. -/
def Headers.values (h : Headers) (name : String) : List String :=
  (h.fields.filter (·.1 == name)).map Prod.snd

namespace Headers

variable (h : Headers) (target : HeaderName) (value : String)

/-- After a name is set, it has this value and no other; every other name has what it had. -/
theorem values_set (name : String) :
    (h.set target value).values name = if name = target.text then [value] else h.values name := by
  simp only [values, set, List.filter_append, List.map_append, List.filter_filter]
  split_ifs with hname
  · subst hname
    have hgone : h.fields.filter
        (fun field => field.1 == target.text && field.1 != target.text) = [] := by
      apply List.filter_eq_nil_iff.2
      simp
    rw [hgone, List.filter_cons_of_pos (by simp)]
    rfl
  · have hkept : h.fields.filter (fun field => field.1 == name && field.1 != target.text) =
        h.fields.filter (·.1 == name) := by
      apply List.filter_congr
      intro field _
      by_cases hfield : field.1 = name
      · simp [hfield, hname]
      · simp [hfield]
    rw [hkept, List.filter_cons_of_neg (by simpa using fun h => hname h.symm)]
    simp

theorem values_set_self : (h.set target value).values target.text = [value] := by
  rw [values_set, if_pos rfl]

theorem values_set_of_ne {name : String} (hname : name ≠ target.text) :
    (h.set target value).values name = h.values name := by
  rw [values_set, if_neg hname]

end Headers

/-! ## Settings -/

/-- A path that is never limited: one of the skip paths, or below one. -/
def Skips (config : RateLimitingConfig) (path : String) : Prop :=
  ∃ skip ∈ config.skipPaths, path = skip ∨ ∃ below, path = skip ++ "/" ++ below

namespace Boundary

/-- A skip path covers itself and what a slash separates from it. -/
theorem covers_iff {skip path : List Char} :
    covers skip path = true ↔ path = skip ∨ ∃ below, path = skip ++ '/' :: below := by
  simp only [covers, Bool.or_eq_true, Bool.and_eq_true, beq_iff_eq, List.isPrefixOf_iff_prefix]
  refine or_congr_right ⟨?_, ?_⟩
  · rintro ⟨⟨rest, rfl⟩, hslash⟩
    rw [List.drop_left] at hslash
    obtain ⟨below, rfl⟩ := List.head?_eq_some_iff.1 hslash
    exact ⟨below, rfl⟩
  · rintro ⟨below, rfl⟩
    exact ⟨List.prefix_append skip _, by rw [List.drop_left]; rfl⟩

/-- **The settings of a configuration,** one by one. -/
structure Of (b : Boundary) (config : RateLimitingConfig) : Prop where
  skipPaths : b.skipPaths = config.skipPaths
  informational : b.informational = config.headers.enabled
  limit : b.limit.text = Text.lower config.headers.limit
  remaining : b.remaining.text = Text.lower config.headers.remaining
  reset : b.reset.text = Text.lower config.headers.reset
  retryAfter : b.retryAfter.text = Text.lower config.headers.retryAfter

/-- A header name is kept in small letters, as header names are compared. -/
theorem text_of_headerName {field raw : String} {name : HeaderName}
    (h : headerName field raw = .ok name) : name.text = Text.lower raw := by
  unfold headerName HeaderName.parse? at h
  dsimp only at h
  split at h
  · rename_i hname
    split_ifs at hname
    cases hname
    cases h
    rfl
  · cases h

theorem exists_of_bind_eq_ok {ε α β : Type} {x : Except ε α} {f : α → Except ε β} {y : β}
    (h : (x >>= f) = .ok y) : ∃ a, x = .ok a ∧ f a = .ok y := by
  cases x with
  | error e => cases h
  | ok a => exact ⟨a, rfl, h⟩

/-- **The gate is set up as its configuration says,** if it can be set up at all. -/
theorem of_ofConfig {config : RateLimitingConfig} {b : Boundary} (h : ofConfig config = .ok b) :
    b.Of config := by
  obtain ⟨apiKeyHeader, -, h⟩ := exists_of_bind_eq_ok h
  obtain ⟨tenantHeader, -, h⟩ := exists_of_bind_eq_ok h
  obtain ⟨limit, hlimit, h⟩ := exists_of_bind_eq_ok h
  obtain ⟨remaining, hremaining, h⟩ := exists_of_bind_eq_ok h
  obtain ⟨reset, hreset, h⟩ := exists_of_bind_eq_ok h
  obtain ⟨retryAfter, hretry, h⟩ := exists_of_bind_eq_ok h
  cases h
  exact ⟨rfl, rfl, text_of_headerName hlimit, text_of_headerName hremaining,
    text_of_headerName hreset, text_of_headerName hretry⟩

variable {config : RateLimitingConfig} {b : Boundary}

/-- The paths that the gate skips are those that are never limited. -/
theorem Of.isSkipped_iff (h : b.Of config) (path : String) :
    b.isSkipped path = true ↔ Skips config path := by
  have hcovers : ∀ skip : String, covers skip.toList path.toList = true ↔
      path = skip ∨ ∃ below, path = skip ++ "/" ++ below := by
    intro skip
    rw [covers_iff, String.toList_inj]
    refine or_congr_right ⟨?_, ?_⟩
    · rintro ⟨below, hbelow⟩
      refine ⟨String.ofList below, String.toList_inj.1 ?_⟩
      rw [hbelow, String.toList_append, String.toList_append, List.append_assoc,
        @String.toList_ofList below]
      rfl
    · rintro ⟨below, rfl⟩
      refine ⟨below.toList, ?_⟩
      rw [String.toList_append, String.toList_append, List.append_assoc]
      rfl
  rw [isSkipped, h.skipPaths, List.any_eq_true]
  simp only [hcovers, Skips]

/-! ## Responses -/

/-- **A response of a handler, told about the limit.** All is as the handler has it but the three
configured names, and these only if they are enabled and a rule had a part in the decision. Where
names are the same, the one that is told later stays. -/
structure Informed (headers : HeadersConfig) (d : Decision) (inner response : Response) : Prop where
  status : response.status = inner.status
  body : response.body = inner.body
  others : ∀ name, name ≠ Text.lower headers.limit → name ≠ Text.lower headers.remaining →
    name ≠ Text.lower headers.reset → response.headers.values name = inner.headers.values name
  untold : headers.enabled = false ∨ d.appliedRule = none → response = inner
  reset : headers.enabled = true → d.appliedRule ≠ none →
    response.headers.values (Text.lower headers.reset) = [Nat.repr d.resetAt]
  remaining : headers.enabled = true → d.appliedRule ≠ none →
    Text.lower headers.remaining ≠ Text.lower headers.reset →
    response.headers.values (Text.lower headers.remaining) = [Nat.repr (d.limit - d.currentCount)]
  limit : headers.enabled = true → d.appliedRule ≠ none →
    Text.lower headers.limit ≠ Text.lower headers.remaining →
    Text.lower headers.limit ≠ Text.lower headers.reset →
    response.headers.values (Text.lower headers.limit) = [Nat.repr d.limit]

/-- **A response is told about the limit,** and nothing else in it is touched. Of two equal names
the one that is set later stays: the reset over the remaining, and that over the limit. -/
theorem Of.informed (h : b.Of config) (d : Decision) (inner : Response) :
    Informed config.headers d inner (b.inform d inner) := by
  by_cases htold : (b.informational && d.hasRule) = true
  · have hresponse : b.inform d inner =
        { inner with
          headers := ((inner.headers.set b.limit (Nat.repr d.limit)).set b.remaining
            (Nat.repr d.remaining)).set b.reset (Nat.repr d.resetAt) } := if_pos htold
    rw [Bool.and_eq_true, h.informational, Decision.hasRule, Option.isSome_iff_ne_none] at htold
    rw [hresponse]
    refine ⟨rfl, rfl, ?_, ?_, ?_, ?_, ?_⟩
    · intro name hlimit hremaining hreset
      rw [← h.limit] at hlimit
      rw [← h.remaining] at hremaining
      rw [← h.reset] at hreset
      rw [Headers.values_set_of_ne _ _ _ hreset, Headers.values_set_of_ne _ _ _ hremaining,
        Headers.values_set_of_ne _ _ _ hlimit]
    · rintro (hdisabled | hnone)
      · rw [htold.1] at hdisabled
        cases hdisabled
      · exact absurd hnone htold.2
    · intro _ _
      rw [← h.reset, Headers.values_set_self]
    · intro _ _ hreset
      rw [← h.remaining, ← h.reset] at hreset
      rw [← h.remaining, Headers.values_set_of_ne _ _ _ hreset, Headers.values_set_self]
      rfl
    · intro _ _ hremaining hreset
      rw [← h.limit, ← h.remaining] at hremaining
      rw [← h.limit, ← h.reset] at hreset
      rw [← h.limit, Headers.values_set_of_ne _ _ _ hreset,
        Headers.values_set_of_ne _ _ _ hremaining, Headers.values_set_self]
  · have hresponse : b.inform d inner = inner := if_neg htold
    rw [Bool.and_eq_true, h.informational, Decision.hasRule, Option.isSome_iff_ne_none] at htold
    rw [hresponse]
    exact ⟨rfl, rfl, fun _ _ _ _ => rfl, fun _ => rfl, fun he hr => absurd ⟨he, hr⟩ htold,
      fun he hr => absurd ⟨he, hr⟩ htold, fun he hr => absurd ⟨he, hr⟩ htold⟩

/-- **A denial says when to come back,** whatever the other names are. -/
theorem Of.retryAfter_denial (h : b.Of config) (d : Decision) :
    (b.denial d).headers.values (Text.lower config.headers.retryAfter) =
      [Nat.repr (d.retryAfterSeconds.getD 1)] := by
  rw [← h.retryAfter]
  exact Headers.values_set_self _ _ _

/-- A denial is a 429, whether or not its client is told about the limit. -/
theorem status_denial (b : Boundary) (d : Decision) : (b.denial d).status = 429 := by
  unfold denial inform
  split <;> rfl

end Boundary

/-! ## Requests that go through -/

/-- **What the gate does for a request:** it asks the limiter, or runs the handler. -/
inductive Step
  | asked (described : Admission.Request) (answer : Except Error Decision)
  | handled (request : Request) (response : Response)

/-- Whether the handler ran. -/
def Step.isHandled : Step → Bool
  | handled .. => true
  | asked .. => false

/-- **A request that went through:** its response, what it left, and what was done for it. -/
structure Run (σ : Type) where
  response : Response
  state : σ
  steps : List Step

variable {σ : Type}

/-- An action with a note of it. -/
def noted {α : Type} (note : α → Step) (act : σ → α × σ) : StateM (σ × List Step) α :=
  fun (s, steps) => ((act s).1, (act s).2, steps ++ [note (act s).1])

namespace Boundary

/-- **The gate with everything noted.** The limiter and the handler do with the state what they
like. -/
def run (b : Boundary) (check : Admission.Request → σ → Except Error Decision × σ)
    (handler : Request → σ → Response × σ) (r : Request) (s : σ) : Run σ :=
  let out := b.serve (fun q => noted (.asked q) (check q))
    (fun r => noted (.handled r) (handler r)) r (s, [])
  ⟨out.1, out.2.1, out.2.2⟩

variable (b : Boundary) (check : Admission.Request → σ → Except Error Decision × σ)
  (handler : Request → σ → Response × σ) (r : Request) (s : σ)

/-- **The four ways in which a request can go through.** -/
theorem run_cases :
    (b.isSkipped r.path = true ∧
      b.run check handler r s = ⟨(handler r s).1, (handler r s).2, [.handled r (handler r s).1]⟩) ∨
    (b.isSkipped r.path = false ∧ ∃ d between, check (b.describe r) s = (.ok d, between) ∧
      d.allowed = true ∧
      b.run check handler r s = ⟨b.inform d (handler r between).1, (handler r between).2,
        [.asked (b.describe r) (.ok d), .handled r (handler r between).1]⟩) ∨
    (b.isSkipped r.path = false ∧ ∃ d between, check (b.describe r) s = (.ok d, between) ∧
      d.allowed = false ∧
      b.run check handler r s = ⟨b.denial d, between, [.asked (b.describe r) (.ok d)]⟩) ∨
    (b.isSkipped r.path = false ∧ ∃ e between, check (b.describe r) s = (.error e, between) ∧
      b.run check handler r s = ⟨unavailable, between, [.asked (b.describe r) (.error e)]⟩) := by
  cases hskipped : b.isSkipped r.path with
  | true =>
    refine .inl ⟨rfl, ?_⟩
    rw [run, serve, if_pos hskipped]
    rfl
  | false =>
    refine .inr ?_
    rcases hanswer : check (b.describe r) s with ⟨e | d, between⟩
    · have hrun : b.run check handler r s =
          ⟨unavailable, between, [.asked (b.describe r) (.error e)]⟩ := by
        rw [run, serve, if_neg (Bool.eq_false_iff.1 hskipped)]
        simp only [bind, StateT.bind, noted, hanswer]
        rfl
      exact .inr (.inr ⟨rfl, e, between, rfl, hrun⟩)
    · have hrun : b.run check handler r s =
          let out := (if d.allowed then b.inform d <$> noted (.handled r) (handler r)
            else pure (b.denial d)) (between, [.asked (b.describe r) (.ok d)])
          ⟨out.1, out.2.1, out.2.2⟩ := by
        rw [run, serve, if_neg (Bool.eq_false_iff.1 hskipped)]
        simp only [bind, StateT.bind, noted, hanswer]
        rfl
      cases hallowed : d.allowed with
      | true =>
        rw [if_pos hallowed] at hrun
        exact .inl ⟨rfl, d, between, rfl, hallowed, hrun⟩
      | false =>
        rw [if_neg (Bool.eq_false_iff.1 hallowed)] at hrun
        exact .inr (.inl ⟨rfl, d, between, rfl, hallowed, hrun⟩)

/-- **An error does not show in the response.** -/
theorem response_of_asked_error {q : Admission.Request} {e : Error}
    (h : .asked q (.error e) ∈ (b.run check handler r s).steps) :
    (b.run check handler r s).response = unavailable := by
  rcases b.run_cases check handler r s with ⟨-, hrun⟩ | ⟨-, d, between, -, -, hrun⟩ |
    ⟨-, d, between, -, -, hrun⟩ | ⟨-, e, between, -, hrun⟩
  · simp [hrun] at h
  · simp [hrun] at h
  · simp [hrun] at h
  · rw [hrun]

end Boundary

/-! ## The law -/

/-- **What passes the gate, and what is answered.** Take settings that could be made, any limiter
and any handler, which may do with the state what they like.

The handler runs if the path is one that is never limited, or if the limiter allows the request,
and otherwise not; it never runs twice. On such a path the limiter is not asked, and the response
is the handler's. Elsewhere it is asked once, with the description of the request, before anything
else is done. If it allows the request, the response is the handler's, told about the limit. If it
denies it, the response is a 429 with the seconds after which to come back, at least one second
where the limiter gives none. If it fails, the response is a 503, and it is the same one for all
errors, requests, limiters and settings. -/
theorem gate_law {config : RateLimitingConfig} {b : Boundary}
    (hb : Boundary.ofConfig config = .ok b) {σ : Type}
    (check : Admission.Request → σ → Except Error Decision × σ)
    (handler : Request → σ → Response × σ) (r : Request) (s : σ) :
    let run := b.run check handler r s
    ((∃ inner, .handled r inner ∈ run.steps) ↔
      Skips config r.path ∨ ∃ d, .asked (b.describe r) (.ok d) ∈ run.steps ∧ d.allowed = true) ∧
    run.steps.countP Step.isHandled ≤ 1 ∧
    (Skips config r.path →
      ∃ inner, run.steps = [.handled r inner] ∧ handler r s = (inner, run.state) ∧
        run.response = inner) ∧
    (¬ Skips config r.path →
      ∃ answer between, check (b.describe r) s = (answer, between) ∧
        (∀ d, answer = .ok d → d.allowed = true →
          ∃ inner, run.steps = [.asked (b.describe r) answer, .handled r inner] ∧
            handler r between = (inner, run.state) ∧
            Boundary.Informed config.headers d inner run.response) ∧
        (∀ d, answer = .ok d → d.allowed = false →
          run.steps = [.asked (b.describe r) answer] ∧ run.state = between ∧
          run.response.status = 429 ∧
          run.response.headers.values (Text.lower config.headers.retryAfter) =
            [Nat.repr (d.retryAfterSeconds.getD 1)]) ∧
        (∀ e, answer = .error e →
          run.steps = [.asked (b.describe r) answer] ∧ run.state = between ∧
          run.response.status = 503 ∧
          ∀ (τ : Type) (b' : Boundary) (check' : Admission.Request → τ → Except Error Decision × τ)
            (handler' : Request → τ → Response × τ) (r' : Request) (t : τ) (e' : Error),
            .asked (b'.describe r') (.error e') ∈ (b'.run check' handler' r' t).steps →
              (b'.run check' handler' r' t).response = run.response)) := by
  have h := Boundary.of_ofConfig hb
  intro run
  -- in each way to go through, the parts that speak of the other ways have nothing to say
  obtain ⟨hskips, hrun⟩ | ⟨hskips, d, between, hanswer, hallowed, hrun⟩ |
    ⟨hskips, d, between, hanswer, hallowed, hrun⟩ | ⟨hskips, e, between, hanswer, hrun⟩ :=
      b.run_cases check handler r s
  · have hskips : Skips config r.path := (h.isSkipped_iff r.path).1 hskips
    rw [show run = _ from hrun]
    refine ⟨by simp [hskips], by simp [Step.isHandled], ?_, fun hnot => absurd hskips hnot⟩
    exact fun _ => ⟨_, rfl, rfl, rfl⟩
  · have hskips : ¬ Skips config r.path := by simp [← h.isSkipped_iff, hskips]
    rw [show run = _ from hrun]
    refine ⟨by simp [hskips, hallowed], by simp [Step.isHandled],
      fun hyes => absurd hyes hskips, fun _ => ⟨.ok d, between, hanswer, ?_, ?_, nofun⟩⟩
    · rintro _ ⟨⟩ _
      exact ⟨_, rfl, rfl, h.informed d _⟩
    · rintro _ ⟨⟩ hdenied
      rw [hallowed] at hdenied
      cases hdenied
  · have hskips : ¬ Skips config r.path := by simp [← h.isSkipped_iff, hskips]
    rw [show run = _ from hrun]
    refine ⟨by simp [hskips, hallowed], by simp [Step.isHandled],
      fun hyes => absurd hyes hskips, fun _ => ⟨.ok d, between, hanswer, ?_, ?_, nofun⟩⟩
    · rintro _ ⟨⟩ hyes
      rw [hallowed] at hyes
      cases hyes
    · rintro _ ⟨⟩ _
      exact ⟨rfl, rfl, b.status_denial d, h.retryAfter_denial d⟩
  · have hskips : ¬ Skips config r.path := by simp [← h.isSkipped_iff, hskips]
    rw [show run = _ from hrun]
    refine ⟨by simp [hskips], by simp [Step.isHandled], fun hyes => absurd hyes hskips,
      fun _ => ⟨.error e, between, hanswer, nofun, nofun, ?_⟩⟩
    rintro _ ⟨⟩
    exact ⟨rfl, rfl, rfl, fun _ b' check' handler' r' t _ =>
      b'.response_of_asked_error check' handler' r' t⟩

/-! ## Two names that are one -/

namespace GateSample

/-- The same header tells when the window ends and when to come back. -/
def clashing : RateLimitingConfig :=
  { RateLimitingConfig.standard with
    headers := { HeadersConfig.standard with retryAfter := "x-ratelimit-RESET" } }

def boundary : Boundary where
  skipPaths := ["/health", "/metrics"]
  apiKeyHeader := ⟨"x-api-key"⟩
  tenantHeader := none
  informational := true
  limit := ⟨"x-ratelimit-limit"⟩
  remaining := ⟨"x-ratelimit-remaining"⟩
  reset := ⟨"x-ratelimit-reset"⟩
  retryAfter := ⟨"x-ratelimit-reset"⟩

def request (path : String) : Request := ⟨"GET", path, .empty, none, none⟩

/-- A limiter that denies, and counts how often it was asked. -/
def deny (_ : Admission.Request) (asked : Nat) : Except Error Decision × Nat :=
  (.ok { Decision.pass [] 1700000042 with
    allowed := false, appliedRule := some "a", limit := 5, currentCount := 6,
    retryAfterSeconds := some 42 }, asked + 1)

def handler (_ : Request) (asked : Nat) : Response × Nat := (⟨200, .empty, "ok"⟩, asked)

end GateSample

open GateSample in
/-- A denied request is told when to come back, not when the window ends; a request for a path
below a skip path gets to the handler without a question. -/
theorem gate_with_clash :
    Boundary.ofConfig clashing = .ok boundary ∧
    (boundary.run deny handler (request "/api") 0).state = 1 ∧
    (boundary.run deny handler (request "/api") 0).response.headers.values "x-ratelimit-reset" =
      ["42"] ∧
    (boundary.run deny handler (request "/health/live") 0).response.status = 200 ∧
    (boundary.run deny handler (request "/health/live") 0).state = 0 := by
  have hb : Boundary.ofConfig clashing = .ok boundary := by decide
  have hskips := (Boundary.of_ofConfig hb).isSkipped_iff
  obtain ⟨-, -, -, hasked⟩ := gate_law hb deny handler (request "/api") 0
  obtain ⟨-, -, hskipped, -⟩ := gate_law hb deny handler (request "/health/live") 0
  obtain ⟨answer, between, hanswer, -, hdenied, -⟩ := hasked (by rw [← hskips]; decide)
  obtain ⟨inner, -, hinner, hresponse⟩ := hskipped ((hskips _).1 (by decide))
  cases hanswer
  obtain ⟨-, hstate, -, hretry⟩ := hdenied _ rfl rfl
  have hok : inner.status = 200 := (congrArg (fun out => out.1.status) hinner).symm
  exact ⟨hb, hstate, hretry, hresponse ▸ hok, (congrArg Prod.snd hinner).symm⟩

end Admission.Http
