/-
What is written out is read back.

`Json.Says` is what is proved of every value: the JSON written for it has a text, and is read as
the value. A record is read back once its fields are, since writing shows every field under its
own name. A rule in force is not changed by being expanded again, so a rule set that was written
out, read back and made again is the same set (`written_out_read_back`).
-/
import Admission.Proofs.Acceptance
import Admission.Proofs.Fitting
import Admission.Proofs.JsonText

set_option autoImplicit false

namespace Admission

/-! ## Patterns -/

/-- Which pattern a text is depends on the text without its blank ends. -/
theorem Pattern.parse_of_trim_eq {a b : String} (hab : Text.trim a = Text.trim b) {p : Pattern}
    (h : parse a = .ok p) : parse b = .ok p := by
  unfold parse at h ⊢
  dsimp only at h ⊢
  rw [hab] at h
  by_cases hstar : Text.trim b = "*"
  · rwa [if_pos hstar] at h ⊢
  · rw [if_neg hstar] at h ⊢
    by_cases hslash : (Text.trim b).toList.head? ≠ some '/'
    · rw [if_pos hslash] at h
      cases h
    · rw [if_neg hslash] at h ⊢
      cases hsegments : (pathSegments (Text.trim b)).mapM segment? with
      | some segments =>
        rw [hsegments] at h
        exact h
      | none =>
        rw [hsegments] at h
        cases h

/-- A pattern keeps the text that it was given, without its blank ends. -/
theorem Pattern.text_of_parse {given : String} {p : Pattern} (h : parse given = .ok p) :
    p.text = Text.trim given := by
  unfold parse at h
  dsimp only at h
  split_ifs at h
  · cases h
    rfl
  · split at h <;> cases h
    rfl

/-- **A pattern is found again in its text.** -/
theorem Pattern.parse_text {given : String} {p : Pattern} (h : parse given = .ok p) :
    parse p.text = .ok p := by
  apply parse_of_trim_eq _ h
  rw [text_of_parse h, Text.trim_trim]

/-! ## What JSON says -/

namespace Json

/-- **What is shown of a value that is written as JSON:** it has a text, and it is read as the
value. -/
structure Says {α : Type} (read : Json → Option α) (v : Json) (a : α) : Prop where
  whole : v.Whole
  read : read v = some a

variable {α : Type} {read : Json → Option α} {v : Json} {a : α} {encode : α → Json}

/-- What is written is read back from its text. -/
theorem Says.parse (h : Says read v a) (ascii : Bool) :
    (parse? (v.text ascii)).bind read = some a := by
  rw [parse?_text h.whole, Option.bind_some, h.read]

theorem says_text (s : String) : Says reading.text (string s) s := ⟨.string s, rfl⟩

theorem says_flag (b : Bool) : Says reading.flag (bool b) b := ⟨.bool b, rfl⟩

/-- A count that is a word is read as it is written; a larger one would be refused. -/
theorem says_count {n : Nat} (h : n ≤ Word.max) : Says reading.count (nat n) n :=
  ⟨.int _, count?_nat h⟩

/-- So is a number of 32 bits. -/
theorem says_int32 {n : Int} (h : Reading.fitsInt32 n = true) : Says reading.int32 (int n) n :=
  ⟨.int _, int32?_int h⟩

/-- A value that goes by a name is read from the name. -/
theorem says_named {names : List (String × α)} {name : String} (h : names.lookup name = some a) :
    Says (reading.named names) (string name) a := by
  have hmem : name ∈ names.map Prod.fst := by
    obtain ⟨before, after, rfl, -⟩ := List.lookup_eq_some_iff.1 h
    simp
  refine ⟨.string name, ?_⟩
  have hvariant : reading.variant (names.map Prod.fst) (string name) = some name := if_pos hmem
  rw [Reading.named, hvariant, Option.bind_eq_bind, Option.bind_some, h]
  rfl

/-- A value that may be absent is read back, as long as none of its kind is written as null. -/
theorem says_optional (encode : α → Json) {a : Option α} (hencode : ∀ b, encode b ≠ null)
    (h : ∀ b ∈ a, Says read (encode b) b) : Says (reading.optional read) (optional encode a) a := by
  cases a with
  | none => exact ⟨.null, rfl⟩
  | some b =>
    have hb := h b rfl
    have hpresence : reading.presence (encode b) = some (some (encode b)) := by
      cases hvalue : encode b with
      | null => exact absurd hvalue (hencode b)
      | _ => rfl
    refine ⟨hb.whole, ?_⟩
    rw [optional, Reading.optional, hpresence, Option.bind_eq_bind, Option.bind_some]
    show some <$> read (encode b) = _
    rw [hb.read]
    rfl

/-- A list is read back if each of its items is. -/
theorem says_list {items : List α} (h : ∀ a ∈ items, Says read (encode a) a) :
    Says (reading.list read) (list encode items) items := by
  constructor
  · apply Whole.array
    intro v hv
    obtain ⟨a, ha, rfl⟩ := List.mem_map.1 hv
    exact (h a ha).whole
  · show (items.map encode).mapM read = some items
    induction items with
    | nil => rfl
    | cons a items ih =>
      rw [List.forall_mem_cons] at h
      rw [List.map_cons, List.mapM_cons, h.1.read, ih h.2]
      rfl

/-! ## Records -/

/-- What is read next is read from what was read first. -/
theorem read_bind {β : Type} {x : Option α} {f : α → Option β} {b : β} (hx : x = some a)
    (hf : f a = some b) : (x >>= f) = some b := by
  rw [hx, Option.bind_eq_bind, Option.bind_some, hf]

variable {fields : List (String × Json)} {name : String}

/-- Among fields with different names, a field is found under its name. -/
theorem lookup_of_mem (hnames : (fields.map Prod.fst).Nodup) (h : (name, v) ∈ fields) :
    fields.lookup name = some v := by
  obtain ⟨before, after, rfl⟩ := List.append_of_mem h
  refine List.lookup_eq_some_iff.2 ⟨before, after, rfl, ?_⟩
  rw [List.map_append, List.map_cons] at hnames
  intro field hfield
  have hne := (List.nodup_append.1 hnames).2.2 field.1 (List.mem_map_of_mem hfield) name
    List.mem_cons_self
  simpa using hne.symm

/-- **An object with each field once is the record of its fields.** -/
theorem record?_object {names : List String} (hnodup : names.Nodup)
    (hnames : fields.map Prod.fst = names) : record? names (object fields) = some fields := by
  subst hnames
  have hreverse : (fields.reverse.map Prod.fst).Nodup := by
    rwa [List.map_reverse, List.nodup_reverse]
  have hfield : ∀ field ∈ fields, (field? field.1 fields).map (field.1, ·) = some field := by
    intro field hfield
    rw [field?, lookup_of_mem hreverse (List.mem_reverse.2 hfield), Option.map_some]
  rw [record?, List.filterMap_map, Option.some.injEq]
  exact (List.filterMap_congr hfield).trans List.filterMap_some

/-- A field that has to be written is read from what is written under its name. -/
theorem Says.required (h : Says read v a) (hname : fields.lookup name = some v) :
    Reading.required fields name read = some a := by
  rw [Reading.required, hname]
  exact h.read

/-- A field that has a default is read from what is written under its name. -/
theorem Says.orElse (h : Says read v a) (default : α) (hname : fields.lookup name = some v) :
    Reading.orElse fields name default read = some a := by
  rw [Reading.orElse_of_lookup default read hname, h.read]

end Json

/-! ## Rules -/

open Json

/-- A pattern is written as its text, so only one that was parsed is read back. -/
theorem Pattern.says_json {p : Pattern} (h : ∃ given, parse given = .ok p) :
    Says (Pattern.read reading) (.string p.text) p := by
  obtain ⟨given, hgiven⟩ := h
  refine ⟨.string _, read_bind (says_text p.text).read ?_⟩
  rw [parse_text hgiven]
  rfl

/-- **A rule that fits is read back.** -/
theorem Rule.Fits.says_json {r : Rule} (h : r.Fits) : Says (Rule.read reading) r.json r := by
  have hid := says_text r.id
  have hendpoints := says_list fun p hp => Pattern.says_json (h.endpoints p hp)
  have hmethods := says_list fun method (_ : method ∈ r.methods) => says_text method
  have hdimension := says_named r.dimension.lookup_name
  have hlimit := says_count h.limit
  have hwindow := says_count h.window
  have halgorithm := says_named r.algorithm.lookup_name
  have hpriority := says_int32 h.priority
  have henabled := says_flag r.enabled
  have hcaller := says_optional nat nofun fun n hn => says_count (h.perCaller n hn)
  have haddress := says_optional nat nofun fun n hn => says_count (h.perAddress n hn)
  have hmessage := says_optional string nofun fun s (_ : s ∈ r.message) => says_text s
  -- a record has a text as each of its fields has one, and is read field by field
  constructor
  · apply Whole.object
    simp only [List.forall_mem_cons]
    exact ⟨hid.whole, hendpoints.whole, hmethods.whole, hdimension.whole, hlimit.whole,
      hwindow.whole, halgorithm.whole, hpriority.whole, henabled.whole, hcaller.whole,
      haddress.whole, hmessage.whole, nofun⟩
  · have hnames : Rule.fieldNames.Nodup := by decide
    apply read_bind (record?_object hnames rfl)
    apply read_bind (hid.required rfl)
    apply read_bind (hendpoints.orElse _ rfl)
    apply read_bind (hmethods.orElse _ rfl)
    apply read_bind (hdimension.required rfl)
    apply read_bind (hlimit.required rfl)
    apply read_bind (hwindow.required rfl)
    apply read_bind (halgorithm.orElse _ rfl)
    apply read_bind (hpriority.orElse _ rfl)
    apply read_bind (henabled.orElse _ rfl)
    apply read_bind (hcaller.orElse _ rfl)
    apply read_bind (haddress.orElse _ rfl)
    apply read_bind (hmessage.orElse _ rfl)
    rfl

/-- Rules that fit are read back, in their order. -/
theorem says_rules {rules : List Rule} (h : ∀ r ∈ rules, r.Fits) :
    Says (reading.list (Rule.read reading)) (list Rule.json rules) rules :=
  says_list fun r hr => (h r hr).says_json

/-! ## Configurations -/

theorem DefaultLimit.Fits.says_json {d : DefaultLimit} (h : d.Fits) :
    Says (DefaultLimit.read reading) d.json d := by
  have hlimit := says_count h.limit
  have hwindow := says_count h.window
  have halgorithm := says_named d.algorithm.lookup_name
  have hnames : ["limit", "window_seconds", "algorithm"].Nodup := by decide
  constructor
  · apply Whole.object
    simp only [List.forall_mem_cons]
    exact ⟨hlimit.whole, hwindow.whole, halgorithm.whole, nofun⟩
  · apply read_bind (record?_object hnames rfl)
    apply read_bind (hlimit.required rfl)
    apply read_bind (hwindow.required rfl)
    apply read_bind (halgorithm.orElse _ rfl)
    rfl

/-- Default limits that fit are read back, those that are absent included. -/
theorem DefaultLimits.Fits.says_json {d : DefaultLimits} (h : d.Fits) :
    Says (DefaultLimits.read reading) d.json d := by
  have haddress := says_optional DefaultLimit.json nofun fun l hl =>
    (h.perAddress l hl).says_json
  have hcaller := says_optional DefaultLimit.json nofun fun l hl =>
    (h.perCaller l hl).says_json
  have htenant := says_optional DefaultLimit.json nofun fun l hl =>
    (h.perTenant l hl).says_json
  have hnames : ["per_address", "per_caller", "per_tenant"].Nodup := by decide
  constructor
  · apply Whole.object
    simp only [List.forall_mem_cons]
    exact ⟨haddress.whole, hcaller.whole, htenant.whole, nofun⟩
  · apply read_bind (record?_object hnames rfl)
    apply read_bind (haddress.orElse _ rfl)
    apply read_bind (hcaller.orElse _ rfl)
    apply read_bind (htenant.orElse _ rfl)
    rfl

theorem says_texts (texts : List String) :
    Says (reading.list reading.text) (list string texts) texts :=
  says_list fun s _ => says_text s

theorem WhitelistConfig.says_json (w : WhitelistConfig) :
    Says (WhitelistConfig.read reading) w.json w := by
  have hcallers := says_texts w.callers
  have haddresses := says_texts w.addresses
  have htenants := says_texts w.tenants
  have hdynamic := says_flag w.dynamic
  have hnames : ["callers", "addresses", "tenants", "dynamic"].Nodup := by decide
  constructor
  · apply Whole.object
    simp only [List.forall_mem_cons]
    exact ⟨hcallers.whole, haddresses.whole, htenants.whole, hdynamic.whole, nofun⟩
  · apply read_bind (record?_object hnames rfl)
    apply read_bind (hcallers.orElse _ rfl)
    apply read_bind (haddresses.orElse _ rfl)
    apply read_bind (htenants.orElse _ rfl)
    apply read_bind (hdynamic.orElse _ rfl)
    rfl

theorem HeadersConfig.says_json (h : HeadersConfig) :
    Says (HeadersConfig.read reading) h.json h := by
  have henabled := says_flag h.enabled
  have hlimit := says_text h.limit
  have hremaining := says_text h.remaining
  have hreset := says_text h.reset
  have hretry := says_text h.retryAfter
  have hnames : ["enabled", "limit", "remaining", "reset", "retry_after"].Nodup := by decide
  constructor
  · apply Whole.object
    simp only [List.forall_mem_cons]
    exact ⟨henabled.whole, hlimit.whole, hremaining.whole, hreset.whole, hretry.whole, nofun⟩
  · apply read_bind (record?_object hnames rfl)
    apply read_bind (henabled.orElse _ rfl)
    apply read_bind (hlimit.orElse _ rfl)
    apply read_bind (hremaining.orElse _ rfl)
    apply read_bind (hreset.orElse _ rfl)
    apply read_bind (hretry.orElse _ rfl)
    rfl

theorem StoreConfig.says_json (s : StoreConfig) : Says (StoreConfig.read reading) s.json s := by
  have hbackend := says_named s.backend.lookup_name
  have hurl := says_text s.redisUrl
  have hnames : ["backend", "redis_url"].Nodup := by decide
  constructor
  · apply Whole.object
    simp only [List.forall_mem_cons]
    exact ⟨hbackend.whole, hurl.whole, nofun⟩
  · apply read_bind (record?_object hnames rfl)
    apply read_bind (hbackend.orElse _ rfl)
    apply read_bind (hurl.orElse _ rfl)
    rfl

/-- **A section on rate limiting that fits is read back.** -/
theorem RateLimitingConfig.Fits.says_json {c : RateLimitingConfig} (h : c.Fits) :
    Says (RateLimitingConfig.read reading) c.json c := by
  have henabled := says_flag c.enabled
  have hopen := says_flag c.failOpen
  have htimeout := says_count h.storeTimeout
  have hspace := says_text c.keySpace
  have hpath := says_optional string nofun fun s (_ : s ∈ c.rulesPath) => says_text s
  have hrules := says_rules h.rules
  have hdefaults := h.defaults.says_json
  have hwhitelist := c.whitelist.says_json
  have hheaders := c.headers.says_json
  have hskip := says_texts c.skipPaths
  have hkey := says_text c.apiKeyHeader
  have htenant := says_optional string nofun fun s (_ : s ∈ c.tenantHeader) => says_text s
  have hstore := c.store.says_json
  have hnames : RateLimitingConfig.fieldNames.Nodup := by decide
  constructor
  · apply Whole.object
    simp only [List.forall_mem_cons]
    exact ⟨henabled.whole, hopen.whole, htimeout.whole, hspace.whole, hpath.whole, hrules.whole,
      hdefaults.whole, hwhitelist.whole, hheaders.whole, hskip.whole, hkey.whole, htenant.whole,
      hstore.whole, nofun⟩
  · apply read_bind (record?_object hnames rfl)
    apply read_bind (henabled.orElse _ rfl)
    apply read_bind (hopen.orElse _ rfl)
    apply read_bind (htimeout.orElse _ rfl)
    apply read_bind (hspace.orElse _ rfl)
    apply read_bind (hpath.orElse _ rfl)
    apply read_bind (hrules.orElse _ rfl)
    apply read_bind (hdefaults.orElse _ rfl)
    apply read_bind (hwhitelist.orElse _ rfl)
    apply read_bind (hheaders.orElse _ rfl)
    apply read_bind (hskip.orElse _ rfl)
    apply read_bind (hkey.orElse _ rfl)
    apply read_bind (htenant.orElse _ rfl)
    apply read_bind (hstore.orElse _ rfl)
    rfl

/-! ## Rules in force -/

/-- A text without small letters is its own capital form. -/
theorem Text.upper_of_not_isLower {s : String} (h : ∀ c ∈ s.toList, c.isLower = false) :
    Text.upper s = s := by
  have hmap : s.toList.map Char.toUpper = s.toList := by
    conv_rhs => rw [← List.map_id s.toList]
    exact List.map_congr_left fun c hc => Char.toUpper_eq_of_not_isLower (by simp [h c hc])
  rw [Text.upper, hmap, String.ofList_toList]

namespace Rule

variable {r e : Rule}

/-- **A rule as it is in force expands to itself.** -/
theorem Settled.expand_eq (h : e.Settled) : e.expand = [e] := by
  have hmethods : e.methods.map Text.upper = e.methods := by
    conv_rhs => rw [← List.map_id e.methods]
    exact List.map_congr_left fun method hmethod =>
      Text.upper_of_not_isLower (h.methods method hmethod)
  obtain ⟨id, endpoints, methods, dimension, limit, windowSeconds, algorithm, priority, enabled,
    perCaller, perAddress, message⟩ := e
  obtain ⟨rfl, rfl, -⟩ := h
  simp only [expand, hmethods, Option.map_none, Option.toList_none, List.append_nil]

/-- What a rule is expanded to is valid if the rule is. -/
theorem Valid.of_mem_expand (h : r.Valid) (he : e ∈ r.expand) : e.Valid := by
  have hnamed : ∀ tail : String, ∃ c ∈ (r.id ++ tail).toList, Text.isBlank c = false := by
    intro tail
    obtain ⟨c, hc, hblank⟩ := h.named
    exact ⟨c, by rw [String.toList_append]; exact List.mem_append_left _ hc, hblank⟩
  unfold expand at he
  simp only [List.mem_append, List.mem_singleton, Option.mem_toList, Option.map_eq_some_iff] at he
  have hnone (d : Dimension) (n : Nat) (hn : none = some n) : 1 ≤ n ∧ e.dimension ≠ d :=
    absurd hn (Option.some_ne_none n).symm
  rcases he with (rfl | ⟨limit, hlimit, rfl⟩) | ⟨limit, hlimit, rfl⟩
  · exact ⟨h.named, h.limit, h.window, hnone .caller, hnone .address, h.message⟩
  · refine ⟨?_, (h.perCaller limit hlimit).1, h.window, hnone .caller, hnone .address, h.message⟩
    rw [derived, String.append_assoc]
    exact hnamed _
  · refine ⟨?_, (h.perAddress limit hlimit).1, h.window, hnone .caller, hnone .address, h.message⟩
    rw [derived, String.append_assoc]
    exact hnamed _

/-- What a rule is expanded to fits if the rule does. -/
theorem Fits.of_mem_expand (h : r.Fits) (he : e ∈ r.expand) : e.Fits := by
  unfold expand at he
  simp only [List.mem_append, List.mem_singleton, Option.mem_toList, Option.map_eq_some_iff] at he
  rcases he with (rfl | ⟨limit, hlimit, rfl⟩) | ⟨limit, hlimit, rfl⟩
  · exact ⟨h.endpoints, h.limit, h.window, h.priority, nofun, nofun⟩
  · exact ⟨h.endpoints, h.perCaller limit hlimit, h.window, h.priority, nofun, nofun⟩
  · exact ⟨h.endpoints, h.perAddress limit hlimit, h.window, h.priority, nofun, nofun⟩

end Rule

/-- Default limits that fit make rules that do. -/
theorem DefaultLimits.Fits.rules {d : DefaultLimits} (h : d.Fits) : ∀ r ∈ d.rules, r.Fits := by
  have hrule : ∀ {l : DefaultLimit} (dimension : Dimension) {priority : Int}, l.Fits →
      Reading.fitsInt32 priority = true → (DefaultLimits.rule dimension priority l).Fits :=
    fun _ _ hl hp => ⟨nofun, hl.limit, hl.window, hp, nofun, nofun⟩
  intro r hr
  unfold DefaultLimits.rules at hr
  simp only [List.mem_append, Option.mem_toList, Option.map_eq_some_iff] at hr
  rcases hr with (⟨l, hl, rfl⟩ | ⟨l, hl, rfl⟩) | ⟨l, hl, rfl⟩
  · exact hrule .tenant (h.perTenant l hl) (by decide)
  · exact hrule .caller (h.perCaller l hl) (by decide)
  · exact hrule .address (h.perAddress l hl) (by decide)

namespace RuleSet

variable {rules : List Rule} {defaults : DefaultLimits} {set : RuleSet}

/-- The rules in force fit if the rules and the default limits they are made of do. -/
theorem fits_of_build (hrules : ∀ r ∈ rules, r.Fits) (hdefaults : defaults.Fits)
    (h : build rules defaults = .ok set) : ∀ e ∈ set.rules, e.Fits := by
  obtain ⟨-, -, rfl⟩ := build_eq_ok_iff.1 h
  intro e he
  obtain ⟨r, hr, he⟩ := List.mem_flatMap.1 he
  rcases List.mem_append.1 hr with hr | hr
  · exact (hrules r hr).of_mem_expand he
  · exact (hdefaults.rules r hr).of_mem_expand he

/-- **The rules in force make the same set again.** -/
theorem build_rules (h : build rules defaults = .ok set) :
    build set.rules .empty = .ok set := by
  obtain ⟨hvalid, hids, rfl⟩ := build_eq_ok_iff.1 h
  have hexpand : ((rules ++ defaults.rules).flatMap Rule.expand).flatMap Rule.expand =
      (rules ++ defaults.rules).flatMap Rule.expand := by
    rw [List.flatMap_assoc]
    apply List.flatMap_congr
    intro r _
    have hsettled : ∀ e ∈ r.expand, e.expand = [e] := fun e he =>
      (Rule.settled_of_mem_expand he).expand_eq
    rw [List.flatMap_congr hsettled, List.flatMap_singleton']
  have hempty : DefaultLimits.empty.rules = [] := rfl
  apply build_eq_ok_iff.2
  rw [hempty, List.append_nil, hexpand]
  refine ⟨?_, hids, rfl⟩
  intro e he
  obtain ⟨r, hr, he⟩ := List.mem_flatMap.1 he
  exact Rule.error?_eq_none_iff.2 ((Rule.error?_eq_none_iff.1 (hvalid r hr)).of_mem_expand he)

end RuleSet

/-! ## The law -/

/-- **What is written out is read back.** A rule that reading can produce, or one builder after
another, is the rule that its JSON is read as; and so is a section on rate limiting that reading
can produce. This holds of the text, whether it has to be ASCII or not.

The rules in force, the derived ones and the default limits among them, are read back as they
are, in their order; and these make the same rule set again, without default limits. -/
theorem written_out_read_back :
    (∀ r : Rule, r.Obtained → ∀ ascii,
      (Json.parse? (r.json.text ascii)).bind (Rule.read Json.reading) = some r) ∧
    (∀ c : RateLimitingConfig, ReadFrom RateLimitingConfig.read c → ∀ ascii,
      (Json.parse? (c.json.text ascii)).bind (RateLimitingConfig.read Json.reading) = some c) ∧
    ∀ rules defaults set, (∀ r ∈ rules, r.Fits) → defaults.Fits →
      RuleSet.build rules defaults = .ok set → ∀ ascii,
      ∃ again : List Rule,
        (Json.parse? ((Json.list Rule.json set.rules).text ascii)).bind
          (Json.reading.list (Rule.read Json.reading)) = some again ∧
        again = set.rules ∧ RuleSet.build again .empty = .ok set := by
  refine ⟨fun r hr => hr.fits.says_json.parse,
    fun c hc => (RateLimitingConfig.fits_of_readFrom hc).says_json.parse, ?_⟩
  intro rules defaults set hrules hdefaults hbuild ascii
  have hfits := RuleSet.fits_of_build hrules hdefaults hbuild
  exact ⟨set.rules, (says_rules hfits).parse ascii, rfl, RuleSet.build_rules hbuild⟩

/-! ## A rule, a section and a set -/

namespace ExportSample

/-- A rule as it is begun. -/
def base : Rule := Rule.basic "t\u00fcr \"1\"" .address Word.max 60

/-- The same for one pattern and one method. -/
def tower : Rule :=
  { base with
    endpoints := [⟨"/api/*", some [.literal "api", .wildcard]⟩]
    methods := ["GET"]
    priority := -5 }

theorem obtained_tower : tower.Obtained := by
  have hbase : base.Obtained := .basic _ _ (le_refl Word.max) (by decide)
  have hurgent : Reading.fitsInt32 (-5) = true := rfl
  -- the pattern is given with blank ends, the method in small letters
  have hpattern : (Rule.withMethod { base with priority := -5 } "get").withEndpoint " /api/* " =
      .ok tower := by decide
  exact ((hbase.withPriority hurgent).withMethod "get").withEndpoint hpattern

/-- A section in which the address goes by its other name. -/
def written : Json :=
  .object [("rules", .array [.object [("id", .string "a"), ("dimension", .string "ip"),
    ("limit", .int 3), ("window_seconds", .int 60), ("limit_per_caller", .int 2)]])]

def shared : RateLimitingConfig :=
  { RateLimitingConfig.standard with
    rules := [{ Rule.basic "a" .address 3 60 with limitPerCaller := some 2 }] }

def perCaller : DefaultLimits := ⟨none, some ⟨100, 60, .slidingWindow⟩, none⟩

end ExportSample

open ExportSample in
/-- A rule that was built, a section that was read, and a set with a derived rule and a default
limit in it. -/
theorem tower_read_back :
    (Json.parse? (tower.json.text true)).bind (Rule.read Json.reading) = some tower ∧
    (Json.parse? (shared.json.text false)).bind (RateLimitingConfig.read Json.reading) =
      some shared ∧
    ∃ set, RuleSet.build shared.rules perCaller = .ok set ∧
      set.rules.map Rule.id = ["a", "a:caller", "default:caller"] ∧
      RuleSet.build set.rules .empty = .ok set := by
  obtain ⟨hrule, hsection, hset⟩ := written_out_read_back
  have hread : ReadFrom RateLimitingConfig.read shared := .json written rfl
  refine ⟨hrule tower obtained_tower true, hsection shared hread false, _, rfl, rfl, ?_⟩
  have hlimit : DefaultLimit.Fits ⟨100, 60, .slidingWindow⟩ := ⟨by decide, by decide⟩
  have hdefaults : perCaller.Fits := ⟨nofun, fun l hl => Option.mem_some.1 hl ▸ hlimit, nofun⟩
  obtain ⟨again, -, rfl, hagain⟩ := hset shared.rules perCaller _
    (RateLimitingConfig.fits_of_readFrom hread).rules hdefaults rfl true
  exact hagain

end Admission
