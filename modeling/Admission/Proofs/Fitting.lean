/-
What is read, and what a rule is built of, fits the types that it is held in.

A count is a word and a priority has 32 bits, in whatever notation they are written; and a
pattern is one that was parsed. Both are said of any notation whose own numbers fit
(`Reading.Bounded`), so that reading is followed once and not once for each notation.
-/
import Admission.Config.Document
import Admission.Reading.Json
import Admission.Reading.Setting
import Admission.Reading.Yaml
import Mathlib

set_option autoImplicit false

namespace Admission

open MonadAttach LawfulMonadAttach

/-! ## Values that fit -/

/-- **A rule whose parts fit:** its counts are words, its priority has 32 bits, and each of its
patterns was parsed from some text. -/
structure Rule.Fits (r : Rule) : Prop where
  endpoints : ∀ p ∈ r.endpoints, ∃ given, Pattern.parse given = .ok p
  limit : r.limit ≤ Word.max
  window : r.windowSeconds ≤ Word.max
  priority : Reading.fitsInt32 r.priority = true
  perCaller : ∀ n ∈ r.limitPerCaller, n ≤ Word.max
  perAddress : ∀ n ∈ r.limitPerAddress, n ≤ Word.max

/-- A default limit whose counts are words. -/
structure DefaultLimit.Fits (d : DefaultLimit) : Prop where
  limit : d.limit ≤ Word.max
  window : d.windowSeconds ≤ Word.max

/-- Default limits whose counts are words. -/
structure DefaultLimits.Fits (d : DefaultLimits) : Prop where
  perAddress : ∀ l ∈ d.perAddress, l.Fits
  perCaller : ∀ l ∈ d.perCaller, l.Fits
  perTenant : ∀ l ∈ d.perTenant, l.Fits

theorem DefaultLimits.fits_empty : DefaultLimits.empty.Fits := by
  constructor <;> simp [DefaultLimits.empty]

/-- A section on rate limiting whose counts are words, and whose rules fit. -/
structure RateLimitingConfig.Fits (c : RateLimitingConfig) : Prop where
  storeTimeout : c.storeTimeout ≤ Word.max
  rules : ∀ r ∈ c.rules, r.Fits
  defaults : c.defaults.Fits

/-! ## Notations -/

section Notations

variable {m : Type → Type} [Monad m] [LawfulMonad m] [MonadExcept Unit m] [MonadAttach m]
  [LawfulMonadAttach m] {ν α : Type}

namespace Reading

/-- What holds of all that can be read. -/
def Always (read : ν → m α) (P : α → Prop) : Prop := ∀ v a, CanReturn (read v) a → P a

/-- **A notation whose numbers fit,** and in which nothing is read where it refuses. -/
structure Bounded (r : Reading m ν) : Prop where
  refuses : ∀ {α : Type} (a : α), ¬ CanReturn (throw () : m α) a
  count : Always r.count fun n => n ≤ Word.max
  int32 : Always r.int32 fun n => fitsInt32 n = true

variable {r : Reading m ν} {read : ν → m α} {v : ν} {a : α} {fields : List (String × ν)}
  {name : String} {P : α → Prop}

/-- Only a value that is there is accepted. -/
theorem Bounded.accept (hr : r.Bounded) {x : Option α} (h : CanReturn (accept x : m α) a) :
    x = some a := by
  cases x with
  | none => exact absurd h (hr.refuses a)
  | some b => rw [eq_of_canReturn_pure h]

omit [Monad m] [LawfulMonad m] [LawfulMonadAttach m] in
/-- A field that must be there is read as what its reader can return, and never made up. -/
theorem Bounded.required (hr : r.Bounded) (hread : Always read P)
    (h : CanReturn (required fields name read) a) : P a := by
  unfold Reading.required at h
  split at h
  · exact hread _ _ h
  · exact absurd h (hr.refuses a)

omit [Monad m] [LawfulMonad m] [LawfulMonadAttach m] in
theorem Bounded.requiredCount (hr : r.Bounded) {n : Nat}
    (h : CanReturn (Reading.required fields name r.count) n) : n ≤ Word.max :=
  hr.required (P := fun n => n ≤ Word.max) hr.count h

omit [MonadExcept Unit m] in
/-- A field that may be left out is read, or has its default; what holds of both holds. -/
theorem orElse_always {default : α} (hdefault : P default) (hread : Always read P)
    (h : CanReturn (orElse fields name default read) a) : P a := by
  unfold orElse at h
  split at h
  · exact hread _ _ h
  · rwa [← eq_of_canReturn_pure h]

omit [MonadExcept Unit m] in
/-- What holds of all that can be read holds of a value that may also be absent. -/
theorem optional_always (r : Reading m ν) (hread : Always read P) :
    Always (r.optional read) fun a => ∀ b ∈ a, P b := by
  intro v a h b hb
  obtain ⟨presence, -, h⟩ := canReturn_bind_imp' h
  cases presence with
  | none =>
    rw [← eq_of_canReturn_pure h] at hb
    cases hb
  | some v =>
    obtain ⟨c, hc, rfl⟩ := canReturn_map_imp' h
    cases hb
    exact hread _ _ hc

omit [MonadExcept Unit m] in
/-- What holds of all that can be read holds of each of several that are read in turn. -/
theorem mapM_always (hread : Always read P) {items : List ν} {as : List α}
    (h : CanReturn (items.mapM read) as) : ∀ a ∈ as, P a := by
  induction items generalizing as with
  | nil =>
    rw [List.mapM_nil] at h
    rw [← eq_of_canReturn_pure h]
    exact fun a ha => absurd ha List.not_mem_nil
  | cons v items ih =>
    rw [List.mapM_cons] at h
    obtain ⟨a, ha, h⟩ := canReturn_bind_imp' h
    obtain ⟨rest, hrest, h⟩ := canReturn_bind_imp' h
    rw [← eq_of_canReturn_pure h, List.forall_mem_cons]
    exact ⟨hread _ _ ha, ih hrest⟩

omit [MonadExcept Unit m] in
theorem list_always (r : Reading m ν) (hread : Always read P) :
    Always (r.list read) fun as => ∀ a ∈ as, P a := by
  intro v as h
  obtain ⟨items, -, h⟩ := canReturn_bind_imp' h
  exact mapM_always hread h

end Reading

open Reading

variable {r : Reading m ν}

/-- **A pattern that is read was parsed,** from the text that was given. -/
theorem Pattern.read_always (hr : r.Bounded) :
    Always (Pattern.read r) fun p => ∃ given, Pattern.parse given = .ok p := by
  intro v p h
  obtain ⟨given, -, h⟩ := canReturn_bind_imp' h
  have hparse := hr.accept h
  refine ⟨given, ?_⟩
  cases hgiven : Pattern.parse given with
  | ok q =>
    rw [hgiven] at hparse
    cases hparse
    rfl
  | error fault =>
    rw [hgiven] at hparse
    cases hparse

/-- **A rule that is read fits.** -/
theorem Rule.read_always (hr : r.Bounded) : Always (Rule.read r) Rule.Fits := by
  intro v rule h
  -- what each field was read as, in the order in which they are read
  obtain ⟨fields, -, h⟩ := canReturn_bind_imp' h
  obtain ⟨id, -, h⟩ := canReturn_bind_imp' h
  obtain ⟨endpoints, hendpoints, h⟩ := canReturn_bind_imp' h
  obtain ⟨methods, -, h⟩ := canReturn_bind_imp' h
  obtain ⟨dimension, -, h⟩ := canReturn_bind_imp' h
  obtain ⟨limit, hlimit, h⟩ := canReturn_bind_imp' h
  obtain ⟨windowSeconds, hwindow, h⟩ := canReturn_bind_imp' h
  obtain ⟨algorithm, -, h⟩ := canReturn_bind_imp' h
  obtain ⟨priority, hpriority, h⟩ := canReturn_bind_imp' h
  obtain ⟨enabled, -, h⟩ := canReturn_bind_imp' h
  obtain ⟨perCaller, hcaller, h⟩ := canReturn_bind_imp' h
  obtain ⟨perAddress, haddress, h⟩ := canReturn_bind_imp' h
  obtain ⟨message, -, h⟩ := canReturn_bind_imp' h
  rw [← eq_of_canReturn_pure h]
  refine ⟨?_, hr.requiredCount hlimit, hr.requiredCount hwindow, ?_, ?_, ?_⟩
  · exact orElse_always (by simp) (list_always r (Pattern.read_always hr)) hendpoints
  · exact orElse_always (P := fun n => fitsInt32 n = true) rfl hr.int32 hpriority
  · exact orElse_always (by simp) (optional_always r hr.count) hcaller
  · exact orElse_always (by simp) (optional_always r hr.count) haddress

/-- A default limit that is read has counts that are words. -/
theorem DefaultLimit.read_always (hr : r.Bounded) :
    Always (DefaultLimit.read r) DefaultLimit.Fits := by
  intro v d h
  obtain ⟨fields, -, h⟩ := canReturn_bind_imp' h
  obtain ⟨limit, hlimit, h⟩ := canReturn_bind_imp' h
  obtain ⟨windowSeconds, hwindow, h⟩ := canReturn_bind_imp' h
  obtain ⟨algorithm, -, h⟩ := canReturn_bind_imp' h
  rw [← eq_of_canReturn_pure h]
  exact ⟨hr.requiredCount hlimit, hr.requiredCount hwindow⟩

/-- So do several, each of which may be absent. -/
theorem DefaultLimits.read_always (hr : r.Bounded) :
    Always (DefaultLimits.read r) DefaultLimits.Fits := by
  have hlimit : Always (r.optional (DefaultLimit.read r)) fun a => ∀ l ∈ a, l.Fits :=
    optional_always r (DefaultLimit.read_always hr)
  intro v d h
  obtain ⟨fields, -, h⟩ := canReturn_bind_imp' h
  obtain ⟨perAddress, haddress, h⟩ := canReturn_bind_imp' h
  obtain ⟨perCaller, hcaller, h⟩ := canReturn_bind_imp' h
  obtain ⟨perTenant, htenant, h⟩ := canReturn_bind_imp' h
  rw [← eq_of_canReturn_pure h]
  exact ⟨orElse_always (by simp) hlimit haddress, orElse_always (by simp) hlimit hcaller,
    orElse_always (by simp) hlimit htenant⟩

/-- **A section on rate limiting that is read fits.** -/
theorem RateLimitingConfig.read_always (hr : r.Bounded) :
    Always (RateLimitingConfig.read r) RateLimitingConfig.Fits := by
  intro v c h
  obtain ⟨fields, -, h⟩ := canReturn_bind_imp' h
  obtain ⟨enabled, -, h⟩ := canReturn_bind_imp' h
  obtain ⟨failOpen, -, h⟩ := canReturn_bind_imp' h
  obtain ⟨storeTimeout, htimeout, h⟩ := canReturn_bind_imp' h
  obtain ⟨keySpace, -, h⟩ := canReturn_bind_imp' h
  obtain ⟨rulesPath, -, h⟩ := canReturn_bind_imp' h
  obtain ⟨rules, hrules, h⟩ := canReturn_bind_imp' h
  obtain ⟨defaults, hdefaults, h⟩ := canReturn_bind_imp' h
  obtain ⟨whitelist, -, h⟩ := canReturn_bind_imp' h
  obtain ⟨headers, -, h⟩ := canReturn_bind_imp' h
  obtain ⟨skipPaths, -, h⟩ := canReturn_bind_imp' h
  obtain ⟨apiKeyHeader, -, h⟩ := canReturn_bind_imp' h
  obtain ⟨tenantHeader, -, h⟩ := canReturn_bind_imp' h
  obtain ⟨store, -, h⟩ := canReturn_bind_imp' h
  rw [← eq_of_canReturn_pure h]
  refine ⟨?_, ?_, ?_⟩
  · exact orElse_always (P := fun n => n ≤ Word.max) (by decide) hr.count htimeout
  · exact orElse_always (by simp) (list_always r (Rule.read_always hr)) hrules
  · exact orElse_always DefaultLimits.fits_empty (DefaultLimits.read_always hr) hdefaults

end Notations

/-! ## The three notations -/

/-- JSON numbers fit, since a reader that finds one too large refuses it. -/
theorem Json.bounded_reading : Json.reading.Bounded where
  refuses _ := nofun
  count v n h := by
    have h : Json.count? v = some n := h
    unfold Json.count? at h
    split at h
    · split_ifs at h with hbound
      cases h
      exact hbound.2
    · cases h
  int32 v n h := by
    have h : Json.int32? v = some n := h
    unfold Json.int32? at h
    split at h
    · split_ifs at h with hbound
      cases h
      exact hbound
    · cases h

/-- A number is between the bounds that its place sets, if zero and one are. -/
theorem Setting.between_of_number? {lo hi : Int} (hlo : lo ≤ 0) (hhi : 1 ≤ hi) {v : Setting}
    {n : Int} (h : Setting.number? lo hi v = some n) : lo ≤ n ∧ n ≤ hi := by
  unfold Setting.number? at h
  split at h
  · split_ifs at h with hbound
    cases h
    exact hbound
  · cases h
    split <;> omega
  · cases h
    unfold Binary64.roundWithin
    split
    · dsimp only
      omega
    · split <;> omega
    · omega
  · split at h
    · cases h
      split <;> omega
    · simpa using (Option.filter_eq_some_iff.1 h).2
  · cases h

/-- Numbers of a setting fit, though some that are too large are rounded to a bound instead of
refused. -/
theorem Setting.bounded_reading : Setting.reading.Bounded where
  refuses _ := nofun
  count v n h := by
    have h : Setting.count? v = some n := h
    have hnumber : (Setting.number? 0 Word.max v).map Int.toNat = some n := by
      unfold Setting.count? at h
      split at h
      · split_ifs at h
        exact h
      · exact h
    obtain ⟨k, hk, rfl⟩ := Option.map_eq_some_iff.1 hnumber
    have hbound := Setting.between_of_number? (le_refl 0) (by decide) hk
    omega
  int32 v n h := by
    have h : Setting.int32? v = some n := h
    exact (Option.filter_eq_some_iff.1 h).2

/-- What is read from a node is what the node that it stands for is read as. -/
theorem Yaml.Following.exists_of_readAs {α : Type} {anchors : List (Nat × Yaml.Node)}
    {read : Yaml.Node → Option α} {node : Yaml.Node} {a : α}
    (h : CanReturn (Yaml.Following.readAs anchors read node) a) : ∃ meant, read meant = some a := by
  obtain ⟨meant, -, h⟩ := canReturn_bind_imp' h
  refine ⟨meant, ?_⟩
  cases hread : read meant with
  | none =>
    rw [hread] at h
    obtain ⟨s, s', h⟩ := h
    cases h
  | some b =>
    rw [hread] at h
    rw [eq_of_canReturn_pure h]

/-- Numbers in YAML fit, also where an alias stands for one. -/
theorem Yaml.bounded_reading (anchors : List (Nat × Yaml.Node)) :
    (Yaml.reading anchors).Bounded where
  refuses _ := by
    rintro ⟨s, s', h⟩
    cases h
  count v n h := by
    obtain ⟨node, hnode⟩ := Yaml.Following.exists_of_readAs h
    obtain ⟨text, -, htext⟩ := Option.bind_eq_some_iff.1 hnode
    simpa using (Option.filter_eq_some_iff.1 htext).2
  int32 v n h := by
    obtain ⟨node, hnode⟩ := Yaml.Following.exists_of_readAs h
    obtain ⟨text, -, htext⟩ := Option.bind_eq_some_iff.1 hnode
    exact (Option.filter_eq_some_iff.1 htext).2

/-! ## What can be obtained -/

/-- **A value that was read,** in one of the notations. -/
inductive ReadFrom {α : Type} (read : {m : Type → Type} → [Monad m] → [MonadExcept Unit m] →
    {ν : Type} → Reading m ν → ν → m α) (a : α) : Prop
  | json (v : Json) (h : read Json.reading v = some a) : ReadFrom read a
  | yaml (anchors : List (Nat × Yaml.Node)) (node : Yaml.Node) (before after : Nat)
    (h : (read (Yaml.reading anchors) node).run before = some (a, after)) : ReadFrom read a
  | setting (v : Setting) (h : read Setting.reading v = some a) : ReadFrom read a

/-- **A rule that reading, or one builder after another, can produce.** -/
inductive Rule.Obtained : Rule → Prop
  | read {r : Rule} (h : ReadFrom Rule.read r) : Obtained r
  | basic (id : String) (dimension : Dimension) {limit windowSeconds : Nat}
    (hlimit : limit ≤ Word.max) (hwindow : windowSeconds ≤ Word.max) :
    Obtained (Rule.basic id dimension limit windowSeconds)
  | withAlgorithm {r : Rule} (h : Obtained r) (algorithm : Algorithm) :
    Obtained { r with algorithm := algorithm }
  | withPriority {r : Rule} (h : Obtained r) {priority : Int}
    (hpriority : Reading.fitsInt32 priority = true) : Obtained { r with priority := priority }
  | withEndpoint {r r' : Rule} (h : Obtained r) {given : String}
    (hgiven : r.withEndpoint given = .ok r') : Obtained r'
  | withMethod {r : Rule} (h : Obtained r) (method : String) : Obtained (r.withMethod method)

/-- A rule that was read fits, in whichever notation it was written. -/
theorem Rule.fits_of_readFrom {r : Rule} (h : ReadFrom Rule.read r) : r.Fits := by
  cases h with
  | json v h => exact Rule.read_always Json.bounded_reading v _ h
  | yaml anchors node before after h =>
    exact Rule.read_always (Yaml.bounded_reading anchors) node _ ⟨before, after, h⟩
  | setting v h => exact Rule.read_always Setting.bounded_reading v _ h

theorem RateLimitingConfig.fits_of_readFrom {c : RateLimitingConfig}
    (h : ReadFrom RateLimitingConfig.read c) : c.Fits := by
  cases h with
  | json v h => exact RateLimitingConfig.read_always Json.bounded_reading v _ h
  | yaml anchors node before after h =>
    exact RateLimitingConfig.read_always (Yaml.bounded_reading anchors) node _ ⟨before, after, h⟩
  | setting v h => exact RateLimitingConfig.read_always Setting.bounded_reading v _ h

/-- **Whatever rule can be obtained, it fits.** -/
theorem Rule.Obtained.fits {r : Rule} (h : r.Obtained) : r.Fits := by
  induction h with
  | read h => exact Rule.fits_of_readFrom h
  | basic id dimension hlimit hwindow =>
    exact ⟨by simp [Rule.basic], hlimit, hwindow, rfl, by simp [Rule.basic], by simp [Rule.basic]⟩
  | withAlgorithm h algorithm ih =>
    exact ⟨ih.endpoints, ih.limit, ih.window, ih.priority, ih.perCaller, ih.perAddress⟩
  | withPriority h hpriority ih =>
    exact ⟨ih.endpoints, ih.limit, ih.window, hpriority, ih.perCaller, ih.perAddress⟩
  | @withEndpoint r r' h given hgiven ih =>
    unfold Rule.withEndpoint at hgiven
    split at hgiven
    · rename_i pattern hpattern
      cases hgiven
      refine ⟨?_, ih.limit, ih.window, ih.priority, ih.perCaller, ih.perAddress⟩
      intro p hp
      rcases List.mem_append.1 hp with hp | hp
      · exact ih.endpoints p hp
      · rw [List.mem_singleton.1 hp]
        exact ⟨given, hpattern⟩
    · cases hgiven
  | withMethod h method ih =>
    exact ⟨ih.endpoints, ih.limit, ih.window, ih.priority, ih.perCaller, ih.perAddress⟩

end Admission
