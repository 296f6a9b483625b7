/-
Which rules and default limits make a rule set.

What a rule has to satisfy is `Rule.Valid`, and each way to miss it is a fault that the rule
has (`Rule.Has`). A rule set is made exactly if every rule is valid and no id is taken up
twice, counting the ids of the derived rules (`Rule.ids`); it then holds what was asked for,
expanded in place (`set_made_iff_valid`). Otherwise the one to blame is the first rule that
has a fault, and if there is none, the first id that was taken up before.
-/
import Admission.Proofs.Fallback

set_option autoImplicit false

namespace Admission

/-! ## Faults of a rule -/

namespace Rule

/-- **A rule that can be used:** it has a name, its limit and its window are positive, so is
every further threshold, none of these is along the rule's own dimension, and its message is
a template. -/
structure Valid (r : Rule) : Prop where
  named : ∃ c ∈ r.id.toList, Text.isBlank c = false
  limit : 1 ≤ r.limit
  window : 1 ≤ r.windowSeconds
  perCaller : ∀ n, r.limitPerCaller = some n → 1 ≤ n ∧ r.dimension ≠ .caller
  perAddress : ∀ n, r.limitPerAddress = some n → 1 ≤ n ∧ r.dimension ≠ .address
  message : ∀ text, r.message = some text → ∃ template, Template.parse text = .ok template

/-- **A fault that a rule has,** looked at alone. -/
inductive Has (r : Rule) : Fault → Prop
  | blankId (h : ∀ c ∈ r.id.toList, Text.isBlank c = true) : Has r .blankId
  | zeroLimit (h : r.limit = 0) : Has r .zeroLimit
  | zeroWindow (h : r.windowSeconds = 0) : Has r .zeroWindow
  | zeroLimitPerCaller (h : r.limitPerCaller = some 0) : Has r .zeroLimitPerCaller
  | zeroLimitPerAddress (h : r.limitPerAddress = some 0) : Has r .zeroLimitPerAddress
  | redundantLimitPerCaller {n : Nat} (h : r.limitPerCaller = some n) (hd : r.dimension = .caller) :
    Has r .redundantLimitPerCaller
  | redundantLimitPerAddress {n : Nat} (h : r.limitPerAddress = some n)
    (hd : r.dimension = .address) : Has r .redundantLimitPerAddress
  | badMessage {text : String} {fault : Template.Fault} (h : r.message = some text)
    (hfault : Template.parse text = .error fault) : Has r (.badMessage fault)

variable {r : Rule}

theorem isAllBlank_iff : Text.isAllBlank r.id = true ↔ ∀ c ∈ r.id.toList, Text.isBlank c = true :=
  List.all_eq_true

theorem messageFault_eq_some_iff {fault : Template.Fault} :
    r.messageFault = some fault ↔
      ∃ text, r.message = some text ∧ Template.parse text = .error fault := by
  unfold messageFault
  split
  · rename_i hnone
    simp [hnone]
  · rename_i text htext
    split <;> rename_i hparse <;> simp [htext, hparse]

/-- Whatever fault is reported, the rule has it. -/
theorem has_of_fault?_eq_some {fault : Fault} (h : r.fault? = some fault) : r.Has fault := by
  unfold fault? at h
  split_ifs at h with hblank hlimit hwindow hcaller haddress hcaller' haddress'
  · cases h
    exact .blankId (isAllBlank_iff.1 hblank)
  · cases h
    exact .zeroLimit hlimit
  · cases h
    exact .zeroWindow hwindow
  · cases h
    exact .zeroLimitPerCaller hcaller
  · cases h
    exact .zeroLimitPerAddress haddress
  · cases h
    obtain ⟨n, hn⟩ := Option.isSome_iff_exists.1 hcaller'.1
    exact .redundantLimitPerCaller hn hcaller'.2
  · cases h
    obtain ⟨n, hn⟩ := Option.isSome_iff_exists.1 haddress'.1
    exact .redundantLimitPerAddress hn haddress'.2
  · obtain ⟨fault, hfault, rfl⟩ := Option.map_eq_some_iff.1 h
    obtain ⟨text, htext, hparse⟩ := messageFault_eq_some_iff.1 hfault
    exact .badMessage htext hparse

/-- A rule in which no fault is found has none. -/
theorem valid_of_fault?_eq_none (h : r.fault? = none) : r.Valid := by
  unfold fault? at h
  split_ifs at h with hblank hlimit hwindow hcaller haddress hcaller' haddress'
  rw [Option.map_eq_none_iff] at h
  refine ⟨?_, by omega, by omega, ?_, ?_, ?_⟩
  · rw [isAllBlank_iff] at hblank
    push Not at hblank
    obtain ⟨c, hc, hnot⟩ := hblank
    exact ⟨c, hc, Bool.eq_false_iff.2 hnot⟩
  · intro n hn
    rw [hn] at hcaller hcaller'
    refine ⟨?_, fun hd => hcaller' ⟨rfl, hd⟩⟩
    by_contra hzero
    exact hcaller (by rw [show n = 0 by omega])
  · intro n hn
    rw [hn] at haddress haddress'
    refine ⟨?_, fun hd => haddress' ⟨rfl, hd⟩⟩
    by_contra hzero
    exact haddress (by rw [show n = 0 by omega])
  · intro text htext
    cases hparse : Template.parse text with
    | ok template => exact ⟨template, rfl⟩
    | error fault =>
      rw [messageFault_eq_some_iff.2 ⟨text, htext, hparse⟩] at h
      cases h

/-- A valid rule has no fault at all. -/
theorem Valid.not_has (h : r.Valid) (fault : Fault) : ¬ r.Has fault := by
  intro hhas
  cases hhas with
  | blankId hblank =>
    obtain ⟨c, hc, hnot⟩ := h.named
    rw [hblank c hc] at hnot
    cases hnot
  | zeroLimit hzero => exact absurd h.limit (by omega)
  | zeroWindow hzero => exact absurd h.window (by omega)
  | zeroLimitPerCaller hzero => exact absurd (h.perCaller 0 hzero).1 (by omega)
  | zeroLimitPerAddress hzero => exact absurd (h.perAddress 0 hzero).1 (by omega)
  | redundantLimitPerCaller hn hd => exact (h.perCaller _ hn).2 hd
  | redundantLimitPerAddress hn hd => exact (h.perAddress _ hn).2 hd
  | badMessage htext hparse =>
    obtain ⟨template, htemplate⟩ := h.message _ htext
    rw [htemplate] at hparse
    cases hparse

/-- **Examining a rule finds nothing exactly if it is valid.** -/
theorem error?_eq_none_iff : r.error? = none ↔ r.Valid := by
  rw [error?, Option.map_eq_none_iff]
  refine ⟨valid_of_fault?_eq_none, ?_⟩
  intro h
  cases hfault : r.fault? with
  | none => rfl
  | some fault => exact absurd (has_of_fault?_eq_some hfault) (h.not_has fault)

/-- **What is reported of a rule that is not valid:** its name, and a fault that it has. -/
theorem blame_of_error?_eq_some {error : Error} (h : r.error? = some error) :
    ¬ r.Valid ∧ ∃ fault, r.Has fault ∧
      error = .rule (if Text.isAllBlank r.id then "<unnamed>" else r.id) fault.reason := by
  constructor
  · intro hvalid
    rw [error?_eq_none_iff.2 hvalid] at h
    cases h
  · obtain ⟨fault, hfault, rfl⟩ := Option.map_eq_some_iff.1 h
    exact ⟨fault, has_of_fault?_eq_some hfault, rfl⟩

end Rule

/-! ## Ids -/

/-- **The ids that a rule takes up:** its own, and one for each rule derived from it. -/
def Rule.ids (r : Rule) : List String :=
  r.id :: ((r.limitPerCaller.map fun _ => r.id ++ ":caller").toList ++
    (r.limitPerAddress.map fun _ => r.id ++ ":ip").toList)

namespace Rule

variable {r p : Rule}

theorem ids_expand (r : Rule) : r.expand.map Rule.id = r.ids := by
  have hcolon : ∀ tag : String, r.id ++ ":" ++ tag = r.id ++ (":" ++ tag) := fun tag =>
    String.append_assoc
  unfold expand ids
  cases r.limitPerCaller <;> cases r.limitPerAddress <;>
    simp [derived, Dimension.tag, hcolon]

theorem mem_ids_of_limitPerCaller (h : r.limitPerCaller ≠ none) : r.id ++ ":caller" ∈ r.ids := by
  obtain ⟨n, hn⟩ := Option.ne_none_iff_exists'.1 h
  simp [ids, hn]

theorem mem_ids_of_limitPerAddress (h : r.limitPerAddress ≠ none) : r.id ++ ":ip" ∈ r.ids := by
  obtain ⟨n, hn⟩ := Option.ne_none_iff_exists'.1 h
  simp [ids, hn]

theorem ids_flatMap_expand (rules : List Rule) :
    (rules.flatMap expand).map Rule.id = rules.flatMap ids := by
  rw [List.map_flatMap]
  exact List.flatMap_congr fun r _ => ids_expand r

theorem append_ne_self (s : String) {t : String} (ht : t ≠ "") : s ≠ s ++ t := by
  intro h
  have hlength := congrArg String.length h
  rw [String.length_append] at hlength
  exact ht (String.length_eq_zero_iff.1 (by omega))

/-- Where no id is taken up twice, no rule has the name that was given to a derived one. -/
theorem id_ne_of_nodup {rules : List Rule} (h : (rules.flatMap ids).Nodup) (hr : r ∈ rules)
    (hp : p ∈ rules) {id : String} (hid : id ∈ p.ids) (hne : id ≠ p.id) : r.id ≠ id := by
  rintro rfl
  by_cases hsame : r = p
  · exact hne (by rw [hsame])
  · have : Std.Symm (Function.onFun List.Disjoint ids) := ⟨fun _ _ hab => hab.symm⟩
    have hdisjoint : List.Disjoint r.ids p.ids := (List.nodup_flatMap.1 h).2.forall hr hp hsame
    exact hdisjoint List.mem_cons_self hid

/-- A rule as it is in force: no further thresholds, and methods without small letters. -/
structure Settled (r : Rule) : Prop where
  perCaller : r.limitPerCaller = none
  perAddress : r.limitPerAddress = none
  methods : ∀ m ∈ r.methods, ∀ c ∈ m.toList, c.isLower = false

theorem settled_of_mem_expand {e : Rule} (h : e ∈ r.expand) : e.Settled := by
  have hmethods : ∀ m ∈ r.methods.map Text.upper, ∀ c ∈ m.toList, c.isLower = false := by
    intro m hm c hc
    obtain ⟨given, -, rfl⟩ := List.mem_map.1 hm
    rw [Text.upper, String.toList_ofList] at hc
    obtain ⟨c, -, rfl⟩ := List.mem_map.1 hc
    exact Char.isLower_toUpper_eq_false c
  unfold expand at h
  simp only [List.mem_append, List.mem_singleton, Option.mem_toList, Option.map_eq_some_iff] at h
  rcases h with (rfl | ⟨limit, -, rfl⟩) | ⟨limit, -, rfl⟩ <;> exact ⟨rfl, rfl, hmethods⟩

end Rule

/-! ## Who is to blame -/

namespace RuleSet

variable {rules : List Rule} {defaults : DefaultLimits} {set : RuleSet}

/-- The first id that repeats an earlier one. -/
theorem exists_split_of_firstRepeated {seen : List String} {id : String}
    (h : firstRepeated seen rules = some id) :
    ∃ before after, rules.map Rule.id = before ++ id :: after ∧ before.Nodup ∧
      (∀ other ∈ before, other ∉ seen) ∧ (id ∈ before ∨ id ∈ seen) := by
  induction rules generalizing seen with
  | nil => cases h
  | cons r rest ih =>
    rw [firstRepeated] at h
    split at h
    · rename_i hr
      cases h
      exact ⟨[], rest.map Rule.id, rfl, List.nodup_nil, by simp, .inr hr⟩
    · rename_i hr
      obtain ⟨before, after, hsplit, hnodup, hseen, hid⟩ := ih h
      refine ⟨r.id :: before, after, by rw [List.map_cons, hsplit]; rfl, ?_, ?_, ?_⟩
      · rw [List.nodup_cons]
        exact ⟨fun hmem => hseen r.id hmem List.mem_cons_self, hnodup⟩
      · intro other hother
        rcases List.mem_cons.1 hother with rfl | hother
        · exact hr
        · exact fun hmem => hseen other hother (List.mem_cons_of_mem _ hmem)
      · rcases hid with hid | hid
        · exact .inl (List.mem_cons_of_mem _ hid)
        · rcases List.mem_cons.1 hid with rfl | hid
          · exact .inl List.mem_cons_self
          · exact .inr hid

/-- **When no rule set is made, there is one to blame:** the first rule that has a fault, or
else the first id that was taken up before. -/
theorem blame_of_build_eq_error {error : Error} (h : build rules defaults = .error error) :
    (∃ before r after, rules ++ defaults.rules = before ++ r :: after ∧
      (∀ earlier ∈ before, earlier.Valid) ∧ ¬ r.Valid ∧ ∃ fault, r.Has fault ∧
        error = .rule (if Text.isAllBlank r.id then "<unnamed>" else r.id) fault.reason) ∨
    (∀ r ∈ rules ++ defaults.rules, r.Valid) ∧
      ∃ before id after, (rules ++ defaults.rules).flatMap Rule.ids = before ++ id :: after ∧
        before.Nodup ∧ id ∈ before ∧ error = .rule id Rule.Fault.duplicateId.reason := by
  unfold build at h
  dsimp only at h
  split at h
  · rename_i fault hfault
    cases h
    obtain ⟨before, r, after, hsplit, hr, hbefore⟩ := List.findSome?_eq_some_iff.1 hfault
    exact .inl ⟨before, r, after, hsplit,
      fun earlier hearlier => Rule.error?_eq_none_iff.1 (hbefore earlier hearlier),
      Rule.blame_of_error?_eq_some hr⟩
  · rename_i hvalid
    rw [List.findSome?_eq_none_iff] at hvalid
    refine .inr ⟨fun r hr => Rule.error?_eq_none_iff.1 (hvalid r hr), ?_⟩
    split at h
    · rename_i id hid
      cases h
      obtain ⟨before, after, hsplit, hnodup, -, hmem⟩ := exists_split_of_firstRepeated hid
      rw [Rule.ids_flatMap_expand] at hsplit
      exact ⟨before, id, after, hsplit, hnodup, hmem.resolve_right List.not_mem_nil, rfl⟩
    · cases h

/-- **When a rule set can be made:** every rule is valid, and no id is taken up twice. -/
theorem exists_build_iff :
    (∃ set, build rules defaults = .ok set) ↔
      (∀ r ∈ rules ++ defaults.rules, r.Valid) ∧
        ((rules ++ defaults.rules).flatMap Rule.ids).Nodup := by
  constructor
  · rintro ⟨set, hbuild⟩
    obtain ⟨hvalid, hids, -⟩ := build_eq_ok_iff.1 hbuild
    rw [Rule.ids_flatMap_expand] at hids
    exact ⟨fun r hr => Rule.error?_eq_none_iff.1 (hvalid r hr), hids⟩
  · rintro ⟨hvalid, hids⟩
    rw [← Rule.ids_flatMap_expand] at hids
    exact ⟨_, build_eq_ok_iff.2 ⟨fun r hr => Rule.error?_eq_none_iff.2 (hvalid r hr), hids, rfl⟩⟩

theorem Sound.get?_eq_some_iff (h : set.Sound) {id : String} {r : Rule} :
    set.get? id = some r ↔ r ∈ set.rules ∧ r.id = id := by
  constructor
  · intro hfound
    exact ⟨List.mem_of_find?_eq_some hfound, by simpa using List.find?_some hfound⟩
  · rintro ⟨hr, rfl⟩
    exact h.get?_eq_some hr

end RuleSet

/-! ## The law -/

/-- **Which rules make a rule set, and what is in it.** Take any list of rules and any default
limits; they are examined in this order, the default limits as rules for the tenant, the
caller and the address.

A rule set is made if and only if each of them is valid and the ids that they take up are all
different; so no rule may be named like one that is derived from another, nor like a default
limit. The set holds each rule, expanded in its place: under the ids that it takes up, with
nothing left to expand, methods in capitals and nothing zero. An id finds the one rule that
has it.

If no rule set is made, the error names the first rule that is not valid, `<unnamed>` if it
has no name, and a fault that this rule has; or, if all are valid, the first id that was taken
up before. -/
theorem set_made_iff_valid (rules : List Rule) (defaults : DefaultLimits) :
    let asked := rules ++ defaults.rules
    ((∃ set, RuleSet.build rules defaults = .ok set) ↔
      (∀ r ∈ asked, r.Valid) ∧ (asked.flatMap Rule.ids).Nodup) ∧
    (∀ set, RuleSet.build rules defaults = .ok set →
      set.rules = asked.flatMap Rule.expand ∧
      (∀ r ∈ asked, r.expand.map Rule.id = r.ids) ∧
      (∀ e ∈ set.rules, e.Settled ∧ 1 ≤ e.limit ∧ 1 ≤ e.windowSeconds) ∧
      (set.rules.map Rule.id).Nodup ∧
      (∀ id e, set.get? id = some e ↔ e ∈ set.rules ∧ e.id = id) ∧
      (∀ r ∈ asked, ∀ p ∈ asked,
        (p.limitPerCaller ≠ none → r.id ≠ p.id ++ ":caller") ∧
        (p.limitPerAddress ≠ none → r.id ≠ p.id ++ ":ip")) ∧
      ∀ r ∈ rules, ∀ d ∈ defaults.rules, r.id ≠ d.id) ∧
    ∀ error, RuleSet.build rules defaults = .error error →
      (∃ before r after, asked = before ++ r :: after ∧
        (∀ earlier ∈ before, earlier.Valid) ∧ ¬ r.Valid ∧
        ∃ fault, r.Has fault ∧
          error = .rule (if Text.isAllBlank r.id then "<unnamed>" else r.id) fault.reason) ∨
      (∀ r ∈ asked, r.Valid) ∧
        ∃ before id after, asked.flatMap Rule.ids = before ++ id :: after ∧
          before.Nodup ∧ id ∈ before ∧ error = .rule id "duplicate rule id" := by
  intro asked
  refine ⟨RuleSet.exists_build_iff, ?_, fun error herror => RuleSet.blame_of_build_eq_error herror⟩
  intro set hbuild
  have hs : set.Sound := RuleSet.sound_of_build hbuild
  have hids : (asked.flatMap Rule.ids).Nodup := (RuleSet.exists_build_iff.1 ⟨set, hbuild⟩).2
  have hrules : set.rules = asked.flatMap Rule.expand := by
    obtain ⟨-, -, rfl⟩ := RuleSet.build_eq_ok_iff.1 hbuild
    rfl
  refine ⟨hrules, fun r _ => r.ids_expand, ?_, hs.ids, fun id e => hs.get?_eq_some_iff, ?_, ?_⟩
  · intro e he
    refine ⟨?_, hs.limit_pos e he, hs.window_pos e he⟩
    rw [hrules] at he
    obtain ⟨r, -, he⟩ := List.mem_flatMap.1 he
    exact Rule.settled_of_mem_expand he
  · intro r hr p hp
    constructor
    · intro hcaller
      apply Rule.id_ne_of_nodup hids hr hp (Rule.mem_ids_of_limitPerCaller hcaller)
      exact (Rule.append_ne_self p.id (by decide)).symm
    · intro haddress
      apply Rule.id_ne_of_nodup hids hr hp (Rule.mem_ids_of_limitPerAddress haddress)
      exact (Rule.append_ne_self p.id (by decide)).symm
  · intro r hr d hd heq
    -- both take up their own ids, one in front of the other
    rw [List.flatMap_append] at hids
    have hdisjoint := List.disjoint_of_nodup_append hids
    apply hdisjoint (List.mem_flatMap.2 ⟨r, hr, List.mem_cons_self⟩)
    rw [heq]
    exact List.mem_flatMap.2 ⟨d, hd, List.mem_cons_self⟩

/-! ## Rules with a threshold for each caller -/

namespace AcceptanceSample

/-- A rule with thresholds for each caller and each address. -/
def share : Rule :=
  { Rule.basic "share" .tenant 500 60 with
    methods := ["get"], limitPerCaller := some 20, limitPerAddress := some 50 }

/-- A rule that is named like one that is derived from the other. -/
def usurper : Rule := Rule.basic "share:ip" .address 10 60

/-- A rule without a name, which has two more faults. -/
def nameless : Rule := Rule.basic " " .address 0 0

def perAddress : DefaultLimits := ⟨some ⟨100, 60, .fixedWindow⟩, none, none⟩

end AcceptanceSample

open AcceptanceSample in
/-- With the rule alone a set is made, in which the derived rules are found; with another one of
a derived rule's name it is not, and that name is blamed, unless a rule has a fault. -/
theorem set_made_of_share :
    (∃ set, RuleSet.build [share] perAddress = .ok set ∧
      set.rules.map Rule.id = ["share", "share:caller", "share:ip", "default:ip"] ∧
      (∃ e, set.get? "share:caller" = some e ∧ e.limit = 20 ∧ e.methods = ["GET"])) ∧
    (¬ ∃ set, RuleSet.build [share, usurper] perAddress = .ok set) ∧
    ∃ error, RuleSet.build [usurper, nameless, share] perAddress = .error error ∧
      ∃ fault, nameless.Has fault ∧ error = .rule "<unnamed>" fault.reason := by
  refine ⟨?_, ?_, ?_⟩
  · obtain ⟨hmade, hholds, -⟩ := set_made_iff_valid [share] perAddress
    have hvalid : ∀ r ∈ [share] ++ perAddress.rules, r.Valid := by
      intro r hr
      apply Rule.error?_eq_none_iff.1
      revert r
      decide
    obtain ⟨set, hbuild⟩ := hmade.2 ⟨hvalid, by decide⟩
    obtain ⟨hrules, -, -, -, hfinds, -⟩ := hholds set hbuild
    refine ⟨set, hbuild, by rw [hrules]; decide, ?_⟩
    obtain ⟨e, he⟩ : ∃ e ∈ set.rules, e.id = "share:caller" ∧ e.limit = 20 ∧ e.methods = ["GET"] := by
      rw [hrules]
      decide
    exact ⟨e, (hfinds _ e).2 ⟨he.1, he.2.1⟩, he.2.2⟩
  · obtain ⟨hmade, -⟩ := set_made_iff_valid [share, usurper] perAddress
    rw [hmade]
    rintro ⟨-, hids⟩
    revert hids
    decide
  · obtain ⟨-, -, hblame⟩ := set_made_iff_valid [usurper, nameless, share] perAddress
    have hnameless : ¬ nameless.Valid := fun hvalid => absurd hvalid.limit (by decide)
    have husurper : usurper.Valid := Rule.error?_eq_none_iff.1 (by decide)
    have herror : RuleSet.build [usurper, nameless, share] perAddress =
        .error (.rule "<unnamed>" "rule id must not be empty") := by decide
    refine ⟨_, herror, ?_⟩
    rcases hblame _ herror with ⟨before, r, after, hsplit, hbefore, hr, fault, hhas, hreported⟩ | h
    · -- the first rule is valid and the second one is not, so it is the second one
      rcases before with _ | ⟨first, _ | ⟨second, rest⟩⟩
      · cases hsplit
        exact absurd husurper hr
      · cases hsplit
        exact ⟨fault, hhas, hreported⟩
      · injection hsplit with _ hsplit
        injection hsplit with hsecond _
        exact absurd (hbefore nameless (by simp [hsecond])) hnameless
    · exact absurd (h.1 nameless (by simp)) hnameless

end Admission
