/-
Whoever is let past, is let past under every spelling of the address.

The spelling under which addresses are compared is the same for two texts exactly if they denote
the same address, or denote none and are the same text (`normalizeAddress_eq_iff`). It is used on
both sides of every comparison: for the entries of the list and for the address of a request, for
an override that is left or taken back and for the one that is looked up. So whitelisting depends
on the address that is denoted (`whitelisted_by_address_denoted`).
-/
import Admission.Proofs.AddressText
import Admission.Proofs.History

set_option autoImplicit false

namespace Admission

open Text

/-! ## The same address -/

/-- **Two texts stand for the same address,** blanks at their ends apart: both are addresses, and
the same one once a mapped address is read as the address it holds; or neither is an address, and
they are the same text. -/
def SameAddress (a b : String) : Prop :=
  (∃ x y, IpAddress.parse? (trim a) = some x ∧ IpAddress.parse? (trim b) = some y ∧
      x.canonical = y.canonical) ∨
    (IpAddress.parse? (trim a) = none ∧ IpAddress.parse? (trim b) = none ∧ trim a = trim b)

theorem normalizeAddress_of_parse? {a : String} {x : IpAddress}
    (h : IpAddress.parse? (trim a) = some x) : normalizeAddress a = x.canonical.text := by
  unfold normalizeAddress
  dsimp only
  rw [h]

theorem normalizeAddress_of_no_address {a : String} (h : IpAddress.parse? (trim a) = none) :
    normalizeAddress a = trim a := by
  unfold normalizeAddress
  dsimp only
  rw [h]

/-- What stands for an address is read as this address, written in its one way. -/
theorem canonical_eq_of_text_eq {x y : IpAddress} (h : x.text = y.text) : x = y := by
  have hread := x.parse?_text
  rw [h, y.parse?_text, Option.some.injEq] at hread
  exact hread.symm

/-- **Addresses are compared by what they denote.** -/
theorem normalizeAddress_eq_iff {a b : String} :
    normalizeAddress a = normalizeAddress b ↔ SameAddress a b := by
  unfold SameAddress
  cases ha : IpAddress.parse? (trim a) with
  | some x =>
    cases hb : IpAddress.parse? (trim b) with
    | some y =>
      rw [normalizeAddress_of_parse? ha, normalizeAddress_of_parse? hb]
      constructor
      · exact fun h => .inl ⟨x, y, rfl, rfl, canonical_eq_of_text_eq h⟩
      · rintro (⟨_, _, ⟨⟩, ⟨⟩, h⟩ | ⟨⟨⟩, -⟩)
        rw [h]
    | none =>
      rw [normalizeAddress_of_parse? ha, normalizeAddress_of_no_address hb]
      refine iff_of_false ?_ (by simp)
      -- the text of an address is an address
      intro h
      rw [← h, x.canonical.parse?_text] at hb
      cases hb
  | none =>
    cases hb : IpAddress.parse? (trim b) with
    | some y =>
      rw [normalizeAddress_of_no_address ha, normalizeAddress_of_parse? hb]
      refine iff_of_false ?_ (by simp)
      intro h
      rw [h, y.canonical.parse?_text] at ha
      cases ha
    | none =>
      rw [normalizeAddress_of_no_address ha, normalizeAddress_of_no_address hb]
      simp

/-- The spelling under which an address is compared is compared under itself. -/
theorem normalizeAddress_normalizeAddress (a : String) :
    normalizeAddress (normalizeAddress a) = normalizeAddress a := by
  cases ha : IpAddress.parse? (trim a) with
  | some x =>
    have hread : IpAddress.parse? (trim x.canonical.text) = some x.canonical := by
      rw [x.canonical.trim_text, x.canonical.parse?_text]
    rw [normalizeAddress_of_parse? ha, normalizeAddress_of_parse? hread, x.canonical_canonical]
  | none =>
    have hread : IpAddress.parse? (trim (trim a)) = none := by rw [trim_trim, ha]
    rw [normalizeAddress_of_no_address ha, normalizeAddress_of_no_address hread, trim_trim]

/-! ## Looking a request up -/

namespace Whitelist

variable {space : String} {p : Request} {value : String}

/-- The lists know a request by its caller, by its tenant, or by the address that it denotes. -/
theorem matchesLists_ofConfig_iff {config : WhitelistConfig} :
    (ofConfig config).matchesLists p = true ↔
      (∃ caller ∈ config.callers, p.caller = some caller) ∨
      (∃ tenant ∈ config.tenants, p.tenant = some tenant) ∨
      ∃ entry ∈ config.addresses, SameAddress entry p.address := by
  rw [matchesLists, ofConfig, Bool.or_eq_true, Bool.or_eq_true, Option.any_eq_true,
    Option.any_eq_true, or_assoc]
  simp only [decide_eq_true_eq, List.mem_map, normalizeAddress_eq_iff]
  exact or_congr (exists_congr fun _ => and_comm) (or_congr_left (exists_congr fun _ => and_comm))

/-- **The override of an address is looked up** for the requests that denote this address. -/
theorem overrideKey_mem_markerKeys_iff :
    overrideKey space .address (canonical .address value) ∈ markerKeys space p ↔
      SameAddress value p.address := by
  rw [← normalizeAddress_eq_iff, markerKeys, List.mem_map]
  constructor
  · rintro ⟨⟨dimension, looked⟩, hmem, hkey⟩
    obtain ⟨-, hdimension, hvalue⟩ := eq_of_overrideKey_eq hkey
    -- of what is looked up, only the last is an address
    have hmem : (Dimension.address, normalizeAddress value) ∈ candidates p := by
      rwa [show dimension = .address from hdimension, hvalue, canonical] at hmem
    simpa [candidates] using hmem
  · intro h
    exact ⟨(.address, normalizeAddress p.address), by simp [candidates], by rw [← h]; rfl⟩

/-- A call under another key than those of a request's markers does not change whether the request
is let past. -/
theorem run_lets_requestWithin {store : Store} (hdistinct : store.Distinct) (w : Whitelist)
    (budget : Nat) {now : Nat} {call : Call} (h : call.key ∉ markerKeys space p) :
    ((w.lets space budget p).run (Store.reply now)
        ((Interaction.requestWithin budget call).run (Store.reply now) store).2).1 =
      ((w.lets space budget p).run (Store.reply now) store).1 := by
  have hafter : ((Interaction.requestWithin budget call).run (Store.reply now) store).2 =
      (store.answer now call).2 := rfl
  have hmarkers : (markerKeys space p).any ((store.answer now call).2.hasMarker now) =
      (markerKeys space p).any (store.hasMarker now) := by
    rw [Bool.eq_iff_iff, List.any_eq_true, List.any_eq_true]
    refine exists_congr fun key => and_congr_right fun hkey => ?_
    have hne : call.key ≠ key := fun heq => h (heq ▸ hkey)
    rw [Store.hasMarker, Store.hasMarker, Store.live?_answer_of_ne hdistinct now hne]
  rw [hafter, run_lets, run_lets, hmarkers]

end Whitelist

/-- **Whitelisting depends on the address that is denoted, not on its spelling.**

An address is found again in its text. Two texts have the same spelling for comparison if and only
if they stand for the same address, and that spelling is its own.

Requests that differ only in how the same address is spelled are known to the same lists, have the
same overrides looked up for them, and are let past in the same conversation, whatever a store
answers. Overrides of the same address are left and taken back by the same calls.

An entry of the list covers the requests of the address that it denotes and of no other. The
override of an address is looked up for the requests of this address and of no other; so for all
other requests it makes no difference over any store whether it is left or taken back. -/
theorem whitelisted_by_address_denoted :
    (∀ ip : IpAddress, IpAddress.parse? ip.text = some ip) ∧
    (∀ a b, normalizeAddress a = normalizeAddress b ↔ SameAddress a b) ∧
    (∀ a, normalizeAddress (normalizeAddress a) = normalizeAddress a) ∧
    (∀ (p : Request) (spelling : String), SameAddress p.address spelling →
      let q := { p with address := spelling }
      ∀ config, let w := Whitelist.ofConfig config
        w.matchesLists p = w.matchesLists q ∧
        ∀ space budget, Whitelist.markerKeys space p = Whitelist.markerKeys space q ∧
          w.lets space budget p = w.lets space budget q) ∧
    (∀ a b, SameAddress a b → ∀ space budget,
      (∀ ttl, Whitelist.addOverride space budget .address a ttl =
        Whitelist.addOverride space budget .address b ttl) ∧
      Whitelist.removeOverride space budget .address a =
        Whitelist.removeOverride space budget .address b) ∧
    (∀ config p, (Whitelist.ofConfig config).matchesLists p = true ↔
      (∃ caller ∈ config.callers, p.caller = some caller) ∨
      (∃ tenant ∈ config.tenants, p.tenant = some tenant) ∨
      ∃ entry ∈ config.addresses, SameAddress entry p.address) ∧
    (∀ space a p, overrideKey space .address (Whitelist.canonical .address a) ∈
      Whitelist.markerKeys space p ↔ SameAddress a p.address) ∧
    ∀ (store : Store), store.Distinct → ∀ a (p : Request), ¬ SameAddress a p.address →
      ∀ (w : Whitelist) space budget now,
        let before := ((w.lets space budget p).run (Store.reply now) store).1
        (∀ ttl, ((w.lets space budget p).run (Store.reply now)
          ((Whitelist.addOverride space budget .address a ttl).run (Store.reply now) store).2).1 =
            before) ∧
        ((w.lets space budget p).run (Store.reply now)
          ((Whitelist.removeOverride space budget .address a).run (Store.reply now) store).2).1 =
            before := by
  refine ⟨IpAddress.parse?_text, fun a b => normalizeAddress_eq_iff,
    normalizeAddress_normalizeAddress, ?_, ?_, fun config p => Whitelist.matchesLists_ofConfig_iff,
    fun space a p => Whitelist.overrideKey_mem_markerKeys_iff, ?_⟩
  · intro p spelling hsame q config w
    have haddress : normalizeAddress p.address = normalizeAddress q.address :=
      normalizeAddress_eq_iff.2 hsame
    have hlists : w.matchesLists p = w.matchesLists q := by
      rw [Whitelist.matchesLists, Whitelist.matchesLists, haddress]
    refine ⟨hlists, fun space budget => ?_⟩
    have hkeys : Whitelist.markerKeys space p = Whitelist.markerKeys space q := by
      rw [Whitelist.markerKeys, Whitelist.markerKeys, Whitelist.candidates, Whitelist.candidates,
        haddress]
    exact ⟨hkeys, by rw [Whitelist.lets, Whitelist.lets, hlists, hkeys]⟩
  · intro a b hsame space budget
    have hcanonical : Whitelist.canonical .address a = Whitelist.canonical .address b := by
      rw [Whitelist.canonical, Whitelist.canonical, normalizeAddress_eq_iff.2 hsame]
    refine ⟨fun ttl => ?_, ?_⟩
    · rw [Whitelist.addOverride, Whitelist.addOverride, hcanonical]
    · rw [Whitelist.removeOverride, Whitelist.removeOverride, hcanonical]
  · intro store hdistinct a p hother w space budget now before
    have hkey : overrideKey space .address (Whitelist.canonical .address a) ∉
        Whitelist.markerKeys space p := mt Whitelist.overrideKey_mem_markerKeys_iff.1 hother
    refine ⟨fun ttl => ?_, ?_⟩
    · rw [Whitelist.addOverride]
      exact Whitelist.run_lets_requestWithin hdistinct w budget hkey
    · rw [Whitelist.removeOverride]
      exact Whitelist.run_lets_requestWithin hdistinct w budget hkey

/-! ## Two spellings and a neighbour -/

namespace SpellingSample

/-- One address is listed, and overrides are looked up. -/
def config : WhitelistConfig := ⟨[], ["10.0.0.5"], [], true⟩

def request (address : String) : Request := .describe "GET" "/" address

end SpellingSample

open SpellingSample in
/-- The listed address is let past as a mapped one too. An override of its neighbour, which is the
same however long it is written, does not let it past. -/
theorem whitelisted_by_address_denoted_of_mapped :
    SameAddress "10.0.0.5" " ::FFFF:10.0.0.5" ∧
    (Whitelist.ofConfig config).matchesLists (request " ::FFFF:10.0.0.5") = true ∧
    SameAddress "2001:db8::1" "2001:0DB8:0:0:0:0:0:1" ∧
    Whitelist.addOverride "turnstile" 50 .address "2001:db8::1" none =
      Whitelist.addOverride "turnstile" 50 .address "2001:0DB8:0:0:0:0:0:1" none ∧
    ¬ SameAddress "2001:db8::1" "2001:db8::2" ∧
    (((Whitelist.ofConfig config).lets "turnstile" 50 (request "2001:db8::2")).run
      (Store.reply 60000) ((Whitelist.addOverride "turnstile" 50 .address "2001:db8::1" none).run
        (Store.reply 60000) .empty).2).1 = false := by
  obtain ⟨-, hiff, -, hrequests, hoverrides, hlists, -, hothers⟩ := whitelisted_by_address_denoted
  have hmapped : SameAddress "10.0.0.5" " ::FFFF:10.0.0.5" :=
    (hiff _ _).1 (by decide +kernel)
  have hlong : SameAddress "2001:db8::1" "2001:0DB8:0:0:0:0:0:1" :=
    (hiff _ _).1 (by decide +kernel)
  have hneighbour : ¬ SameAddress "2001:db8::1" "2001:db8::2" :=
    mt (hiff _ _).2 (by decide +kernel)
  have hlisted : (Whitelist.ofConfig config).matchesLists (request "10.0.0.5") = true :=
    (hlists config _).2 (.inr (.inr ⟨"10.0.0.5", List.mem_singleton_self _, (hiff _ _).1 rfl⟩))
  obtain ⟨hspelled, -⟩ := hrequests (request "10.0.0.5") " ::FFFF:10.0.0.5" hmapped config
  obtain ⟨hadds, -⟩ := hoverrides _ _ hlong "turnstile" 50
  obtain ⟨hunchanged, -⟩ := hothers .empty Store.distinct_empty "2001:db8::1"
    (request "2001:db8::2") hneighbour (Whitelist.ofConfig config) "turnstile" 50 60000
  refine ⟨hmapped, hspelled ▸ hlisted, hlong, hadds none, hneighbour, ?_⟩
  rw [hunchanged none]
  decide +kernel

end Admission
