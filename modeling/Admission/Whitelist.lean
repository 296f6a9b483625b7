/-
Who is never limited. Callers, tenants and addresses may be listed in the
configuration; if the whitelist is dynamic, each of them may also be let past by
an override, which is a marker in the counter store.

Addresses are compared by the address they denote (`normalizeAddress`), in the
list, in the request and in an override alike.
-/
import Admission.Address.Text
import Admission.CounterKey
import Admission.Interaction

set_option autoImplicit false

namespace Admission

/-- The whitelist section of a configuration. -/
structure WhitelistConfig where
  callers : List String
  addresses : List String
  tenants : List String
  /-- whether overrides in the store count too -/
  dynamic : Bool
  deriving DecidableEq

/-- A section that lists nobody. -/
def WhitelistConfig.empty : WhitelistConfig := ⟨[], [], [], false⟩

/-- **The whitelist,** with its addresses normalized. -/
structure Whitelist where
  callers : List String
  addresses : List String
  tenants : List String
  dynamic : Bool
  deriving DecidableEq

namespace Whitelist

/-- The whitelist of a configuration. -/
def ofConfig (config : WhitelistConfig) : Whitelist :=
  ⟨config.callers, config.addresses.map normalizeAddress, config.tenants, config.dynamic⟩

/-- **Whether the lists let a request past.** -/
def matchesLists (w : Whitelist) (request : Request) : Bool :=
  request.caller.any (· ∈ w.callers) || request.tenant.any (· ∈ w.tenants) ||
    normalizeAddress request.address ∈ w.addresses

/-- The spelling under which an override is kept. -/
def canonical (dimension : Dimension) (value : String) : String :=
  match dimension with
  | .address => normalizeAddress value
  | _ => value

/-- What an override may be about for a request, in the order in which it is
looked up. -/
def candidates (request : Request) : List (Dimension × String) :=
  (request.caller.map (Dimension.caller, ·)).toList ++
    (request.tenant.map (Dimension.tenant, ·)).toList ++
    [(Dimension.address, normalizeAddress request.address)]

/-- The marker keys of a request. -/
def markerKeys (space : String) (request : Request) : List String :=
  (candidates request).map fun (dimension, value) => overrideKey space dimension value

/-- Asking for markers until one is found. A failure ends the search; so does a
reply that is not there in time. -/
def findMarker (budget : Nat) : List String → Interaction (Except Error Bool)
  | [] => .done (.ok false)
  | key :: rest =>
    .ask (.hasMarker key) fun reply =>
      match reply.within budget with
      | .ok true => .done (.ok true)
      | .ok false => findMarker budget rest
      | .error error => .done (.error error)

/-- **Whether a request is let past.** The store is asked only if the lists do not
settle it and the whitelist is dynamic; a store that fails lets nobody past. -/
def lets (w : Whitelist) (space : String) (budget : Nat) (request : Request) : Interaction Bool :=
  if w.matchesLists request then .done true
  else if !w.dynamic then .done false
  else (findMarker budget (markerKeys space request)).bind fun found =>
    match found with
    | .ok found => .done found
    | .error _ => .done false

/-- Leaving an override, for a time or for good. -/
def addOverride (space : String) (budget : Nat) (dimension : Dimension) (value : String)
    (ttl : Option Nat) : Interaction (Except Error Unit) :=
  .requestWithin budget (.setMarker (overrideKey space dimension (canonical dimension value)) ttl)

/-- Taking an override back; reports whether there was one. -/
def removeOverride (space : String) (budget : Nat) (dimension : Dimension) (value : String) :
    Interaction (Except Error Bool) :=
  .requestWithin budget (.reset (overrideKey space dimension (canonical dimension value)))

end Whitelist

end Admission
