/-
Internet addresses. An address of the sixth version is eight groups of sixteen
bits; some of them stand for an address of the fourth version (`mapped?`), and
those two count as the same address here, because a client that arrives over one
kind of socket or the other is the same client.
-/

set_option autoImplicit false

namespace Admission

/-- An address of the fourth version: four octets. -/
structure IPv4 where
  a : Fin 256
  b : Fin 256
  c : Fin 256
  d : Fin 256
  deriving DecidableEq

/-- The address of a host to itself, `127.0.0.1`. -/
def IPv4.loopback : IPv4 :=
  ⟨⟨127, by decide⟩, ⟨0, by decide⟩, ⟨0, by decide⟩, ⟨1, by decide⟩⟩

/-- An address of the sixth version: eight groups. -/
structure IPv6 where
  groups : List (Fin 65536)
  length_groups : groups.length = 8
  deriving DecidableEq

/-- **An internet address.** -/
inductive IpAddress
  | v4 (address : IPv4)
  | v6 (address : IPv6)
  deriving DecidableEq

/-- An address with a port. The zone tells links of one host apart; zero is none. -/
inductive SocketAddress
  | v4 (address : IPv4) (port : Fin 65536)
  | v6 (address : IPv6) (zone : Fin 4294967296) (port : Fin 65536)
  deriving DecidableEq

/-- The address of a socket. -/
def SocketAddress.ip : SocketAddress → IpAddress
  | v4 address _ => .v4 address
  | v6 address _ _ => .v6 address

/-! ## Addresses within addresses -/

/-- The two octets of a group. -/
def octets (g : Fin 65536) : Fin 256 × Fin 256 :=
  (⟨g.val / 256, by omega⟩, ⟨g.val % 256, by omega⟩)

/-- The group of two octets. -/
def group (high low : Fin 256) : Fin 65536 := ⟨high.val * 256 + low.val, by omega⟩

theorem group_octets (g : Fin 65536) : group (octets g).1 (octets g).2 = g := by
  apply Fin.ext
  simp only [group, octets]
  omega

theorem octets_group (high low : Fin 256) : octets (group high low) = (high, low) := by
  have h : (high.val * 256 + low.val) / 256 = high.val := by omega
  have l : (high.val * 256 + low.val) % 256 = low.val := by omega
  simp [octets, group, h, l]

/-- An address of the fourth version as two groups. -/
def IPv4.groups (v : IPv4) : List (Fin 65536) := [group v.a v.b, group v.c v.d]

/-- The address that two groups hold. -/
def IPv4.ofGroups (high low : Fin 65536) : IPv4 :=
  ⟨(octets high).1, (octets high).2, (octets low).1, (octets low).2⟩

/-- **The address of the fourth version that one of the sixth stands for,** if it
stands for one: five groups of zeros, one of ones, and the address. -/
def IPv6.mapped? (v : IPv6) : Option IPv4 :=
  match v.groups with
  | [0, 0, 0, 0, 0, 65535, high, low] => some (.ofGroups high low)
  | _ => none

/-- **The address that is meant:** a mapped one stands for the address it holds. -/
def IpAddress.canonical : IpAddress → IpAddress
  | v4 address => v4 address
  | v6 address =>
    match address.mapped? with
    | some inner => v4 inner
    | none => v6 address

theorem IpAddress.canonical_canonical (a : IpAddress) : a.canonical.canonical = a.canonical := by
  cases a with
  | v4 address => rfl
  | v6 address => cases h : address.mapped? <;> simp [canonical, h]

end Admission
