import Ket.Share.Target

/-!
# Which addresses a nearby device may reach (`ket-share/src/policy.rs`)

Only the public Internet.  An IPv6 address can stand for an IPv4 address in several ways;
`embeddedIpv4` lists the IPv4 addresses that an address stands for.  The policy looks through
IPv4-mapped addresses and lets no NAT64 or 6to4 address through, but Teredo addresses are not among
the exceptions (`embedded_allowed_iff`).
-/

namespace Ket.Share

open Ket.Lib.Text (Ipv4Addr)

/-! ### Addresses as numbers -/

/-- `u32::from`. -/
def toU32 (address : Ipv4Addr) : BitVec 32 :=
  address.a.toBitVec ++ address.b.toBitVec ++ address.c.toBitVec ++ address.d.toBitVec

/-- `Ipv4Addr::from`. -/
def ofU32 (n : BitVec 32) : Ipv4Addr :=
  ⟨⟨n.extractLsb' 24 8⟩, ⟨n.extractLsb' 16 8⟩, ⟨n.extractLsb' 8 8⟩, ⟨n.extractLsb' 0 8⟩⟩

variable (address : BitVec 128)

/-- `Ipv6Addr::segments`. -/
def segment (i : ℕ) : BitVec 16 := address.extractLsb' (112 - 16 * i) 16

/-! ### The policy -/

/-- An IPv4 network, with a length of at most 32. -/
structure Ipv4Range where
  network : Ipv4Addr
  length : ℕ
deriving DecidableEq

namespace Ipv4Range

def mask (range : Ipv4Range) : BitVec 32 :=
  if range.length = 0 then 0 else BitVec.allOnes 32 <<< (32 - range.length)

def contains (range : Ipv4Range) (address : Ipv4Addr) : Bool :=
  toU32 address &&& range.mask == toU32 range.network &&& range.mask

end Ipv4Range

/-- IPv4 networks that are not the public Internet. -/
def reservedIpv4 : List Ipv4Range :=
  [⟨⟨0, 0, 0, 0⟩, 8⟩, ⟨⟨10, 0, 0, 0⟩, 8⟩, ⟨⟨100, 64, 0, 0⟩, 10⟩, ⟨⟨127, 0, 0, 0⟩, 8⟩,
    ⟨⟨169, 254, 0, 0⟩, 16⟩, ⟨⟨172, 16, 0, 0⟩, 12⟩, ⟨⟨192, 0, 0, 0⟩, 24⟩, ⟨⟨192, 0, 2, 0⟩, 24⟩,
    ⟨⟨192, 168, 0, 0⟩, 16⟩, ⟨⟨198, 18, 0, 0⟩, 15⟩, ⟨⟨198, 51, 100, 0⟩, 24⟩,
    ⟨⟨203, 0, 113, 0⟩, 24⟩, ⟨⟨224, 0, 0, 0⟩, 4⟩, ⟨⟨240, 0, 0, 0⟩, 4⟩]

/-- Where a dialled address came from. -/
inductive Origin where
  /-- Written by the nearby device. -/
  | requested
  /-- Returned by the tunnel's resolver for a name the device asked for. -/
  | resolved
deriving DecidableEq, Repr

/-- Outside the reserved networks, or a stand-in address from the tunnel's own resolver. -/
def allowedIpv4 (address : Ipv4Addr) (origin : Origin) (synthetic : Option Ipv4Range) : Bool :=
  (origin == .resolved && synthetic.any fun range => range.contains address) ||
    !(reservedIpv4.any fun range => range.contains address)

/-- `Ipv6Addr::to_ipv4_mapped`. -/
def toIpv4Mapped : Option Ipv4Addr :=
  if (List.range 5).all (fun i => segment address i == 0) && segment address 5 == 0xffff then
    some (ofU32 (segment address 6 ++ segment address 7))
  else none

/-- Global unicast without documentation or 6to4 addresses. -/
def publicIpv6 : Bool :=
  segment address 0 &&& 0xe000 == 0x2000 &&
    !(segment address 0 == 0x2001 && segment address 1 == 0x0db8) && segment address 0 != 0x2002

def allowed (address : IpAddr) (origin : Origin) (synthetic : Option Ipv4Range) : Bool :=
  match address with
  | .v4 address => allowedIpv4 address origin synthetic
  | .v6 address =>
    match toIpv4Mapped address with
    | some mapped => allowedIpv4 mapped origin synthetic
    | none => publicIpv6 address

/-! ### What an address stands for -/

/-- The IPv4 address behind a NAT64 address, `64:ff9b::/96`. -/
def nat64Ipv4 : Option Ipv4Addr :=
  if segment address 0 = 0x64 ∧ segment address 1 = 0xff9b ∧
      (segment address 2 = 0 ∧ segment address 3 = 0 ∧ segment address 4 = 0 ∧
        segment address 5 = 0) then
    some (ofU32 (segment address 6 ++ segment address 7))
  else none

/-- The IPv4 address behind a 6to4 address, `2002::/16`. -/
def sixToFourIpv4 : Option Ipv4Addr :=
  if segment address 0 = 0x2002 then some (ofU32 (segment address 1 ++ segment address 2)) else none

/-- The IPv4 addresses in a Teredo address, `2001::/32`: the server's, and the client's with its bits
inverted. -/
def teredoIpv4 : List Ipv4Addr :=
  if segment address 0 = 0x2001 ∧ segment address 1 = 0 then
    [ofU32 (segment address 2 ++ segment address 3),
      ofU32 (~~~(segment address 6 ++ segment address 7))]
  else []

/-- The IPv4 addresses that an address stands for. -/
def embeddedIpv4 : IpAddr → List Ipv4Addr
  | .v4 address => [address]
  | .v6 address =>
    (toIpv4Mapped address).toList ++ (nat64Ipv4 address).toList ++
      (sixToFourIpv4 address).toList ++ teredoIpv4 address

/-- A Teredo address with an IPv4 address that would not be allowed itself. -/
def wrapsReserved (address : IpAddr) (origin : Origin) (synthetic : Option Ipv4Range) : Bool :=
  match address with
  | .v4 _ => false
  | .v6 address => (teredoIpv4 address).any fun inner => !allowedIpv4 inner origin synthetic

section Policy

variable {address : BitVec 128} {origin : Origin} {synthetic : Option Ipv4Range}

/-- A mapped address is of no other kind. -/
lemma others_of_mapped {inner : Ipv4Addr} (h : toIpv4Mapped address = some inner) :
    nat64Ipv4 address = none ∧ sixToFourIpv4 address = none ∧ teredoIpv4 address = [] := by
  have hzero : segment address 0 = 0 := by
    unfold toIpv4Mapped at h
    split at h
    · rename_i hmapped
      have hall := List.all_eq_true.mp (Bool.and_eq_true_iff.mp hmapped).1 0 (by decide)
      exact beq_iff_eq.mp hall
    · cases h
  have hne : ∀ n : BitVec 16, n ≠ 0 → segment address 0 ≠ n := by
    intro n hn heq
    exact hn (heq.symm.trans hzero)
  refine ⟨if_neg fun h => hne _ (by decide) h.1, if_neg fun h => hne _ (by decide) h, ?_⟩
  exact if_neg fun h => hne _ (by decide) h.1

/-- No NAT64 or 6to4 address is public. -/
lemma others_of_public (h : publicIpv6 address = true) :
    nat64Ipv4 address = none ∧ sixToFourIpv4 address = none := by
  simp only [publicIpv6, Bool.and_eq_true, beq_iff_eq, bne_iff_ne, ne_eq] at h
  obtain ⟨⟨hglobal, -⟩, hsixToFour⟩ := h
  refine ⟨if_neg fun hnat => ?_, if_neg hsixToFour⟩
  rw [hnat.1] at hglobal
  exact absurd hglobal (by decide)

/-- **What is let through** stands for IPv4 addresses that are allowed themselves, unless it is a
Teredo address with one that is not. -/
lemma embedded_allowed_iff {ip : IpAddr} (h : allowed ip origin synthetic = true) :
    (∀ inner ∈ embeddedIpv4 ip, allowedIpv4 inner origin synthetic = true) ↔
      wrapsReserved ip origin synthetic = false := by
  cases ip with
  | v4 address =>
    simp only [allowed] at h
    simp [embeddedIpv4, wrapsReserved, h]
  | v6 address =>
    simp only [allowed] at h
    cases hmapped : toIpv4Mapped address with
    | some mapped =>
      rw [hmapped] at h
      obtain ⟨hnat, hsix, hteredo⟩ := others_of_mapped hmapped
      simp only at h
      simp [embeddedIpv4, wrapsReserved, hmapped, hnat, hsix, hteredo, h]
    | none =>
      rw [hmapped] at h
      obtain ⟨hnat, hsix⟩ := others_of_public h
      simp [embeddedIpv4, wrapsReserved, hmapped, hnat, hsix]

end Policy

end Ket.Share
