import Ket.Lib.Check
import Ket.Lib.IpText
import Ket.Lib.Octets
import Ket.Lib.Str

/-!
# The bypass list (`ket-tunnel-protocol/src/bypass.rs`)

Addresses and networks that the user keeps outside the tunnel.  An address is the number that its
octets stand for; a prefix has zero host bits.
-/

namespace Ket.Tunnel

open Ket.Lib Ket.Lib.IpText List

inductive Family where
  | v4
  | v6
deriving DecidableEq, Repr

/-- The octets of an address. -/
def Family.size : Family → ℕ
  | .v4 => 4
  | .v6 => 16

/-- `full_length`. -/
def Family.fullLength (f : Family) : ℕ := 8 * f.size

/-- `IpAddr`. -/
structure IpAddr where
  family : Family
  bits : BitVec family.fullLength
deriving DecidableEq

namespace IpAddr

def ofOctets (f : Family) (octets : List UInt8) : IpAddr :=
  ⟨f, BitVec.ofNat _ (ofBigEndian octets)⟩

variable (a : IpAddr)

def octets : List UInt8 := toBigEndian a.family.size a.bits.toNat

/-- `Ipv6Addr::segments`. -/
def segment (i : ℕ) : ℕ := a.bits.toNat / 65536 ^ (7 - i) % 65536

def segments : List ℕ := (List.range 8).map a.segment

/-- The octets of groups of 16 bits. -/
def groupOctets (groups : List ℕ) : List UInt8 :=
  groups.flatMap fun g => [UInt8.ofNat (g / 256), UInt8.ofNat g]

def ofParsed : Parsed → IpAddr
  | .v4 ip => ofOctets .v4 [ip.a, ip.b, ip.c, ip.d]
  | .v6 groups => ofOctets .v6 (groupOctets groups)

/-- `IpAddr::from_str`. -/
def parse (s : List Char) : Option IpAddr := (parseIp s).map ofParsed

/-- `IpAddr::fmt`. -/
def text : List Char :=
  match a.family with
  | .v4 => ['.'].intercalate (a.octets.map Text.octetText)
  | .v6 =>
    if isMapped a.segments then
      "::ffff:".toList ++ ['.'].intercalate ((a.octets.drop 12).map Text.octetText)
    else ipv6Text a.segments

/-- `Ipv6Addr::to_ipv4_mapped` gives an address. -/
def isIpv4Mapped : Bool := a.family == .v6 && isMapped a.segments

/-- `u32::MAX.checked_shl(32 - length)`, or zero where the shift is too long. -/
def netmask (width length : ℕ) : BitVec width := BitVec.allOnes width <<< (width - length)

/-- `mask`. -/
def mask (length : ℕ) : IpAddr := ⟨a.family, a.bits &&& netmask _ length⟩

/-- Loopback, multicast, unspecified and (IPv4) broadcast addresses. -/
def isSpecial : Bool :=
  match a.family with
  | .v4 =>
    let first := a.octets.headD 0
    first == 127 || (224 ≤ first && first ≤ 239) || a.bits.toNat == 0
      || a.bits.toNat == 0xffffffff
  | .v6 => a.bits.toNat == 1 || a.segment 0 / 256 == 0xff || a.bits.toNat == 0

end IpAddr

inductive PrefixError where
  | invalid
  | tooWide (minimum : ℕ)
  | special
  | tooMany
deriving DecidableEq, Repr

def PrefixError.code : PrefixError → String
  | .invalid => "invalid"
  | .tooWide _ => "too_wide"
  | .special => "special"
  | .tooMany => "too_many"

/-- An address with a prefix length; the host bits are zero. -/
structure IpPrefix where
  address : IpAddr
  length : ℕ
  length_le : length ≤ address.family.fullLength
  masked : address.mask length = address

def minIpv4Prefix : ℕ := 8
def minIpv6Prefix : ℕ := 16

/-- The widest network of a family that may be kept outside the tunnel. -/
def Family.minPrefix : Family → ℕ
  | .v4 => minIpv4Prefix
  | .v6 => minIpv6Prefix

lemma IpAddr.and_netmask {w : ℕ} (bits : BitVec w) (length : ℕ) :
    bits &&& netmask w length &&& netmask w length = bits &&& netmask w length := by
  rw [BitVec.and_assoc, BitVec.and_self]

lemma IpAddr.mask_mask (a : IpAddr) (length : ℕ) : (a.mask length).mask length = a.mask length :=
  congrArg (IpAddr.mk a.family) (and_netmask a.bits length)

namespace IpPrefix

/-- `IpPrefix::new`. -/
def new (address : IpAddr) (length : ℕ) : Option IpPrefix :=
  if h : length ≤ address.family.fullLength then
    some ⟨address.mask length, length, h, address.mask_mask length⟩
  else none

/-- `digits.parse::<u8>()`, for a text of digits. -/
def parseLength (digits : List Char) : Option ℕ :=
  let n := Nat.ofDigitChars 10 digits 0
  if n < 256 then some n else none

/-- The prefix length, from what follows an address of so many bits. -/
def lengthOf (full : ℕ) : List Char → Except PrefixError ℕ
  | [] => .ok full
  | _ :: digits =>
    if digits ≠ [] ∧ digits.all Char.isDigit then okOr (parseLength digits) .invalid
    else .error .invalid

/-- `IpPrefix::from_str`. -/
def fromStr (text : List Char) : Except PrefixError IpPrefix := do
  let addressText := text.takeWhile (· != '/')
  let address ← okOr (IpAddr.parse addressText) .invalid
  -- an IPv4 address written as IPv6 is entered as IPv4 instead
  require (!address.isIpv4Mapped) .invalid
  let length ← lengthOf address.family.fullLength (text.drop addressText.length)
  okOr (new address length) .invalid

/-- `check_bypass`. -/
def checkBypass (p : IpPrefix) : Except PrefixError Unit :=
  let minimum := p.address.family.minPrefix
  if p.length < minimum then .error (.tooWide minimum)
  else if p.address.isSpecial then .error .special
  else .ok ()

/-- `parse_bypass`. -/
def parseBypass (text : String) : Except PrefixError IpPrefix := do
  let p ← fromStr (Str.trim text).toList
  p.checkBypass
  return p

/-- `IpPrefix::fmt`: a single address is printed without its length. -/
def text (p : IpPrefix) : List Char :=
  if p.length = p.address.family.fullLength then p.address.text
  else p.address.text ++ '/' :: Nat.toDigits 10 p.length

end IpPrefix

/-! ### Addresses as numbers -/

namespace IpAddr

variable {a : IpAddr} {length : ℕ}

lemma toNat_lt (a : IpAddr) : a.bits.toNat < 256 ^ a.family.size := by
  have h : a.bits.toNat < 2 ^ (8 * a.family.size) := a.bits.isLt
  rwa [pow_mul] at h

@[simp] lemma family_mask (a : IpAddr) (length : ℕ) : (a.mask length).family = a.family := rfl

/-- An address has the octets that it is made of. -/
lemma octets_ofOctets {f : Family} {octets : List UInt8} (h : octets.length = f.size) :
    (ofOctets f octets).octets = octets := by
  have hlt := ofBigEndian_lt octets
  have hmod : ofBigEndian octets % 2 ^ f.fullLength = ofBigEndian octets := by
    rw [h, show (256 : ℕ) = 2 ^ 8 from rfl, ← pow_mul] at hlt
    exact Nat.mod_eq_of_lt hlt
  show toBigEndian f.size (BitVec.ofNat f.fullLength (ofBigEndian octets)).toNat = octets
  rw [BitVec.toNat_ofNat, hmod, ← h, toBigEndian_ofBigEndian]

lemma length_octets (a : IpAddr) : a.octets.length = a.family.size := length_toBigEndian _ _

/-- The host bits are cleared. -/
lemma toNat_mask (a : IpAddr) (length : ℕ) :
    (a.mask length).bits.toNat = a.bits.toNat / 2 ^ (a.family.fullLength - length)
      * 2 ^ (a.family.fullLength - length) := by
  have h : ∀ {w : ℕ} (x : BitVec w),
      (x &&& netmask w length).toNat = x.toNat / 2 ^ (w - length) * 2 ^ (w - length) := by
    intro w x
    refine Nat.eq_of_testBit_eq fun i => ?_
    rw [BitVec.testBit_toNat, BitVec.getLsbD_and, netmask, BitVec.getLsbD_shiftLeft,
      Nat.testBit_mul_two_pow, Nat.testBit_div_two_pow, BitVec.getLsbD_allOnes]
    by_cases hs : w - length ≤ i
    · have hadd : i - (w - length) + (w - length) = i := by omega
      rw [hadd, BitVec.testBit_toNat]
      by_cases hi : i < w
      · have hlt : i - (w - length) < w := by omega
        simp [hi, hs, hlt]
      · simp [BitVec.getLsbD_of_ge x i (Nat.le_of_not_lt hi)]
    · simp [hs]
  exact h a.bits

/-- The group at a place, from its two octets. -/
lemma segment_eq (hv6 : a.family = .v6) {i : ℕ} (hi : i < 8) :
    a.segment i = (a.octets.getD (i * 2) 0).toNat * 256 + (a.octets.getD (i * 2 + 1) 0).toNat := by
  have hsize : a.family.size = 16 := by rw [hv6]; rfl
  have hpow : (65536 : ℕ) ^ (7 - i) = 256 ^ (16 - 1 - (i * 2 + 1)) := by
    rw [show (65536 : ℕ) = 256 ^ 2 from rfl, ← pow_mul]
    congr 1
    omega
  have hsucc : 16 - 1 - i * 2 = 16 - 1 - (i * 2 + 1) + 1 := by omega
  rw [segment, octets, hsize, getD_eq_getElem?_getD, getD_eq_getElem?_getD,
    getElem?_toBigEndian (by omega), getElem?_toBigEndian (by omega), Option.getD_some,
    Option.getD_some, UInt8.toNat_ofNat', UInt8.toNat_ofNat', hpow, hsucc, pow_succ,
    ← Nat.div_div_eq_div_mul]
  omega

/-- An address is IPv4-mapped by its first 96 bits. -/
lemma isMapped_segments (hv6 : a.family = .v6) :
    isMapped a.segments = true ↔ a.bits.toNat / 2 ^ 32 = 0xffff := by
  have hsize : a.family.size = 16 := by rw [hv6]; rfl
  have hlt : a.bits.toNat < 256 ^ 16 := hsize ▸ a.toNat_lt
  generalize hn : a.bits.toNat = n at hlt ⊢
  have hsegments : a.segments.take 6 = [n / 65536 ^ 7 % 65536, n / 65536 ^ 6 % 65536,
      n / 65536 ^ 5 % 65536, n / 65536 ^ 4 % 65536, n / 65536 ^ 3 % 65536, n / 65536 ^ 2 % 65536] := by
    rw [← hn]
    rfl
  rw [isMapped, hsegments]
  simp only [beq_iff_eq, List.cons.injEq, and_true]
  omega

/-- Clearing host bits makes no address IPv4-mapped. -/
lemma isMapped_of_mask (hv6 : a.family = .v6) (h : isMapped (a.mask length).segments = true) :
    isMapped a.segments = true := by
  rw [isMapped_segments hv6]
  have hv6' : (a.mask length).family = .v6 := hv6
  rw [isMapped_segments hv6', toNat_mask] at h
  generalize a.family.fullLength - length = s at h
  by_cases hs : s ≤ 32
  · -- only host bits below the last 32 are cleared
    obtain ⟨t, ht⟩ := Nat.exists_eq_add_of_le hs
    have hdiv : ∀ n : ℕ, n / 2 ^ s * 2 ^ s / 2 ^ 32 = n / 2 ^ 32 := by
      intro n
      rw [ht, pow_add, ← Nat.div_div_eq_div_mul, ← Nat.div_div_eq_div_mul,
        Nat.mul_div_cancel _ (Nat.two_pow_pos s)]
    rwa [hdiv] at h
  · -- otherwise the last of the first 96 bits is cleared
    obtain ⟨t, rfl⟩ := Nat.exists_eq_add_of_lt (Nat.lt_of_not_le hs)
    have hpow : ∀ m : ℕ, m * 2 ^ (32 + t + 1) / 2 ^ 32 = m * 2 ^ t * 2 := by
      intro m
      rw [pow_succ, pow_add, show m * (2 ^ 32 * 2 ^ t * 2) = m * 2 ^ t * 2 * 2 ^ 32 by ring,
        Nat.mul_div_cancel _ (Nat.two_pow_pos 32)]
    rw [hpow] at h
    omega

lemma length_groupOctets (groups : List ℕ) : (groupOctets groups).length = 2 * groups.length := by
  induction groups with
  | nil => rfl
  | cons g groups ih =>
    rw [groupOctets, flatMap_cons, length_append, ← groupOctets, ih]
    simp only [length_cons, length_nil]
    omega

variable {groups : List ℕ}

/-- An IPv6 address has the octets of its groups. -/
lemma octets_ofParsed (h : groups.length = 8) :
    (ofParsed (.v6 groups)).octets = groupOctets groups :=
  octets_ofOctets (by rw [length_groupOctets, h]; rfl)

lemma getD_groupOctets {i : ℕ} (hi : i < groups.length) :
    (groupOctets groups).getD (i * 2) 0 = UInt8.ofNat (groups[i] / 256) ∧
      (groupOctets groups).getD (i * 2 + 1) 0 = UInt8.ofNat groups[i] := by
  induction groups generalizing i with
  | nil => cases hi
  | cons g groups ih =>
    cases i with
    | zero => exact ⟨rfl, rfl⟩
    | succ i =>
      have hlt : i < groups.length := Nat.lt_of_succ_lt_succ hi
      have hmul : (i + 1) * 2 = i * 2 + 2 := by ring
      rw [hmul]
      exact ih hlt

/-- An IPv6 address has the groups that it is made of. -/
lemma segments_ofParsed (h : groups.length = 8) (hlt : ∀ g ∈ groups, g < 65536) :
    (ofParsed (.v6 groups)).segments = groups := by
  refine ext_getElem (by simp [segments, h]) fun i hi hi' => ?_
  have hi8 : i < 8 := h ▸ hi'
  obtain ⟨hhigh, hlow⟩ := getD_groupOctets hi'
  have hg := hlt _ (getElem_mem hi')
  simp only [segments, getElem_map, getElem_range]
  rw [segment_eq rfl hi8, octets_ofParsed h, hhigh, hlow, UInt8.toNat_ofNat', UInt8.toNat_ofNat']
  omega

end IpAddr

/-! ### The texts of networks -/

/-- A text of an address that may be entered. -/
inductive AddressText (dotted : Bool) : List Char → IpAddr → Prop
  | v4 (ip : Text.Ipv4Addr) : AddressText dotted ip.text (.ofParsed (.v4 ip))
  | v6 {s : List Char} {groups : List ℕ} (h : Ipv6Text dotted s groups)
      (hmapped : isMapped groups = false) : AddressText dotted s (.ofParsed (.v6 groups))

/-- What follows an address of so many bits, and the prefix length that it stands for. -/
inductive LengthText (full : ℕ) : List Char → ℕ → Prop
  | host : LengthText full [] full
  | digits {c : Char} {digits : List Char} (hne : digits ≠ []) (h : digits.all Char.isDigit = true)
      (hle : Nat.ofDigitChars 10 digits 0 ≤ full) :
      LengthText full (c :: digits) (Nat.ofDigitChars 10 digits 0)

/-- A text of a network or a single address. -/
structure NetworkText (dotted : Bool) (s : List Char) (a : IpAddr) (length : ℕ) : Prop where
  address : AddressText dotted (s.takeWhile (· != '/')) a
  length : LengthText a.family.fullLength (s.drop (s.takeWhile (· != '/')).length) length

variable {a : IpAddr} {s : List Char} {length : ℕ}

lemma AddressText.dotted (h : AddressText false s a) : AddressText true s a := by
  cases h with
  | v4 ip => exact .v4 ip
  | v6 h hmapped => exact .v6 h.dotted hmapped

lemma NetworkText.dotted (h : NetworkText false s a length) : NetworkText true s a length :=
  ⟨h.address.dotted, h.length⟩

lemma LengthText.le {full : ℕ} (h : LengthText full s length) : length ≤ full := by
  cases h with
  | host => exact Nat.le_refl _
  | digits _ _ hle => exact hle

lemma AddressText.chars {dotted : Bool} (h : AddressText dotted s a) :
    ∀ c ∈ s, isHex c = true ∨ c = ':' ∨ c = '.' := by
  intro c hc
  cases h with
  | v4 ip => exact (Text.Ipv4Addr.mem_text hc).imp isHex_of_isDigit .inr
  | v6 h _ => exact h.chars.2 c hc

/-- No blank stands in the text of a network. -/
lemma NetworkText.chars {dotted : Bool} (h : NetworkText dotted s a length) :
    ∀ c ∈ s, isHex c = true ∨ c = ':' ∨ c = '.' ∨ c = '/' := by
  intro c hc
  have hsplit : s.takeWhile (· != '/') ++ s.dropWhile (· != '/') = s :=
    takeWhile_append_dropWhile
  have hdrop : (s.takeWhile (· != '/') ++ s.dropWhile (· != '/')).drop
      (s.takeWhile (· != '/')).length = s.dropWhile (· != '/') := drop_left
  rw [hsplit] at hdrop
  rw [← hsplit, mem_append] at hc
  rcases hc with hc | hc
  · rcases h.address.chars c hc with h | h | h
    · exact .inl h
    · exact .inr (.inl h)
    · exact .inr (.inr (.inl h))
  · have hlength := h.length
    rw [hdrop] at hlength
    cases hs : s.dropWhile (· != '/') with
    | nil =>
      rw [hs] at hc
      cases hc
    | cons d digits =>
      rw [hs] at hc hlength
      cases hlength with
      | digits _ hdigits _ =>
        rcases mem_cons.mp hc with rfl | hc
        · have hne : s.dropWhile (· != '/') ≠ [] := by rw [hs]; simp
          have hstop := head_dropWhile_not (· != '/') hne
          simp only [hs, head_cons] at hstop
          exact .inr (.inr (.inr (by simpa using hstop)))
        · exact .inl (isHex_of_isDigit (all_eq_true.mp hdigits c hc))

/-- The source reads the texts of addresses without an IPv4 address before `::`. -/
lemma addressText_iff :
    AddressText false s a ↔ IpAddr.parse s = some a ∧ a.isIpv4Mapped = false := by
  have hmapped : ∀ groups, groups.length = 8 → (∀ g ∈ groups, g < 65536) →
      (IpAddr.ofParsed (.v6 groups)).isIpv4Mapped = isMapped groups := by
    intro groups hlength hlt
    rw [IpAddr.isIpv4Mapped, IpAddr.segments_ofParsed hlength hlt]
    rfl
  constructor
  · rintro (ip | ⟨h, hnot⟩)
    · exact ⟨Option.map_eq_some_iff.mpr ⟨_, parseIp_eq_v4.mpr rfl, rfl⟩, rfl⟩
    · refine ⟨Option.map_eq_some_iff.mpr ⟨_, parseIp_eq_v6.mpr h, rfl⟩, ?_⟩
      rw [hmapped _ h.groups.1 h.groups.2, hnot]
  · rintro ⟨hparse, hnot⟩
    obtain ⟨parsed, hparsed, rfl⟩ := Option.map_eq_some_iff.mp hparse
    cases parsed with
    | v4 ip =>
      rw [parseIp_eq_v4.mp hparsed]
      exact .v4 ip
    | v6 groups =>
      have h := parseIp_eq_v6.mp hparsed
      rw [hmapped _ h.groups.1 h.groups.2] at hnot
      exact .v6 h hnot

/-! ### What the source accepts -/

namespace IpPrefix

/-- The prefix of an address, as `new` makes it. -/
def ofAddress (a : IpAddr) (length : ℕ) (h : length ≤ a.family.fullLength) : IpPrefix :=
  ⟨a.mask length, length, h, a.mask_mask length⟩

/-- The prefix, if it may be kept outside the tunnel. -/
def checked (p : IpPrefix) : Except PrefixError IpPrefix := do
  p.checkBypass
  return p

variable {a : IpAddr} {p : IpPrefix} {s : List Char}

/-- What follows an address is read as it is written. -/
lemma new_lengthOf :
    (lengthOf a.family.fullLength s >>= fun length => okOr (new a length) .invalid) = .ok p ↔
      ∃ length, ∃ h : LengthText a.family.fullLength s length, p = ofAddress a length h.le := by
  have hsmall : a.family.fullLength < 256 := by cases a.family <;> decide
  constructor
  · intro h
    obtain ⟨length, hlength, hnew⟩ := bind_eq_ok.mp h
    rw [okOr_eq_ok, new, Option.dite_none_right_eq_some] at hnew
    obtain ⟨hle, heq⟩ := hnew
    have htext : LengthText a.family.fullLength s length := by
      match s with
      | [] =>
        cases hlength
        exact .host
      | _ :: digits =>
        simp only [lengthOf] at hlength
        split at hlength
        · rename_i hdigits
          rw [okOr_eq_ok, parseLength, Option.ite_none_right_eq_some] at hlength
          obtain ⟨-, hn⟩ := hlength
          cases hn
          exact .digits hdigits.1 hdigits.2 hle
        · cases hlength
    exact ⟨length, htext, (Option.some.inj heq).symm⟩
  · rintro ⟨length, htext, rfl⟩
    have hnew : okOr (new a length) PrefixError.invalid = .ok (ofAddress a length htext.le) :=
      okOr_eq_ok.mpr (dif_pos htext.le)
    refine bind_eq_ok.mpr ⟨length, ?_, hnew⟩
    cases htext with
    | host => rfl
    | digits hne hdigits hle =>
      have hlt : Nat.ofDigitChars 10 _ 0 < 256 := lt_of_le_of_lt hle hsmall
      simp only [lengthOf, parseLength]
      rw [if_pos ⟨hne, hdigits⟩, if_pos hlt]
      rfl

lemma fromStr_eq_ok : fromStr s = .ok p ↔ ∃ a length, ∃ h : NetworkText false s a length,
      p = ofAddress a length h.length.le := by
  constructor
  · intro h
    obtain ⟨a, ha, h⟩ := bind_eq_ok.mp h
    obtain ⟨hmapped, h⟩ := require_bind_eq_ok.mp h
    obtain ⟨length, htext, rfl⟩ := new_lengthOf.mp h
    have haddress := addressText_iff.mpr ⟨okOr_eq_ok.mp ha, by simpa using hmapped⟩
    exact ⟨a, length, ⟨haddress, htext⟩, rfl⟩
  · rintro ⟨a, length, h, rfl⟩
    obtain ⟨hparse, hmapped⟩ := addressText_iff.mp h.address
    refine bind_eq_ok.mpr ⟨a, okOr_eq_ok.mpr hparse, require_bind_eq_ok.mpr ⟨?_, ?_⟩⟩
    · rw [hmapped]
      rfl
    · exact new_lengthOf.mpr ⟨length, h.length, rfl⟩

lemma onlyFails_fromStr (s : List Char) : OnlyFails .invalid (fromStr s) := by
  have hlength : ∀ full s, OnlyFails .invalid (lengthOf full s) := by
    intro full s
    match s with
    | [] => exact .ok _ _
    | _ :: digits =>
      simp only [lengthOf]
      split
      · exact .okOr _ _
      · exact .error _
  refine (OnlyFails.okOr _ _).bind fun a => (OnlyFails.require _ _).bind fun _ => ?_
  exact (hlength _ _).bind fun _ => .okOr _ _

/-- The code of the error, or the text of the prefix. -/
def outcome : Except PrefixError IpPrefix → Except String (List Char)
  | .error e => .error e.code
  | .ok p => .ok p.text

lemma checked_eq (p : IpPrefix) : p.checked = if p.length < p.address.family.minPrefix then
        .error (.tooWide p.address.family.minPrefix)
      else if p.address.isSpecial then .error .special else .ok p := by
  unfold checked checkBypass
  by_cases hwide : p.length < p.address.family.minPrefix
  · simp only [if_pos hwide]
    rfl
  · by_cases hspecial : p.address.isSpecial = true
    · simp only [if_neg hwide, if_pos hspecial]
      rfl
    · simp only [if_neg hwide, if_neg hspecial]
      rfl

lemma outcome_checked_ne (p : IpPrefix) : outcome p.checked ≠ .error "invalid" := by
  rw [checked_eq]
  split_ifs <;> simp [outcome, PrefixError.code]

/-- How a trimmed text is answered. -/
lemma outcome_of_networkText {length : ℕ} (h : NetworkText false s a length) :
    outcome (fromStr s >>= checked) = outcome (ofAddress a length h.length.le).checked := by
  rw [fromStr_eq_ok.mpr ⟨a, length, h, rfl⟩]
  rfl

lemma outcome_of_not_networkText (h : ∀ a length, ¬ NetworkText false s a length) :
    outcome (fromStr s >>= checked) = .error "invalid" := by
  cases hs : fromStr s with
  | error e =>
    rw [onlyFails_fromStr s e hs]
    rfl
  | ok p =>
    obtain ⟨a, length, hnetwork, -⟩ := fromStr_eq_ok.mp hs
    exact absurd hnetwork (h a length)

end IpPrefix

end Ket.Tunnel
