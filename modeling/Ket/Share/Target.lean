import Ket.Lib.Check
import Ket.Lib.Encoding
import Ket.Lib.Head
import Ket.Lib.Text

/-!
# Where a nearby device asks to go (`ket-share/src/target.rs`, `credentials.rs`, `handshake.rs`)

Texts are byte strings in UTF-8.  All that the parsers look for is ASCII, and an ASCII byte is never
part of a longer character, so they may look at the bytes.
-/

namespace Ket.Share

open Ket.Lib Ket.Lib.Head List
open Ket.Lib.Text (Ipv4Addr)

/-! ### Addresses -/

inductive IpAddr where
  | v4 (address : Ipv4Addr)
  | v6 (address : BitVec 128)
deriving DecidableEq

/-- The bytes of host texts: letters, digits and `- _ . : [ ]`. -/
def isHostByte (b : UInt8) : Bool :=
  isAsciiAlphanumeric b || [0x2d, 0x5f, 0x2e, 0x3a, 0x5b, 0x5d].contains b

/-- What a share takes from libraries: `base64`, and the parser of IPv6 addresses, which accepts
hexadecimal digits, colons and dots only. -/
structure ShareLib where
  base64 : Base64
  parseIpv6 : List UInt8 → Option (BitVec 128)
  isHostByte_of_parse : ∀ {text : List UInt8} {address : BitVec 128},
    parseIpv6 text = some address → ∀ b ∈ text, isHostByte b = true

def parseIpv4 (text : List UInt8) : Option Ipv4Addr :=
  Ipv4Addr.parse (text.map fun b => Char.ofNat b.toNat)

/-- `IpAddr::from_str`. -/
def ShareLib.parseIp (A : ShareLib) (text : List UInt8) : Option IpAddr :=
  ((parseIpv4 text).map IpAddr.v4).or ((A.parseIpv6 text).map IpAddr.v6)

/-! ### Hosts -/

def maxNameLength : ℕ := 253
def maxLabelLength : ℕ := 63

inductive Host where
  | name (name : List UInt8)
  | address (address : IpAddr)
deriving DecidableEq

structure Target where
  host : Host
  port : UInt16
deriving DecidableEq

inductive TargetError where
  | invalid
  /-- `localhost`, `printer.local`, and other names that only mean something on this device or its
  own network. -/
  | localName
deriving DecidableEq, Repr

def validLabel (label : List UInt8) : Bool :=
  label != [] && decide (label.length ≤ maxLabelLength) && decide (label.head? ≠ some 0x2d) &&
    decide (label.getLast? ≠ some 0x2d) &&
    label.all fun b => isAsciiAlphanumeric b || b == 0x2d || b == 0x5f

/-- Last labels that are never names on the Internet. -/
def localLabels : List (List UInt8) :=
  ["localhost", "local", "internal", "lan", "home", "arpa"].map Str.bytes

/-- What stands between brackets. -/
def bracketed (text : List UInt8) : Option (List UInt8) :=
  if text.head? = some 0x5b ∧ 2 ≤ text.length ∧ text.getLast? = some 0x5d then
    some text.tail.dropLast
  else none

/-- Without a dot at the end. -/
def stripDot (text : List UInt8) : List UInt8 :=
  if text.getLast? = some 0x2e then text.dropLast else text

/-- `Host::parse`: an address, an IPv6 address in brackets, or a DNS name in lowercase. -/
def Host.parse (A : ShareLib) (text : List UInt8) : Except TargetError Host :=
  match bracketed text with
  | some inner => okOr ((A.parseIpv6 inner).map fun a => .address (.v6 a)) .invalid
  | none =>
    match A.parseIp text with
    | some ip => .ok (.address ip)
    | none => do
        let name := (stripDot text).map toLower
        require (name != [] && decide (name.length ≤ maxNameLength)) .invalid
        let labels := name.splitOn 0x2e
        require (labels.all validLabel) .invalid
        let last := labels.getLast?.getD []
        -- a single label is looked up on the local network
        require (!(decide (labels.length = 1) || localLabels.contains last)) .localName
        require (!last.all isAsciiDigit) .invalid
        return .name name

/-! ### Signing in -/

/-- What can go wrong before a device is let through. -/
inductive Refusal where
  /-- Only this counts toward the sign-in limit. -/
  | badCredentials
  | noCredentials
  | malformed
  | unsupported
  | target (error : TargetError)
deriving DecidableEq, Repr

structure Credentials where
  username : List UInt8
  password : List UInt8
deriving DecidableEq

/-- `Credentials::matches`.  The comparison takes the same time whatever it finds. -/
def Credentials.isMatch (credentials : Credentials) (username password : List UInt8) : Bool :=
  credentials.username == username && credentials.password == password

/-! ### The bytes of an accepted host -/

section HostBytes

variable {A : ShareLib} {text : List UInt8} {b : UInt8}

lemma isHostByte_of_lower (h : isHostByte (toLower b) = true) : isHostByte b = true := by
  unfold toLower at h
  split at h
  · rename_i hupper
    simp [isHostByte, isAsciiAlphanumeric, isAsciiUppercase, hupper]
  · exact h

lemma isHostByte_of_parseIpv4 {address : Ipv4Addr} (h : parseIpv4 text = some address)
    (hb : b ∈ text) : isHostByte b = true := by
  have htext : address.text = text.map fun b => Char.ofNat b.toNat := Ipv4Addr.text_of_parse h
  have hmem : Char.ofNat b.toNat ∈ address.text := by
    rw [htext]
    exact mem_map.mpr ⟨b, hb, rfl⟩
  have hvalid : b.toNat.isValidChar := .inl (Nat.lt_trans b.toNat_lt (by decide))
  have hnat : (Char.ofNat b.toNat).toNat = b.toNat := by
    rw [Char.ofNat, dif_pos hvalid]
    rfl
  rcases Ipv4Addr.mem_text hmem with hdigit | hdot
  · simp only [Char.isDigit, Bool.and_eq_true, decide_eq_true_eq, ge_iff_le,
      UInt32.le_iff_toNat_le, Char.toNat_val, hnat] at hdigit
    have hbyte : isAsciiDigit b = true := by
      simp only [isAsciiDigit, Bool.and_eq_true, decide_eq_true_eq, UInt8.le_iff_toNat_le]
      exact hdigit
    simp [isHostByte, isAsciiAlphanumeric, hbyte]
  · rw [hdot] at hnat
    obtain rfl : b = 0x2e := UInt8.toNat_inj.mp hnat.symm
    decide

lemma isHostByte_of_mem_name (hlabels : (text.splitOn 0x2e).all validLabel = true) (hb : b ∈ text) :
    isHostByte b = true := by
  rcases Text.mem_splitOn (a := 0x2e) hb with rfl | ⟨label, hlabel, hmem⟩
  · decide
  · have hvalid := all_eq_true.mp hlabels label hlabel
    simp only [validLabel, Bool.and_eq_true, all_eq_true] at hvalid
    have hbyte := hvalid.2 b hmem
    simp only [Bool.or_eq_true, beq_iff_eq] at hbyte
    rcases hbyte with (hbyte | rfl) | rfl
    · simp [isHostByte, hbyte]
    · decide
    · decide

lemma mem_stripDot (hb : b ∈ text) : b ∈ stripDot text ∨ b = 0x2e := by
  unfold stripDot
  split
  · rename_i hlast
    obtain ⟨front, rfl⟩ : ∃ front, text = front ++ [0x2e] := getLast?_eq_some_iff.mp hlast
    rw [dropLast_concat]
    simpa using hb
  · exact .inl hb

lemma mem_bracketed {inner : List UInt8} (h : bracketed text = some inner) (hb : b ∈ text) :
    b ∈ inner ∨ b = 0x5b ∨ b = 0x5d := by
  unfold bracketed at h
  split at h
  · rename_i hbrackets
    cases h
    obtain ⟨hfirst, hlen, hlast⟩ := hbrackets
    cases text with
    | nil => cases hb
    | cons c rest =>
      obtain rfl : c = 0x5b := by simpa using hfirst
      have hne : rest ≠ [] := by
        rintro rfl
        simp at hlen
      obtain ⟨front, rfl⟩ : ∃ front, rest = front ++ [0x5d] := by
        rw [getLast?_cons_of_ne_nil hne] at hlast
        exact getLast?_eq_some_iff.mp hlast
      rw [tail_cons, dropLast_concat]
      rcases mem_cons.mp hb with hb | hb
      · exact .inr (.inl hb)
      · rcases mem_append.mp hb with hb | hb
        · exact .inl hb
        · exact .inr (.inr (mem_singleton.mp hb))
  · cases h

/-- A text that is accepted as a host holds only bytes of hosts. -/
lemma isHostByte_of_parse {host : Host} (h : Host.parse A text = .ok host) (hb : b ∈ text) :
    isHostByte b = true := by
  unfold Host.parse at h
  split at h
  · -- an IPv6 address in brackets
    rename_i inner hinner
    rcases mem_bracketed hinner hb with hmem | rfl | rfl
    · cases hparse : A.parseIpv6 inner with
      | none =>
        rw [hparse] at h
        cases h
      | some address => exact A.isHostByte_of_parse hparse b hmem
    · decide
    · decide
  · split at h
    · -- an address without brackets
      rename_i ip hip
      rcases Option.or_eq_some_iff.mp hip with hv4 | ⟨-, hv6⟩
      · obtain ⟨address, hparse, -⟩ := Option.map_eq_some_iff.mp hv4
        exact isHostByte_of_parseIpv4 hparse hb
      · obtain ⟨address, hparse, -⟩ := Option.map_eq_some_iff.mp hv6
        exact A.isHostByte_of_parse hparse b hb
    · -- a name
      obtain ⟨-, h⟩ := require_bind_eq_ok.mp h
      obtain ⟨hlabels, -⟩ := require_bind_eq_ok.mp h
      rcases mem_stripDot hb with hmem | rfl
      · exact isHostByte_of_lower (isHostByte_of_mem_name hlabels
          (mem_map.mpr ⟨b, hmem, rfl⟩))
      · decide

end HostBytes

end Ket.Share
