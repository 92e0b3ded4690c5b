import Ket.Lib.Str
import Ket.Lib.Text

/-!
# Hosts the way the URL standard reads them

The host parser of the URL standard decides by the last label whether a host is a name or an IPv4
address: a last label that is a number, in decimal, in octal or with `0x` in hexadecimal, makes the
whole host an address, and a host that then is no address is refused.

Parsing of whole URLs, of IPv6 literals and of international names is left to a library.  `UrlLib`
is what is assumed of it: names of lowercase letters, digits, hyphens and dots are not rewritten,
and the parts of an `https` origin with such a name are found.
-/

namespace Ket.Lib.Web

open List Option
open Text (Ipv4Addr)

/-! ### IPv4 addresses -/

/-- The value of a byte as a digit of the radix. -/
def digitValue (radix : ℕ) (b : UInt8) : Option ℕ :=
  let value :=
    if 0x30 ≤ b ∧ b ≤ 0x39 then some (b.toNat - 0x30)
    else if 0x61 ≤ b ∧ b ≤ 0x66 then some (b.toNat - 0x61 + 10)
    else if 0x41 ≤ b ∧ b ≤ 0x46 then some (b.toNat - 0x41 + 10)
    else none
  value.filter (· < radix)

/-- The number that the digits stand for; no digits stand for zero. -/
def ofDigits (radix : ℕ) (digits : List UInt8) : Option ℕ :=
  digits.foldlM (fun n b => (digitValue radix b).map fun d => n * radix + d) 0

/-- A text that starts with `0x` or `0X`. -/
def isHexPrefixed (part : List UInt8) : Bool :=
  part.take 2 == [0x30, 0x78] || part.take 2 == [0x30, 0x58]

/-- The IPv4 number parser: a leading zero stands for octal and `0x` for hexadecimal. -/
def ipv4Number (part : List UInt8) : Option ℕ :=
  if part = [] then none
  else if isHexPrefixed part then ofDigits 16 (part.drop 2)
  else if part.head? = some 0x30 ∧ 2 ≤ part.length then ofDigits 8 (part.drop 1)
  else ofDigits 10 part

/-- The labels of a host, without the empty one that a dot at the end makes. -/
def labels (host : List UInt8) : List (List UInt8) :=
  let parts := host.splitOn 0x2e
  if parts.getLast? = some [] ∧ parts.length ≠ 1 then parts.dropLast else parts

/-- The ends-in-a-number checker. -/
def endsInANumber (host : List UInt8) : Bool :=
  (labels host).getLast?.any fun last =>
    (last != [] && last.all isAsciiDigit) || (ipv4Number last).isSome

/-- The address with the given number. -/
def ipv4OfNat (n : ℕ) : Ipv4Addr :=
  ⟨UInt8.ofNat (n / 256 ^ 3), UInt8.ofNat (n / 256 ^ 2), UInt8.ofNat (n / 256), UInt8.ofNat n⟩

/-- The IPv4 parser: every number but the last is an octet, and the last fills the rest. -/
def parseIpv4 (host : List UInt8) : Option Ipv4Addr := do
  let parts := labels host
  let numbers ← parts.mapM ipv4Number
  let last ← numbers.getLast?
  let octets := numbers.dropLast
  if 4 < parts.length ∨ octets.any (255 < ·) ∨ 256 ^ (5 - numbers.length) ≤ last then none
  else
    let high := octets.zipIdx.map fun (octet, i) => octet * 256 ^ (3 - i)
    some (ipv4OfNat (high.sum + last))

variable {b : UInt8} {digits : List UInt8} {radix : ℕ} {name : String}

/-- A byte that is no digit of the radix stops the number. -/
lemma ofDigits_eq_none (hmem : b ∈ digits) (hb : digitValue radix b = none) :
    ofDigits radix digits = none := by
  unfold ofDigits
  generalize 0 = n
  induction digits generalizing n with
  | nil => cases hmem
  | cons d digits ih =>
    rw [foldlM_cons]
    rcases mem_cons.mp hmem with rfl | hmem
    · rw [hb]
      rfl
    · cases hd : digitValue radix d with
      | none => rfl
      | some v => exact ih hmem _

/-- Digits of the radix make a number. -/
lemma isSome_ofDigits :
    (ofDigits radix digits).isSome = digits.all fun b => (digitValue radix b).isSome := by
  unfold ofDigits
  generalize 0 = n
  induction digits generalizing n with
  | nil => rfl
  | cons d digits ih =>
    rw [foldlM_cons, all_cons]
    cases hd : digitValue radix d with
    | none => rfl
    | some v => exact ih _

/-- A letter is no digit up to ten. -/
lemma digitValue_letter (hradix : radix ≤ 10) (hb : 0x61 ≤ b) : digitValue radix b = none := by
  have hdigit : ¬ (0x30 ≤ b ∧ b ≤ 0x39) := by
    rintro ⟨-, hle⟩
    exact absurd (UInt8.le_trans hb hle) (by decide)
  have hupper : ¬ (0x41 ≤ b ∧ b ≤ 0x46) := by
    rintro ⟨-, hle⟩
    exact absurd (UInt8.le_trans hb hle) (by decide)
  simp only [digitValue, if_neg hdigit, if_neg hupper]
  split
  · rw [filter_eq_none_iff]
    intro v hv
    cases hv
    simp only [decide_eq_true_eq]
    omega
  · rfl

/-- A part with a lowercase letter is a number exactly when it is one in hexadecimal. -/
lemma isSome_ipv4Number_of_letter {part : List UInt8} (hmem : b ∈ part) (hb : 0x61 ≤ b)
    (hhead : part.take 2 ≠ [0x30, 0x58]) : (ipv4Number part).isSome =
      (part.take 2 == [0x30, 0x78] && (part.drop 2).all fun b => (digitValue 16 b).isSome) := by
  have hne : part ≠ [] := ne_nil_of_mem hmem
  have hhex : isHexPrefixed part = (part.take 2 == [0x30, 0x78]) := by
    simp [isHexPrefixed, hhead]
  simp only [ipv4Number, if_neg hne, hhex]
  by_cases hprefix : (part.take 2 == [0x30, 0x78]) = true
  · rw [if_pos hprefix, hprefix, isSome_ofDigits, Bool.true_and]
  · have hfalse := Bool.eq_false_iff.mpr hprefix
    rw [if_neg hprefix, hfalse, Bool.false_and]
    split
    · -- octal: the letter is not the zero in front
      rename_i hoctal
      obtain ⟨rest, rfl⟩ : ∃ rest, part = 0x30 :: rest := by
        cases part with
        | nil => cases hmem
        | cons c rest =>
          obtain rfl : c = 0x30 := by simpa using hoctal.1
          exact ⟨rest, rfl⟩
      have hrest : b ∈ rest := by
        rcases mem_cons.mp hmem with rfl | h
        · exact absurd hb (by decide)
        · exact h
      rw [drop_one, tail_cons, ofDigits_eq_none hrest (digitValue_letter (by omega) hb)]
      rfl
    · rw [ofDigits_eq_none hmem (digitValue_letter le_rfl hb)]
      rfl

/-! ### Hosts and URLs -/

inductive Host where
  | domain (name : String)
  | ipv4 (address : Ipv4Addr)
  | ipv6 (address : BitVec 128)
deriving DecidableEq

/-- A parsed URL.  A port that is the default of its scheme is not kept. -/
structure Url where
  scheme : String
  username : String
  password : Option String
  host : Option Host
  port : Option UInt16
  path : String
  query : Option String
  fragment : Option String
deriving DecidableEq

/-- `Url::port_or_known_default`. -/
def Url.portOrKnownDefault (url : Url) : Option UInt16 :=
  url.port.or <|
    if url.scheme = "http" ∨ url.scheme = "ws" then some 80
    else if url.scheme = "https" ∨ url.scheme = "wss" then some 443
    else if url.scheme = "ftp" then some 21
    else none

/-- What the host parser takes from elsewhere. -/
structure HostLib where
  /-- The IPv6 parser, on what stands between the brackets. -/
  ipv6 : String → Option (BitVec 128)
  /-- Percent-decoding and the conversion of an international name. -/
  domainToAscii : String → Option String

/-- The host parser. -/
def HostLib.parseHost (L : HostLib) (host : String) : Option Host :=
  if host.toList.head? = some '[' then
    if host.toList.getLast? = some ']' then
      (L.ipv6 (String.ofList host.toList.tail.dropLast)).map .ipv6
    else none
  else do
    let ascii ← L.domainToAscii host
    if endsInANumber (Str.bytes ascii) then (parseIpv4 (Str.bytes ascii)).map .ipv4
    else some (.domain ascii)

/-- A character of a plain name: a lowercase letter, a digit, a hyphen or a dot. -/
def isNameChar (c : Char) : Bool := c.isLower || c.isDigit || c == '-' || c == '.'

/-- A text of such characters. -/
def isPlainName (name : String) : Bool := name != "" && name.toList.all isNameChar

def portSuffix : Option UInt16 → String
  | none => ""
  | some port => ":" ++ toString port.toNat

/-- The bytes of a port in a URL: digits behind a colon. -/
lemma bytes_portSuffix (port : Option UInt16) : (Str.bytes (portSuffix port)).length ≤ 6 ∧
      ∀ b ∈ Str.bytes (portSuffix port), 0x30 ≤ b.toNat ∧ b.toNat ≤ 0x3a := by
  cases port with
  | none => exact ⟨by decide, nofun⟩
  | some port =>
    have hdigit : ∀ c ∈ (toString port.toNat).toList, 0x30 ≤ c.toNat ∧ c.toNat ≤ 0x39 := by
      intro c hc
      rw [Nat.toString_eq_repr, Nat.repr_eq_ofList_toDigits, String.toList_ofList] at hc
      have hisDigit := Text.isDigit_of_mem_decimal hc
      simpa [Char.isDigit, UInt32.le_iff_toNat_le] using hisDigit
    have hbytes : Str.bytes (toString port.toNat)
        = (toString port.toNat).toList.map fun c => UInt8.ofNat c.toNat := by
      refine Str.bytes_of_ascii fun c hc => ?_
      have := (hdigit c hc).2
      omega
    have hlength : (toString port.toNat).toList.length ≤ 5 := by
      rw [Nat.toString_eq_repr, Nat.repr_eq_ofList_toDigits, String.toList_ofList,
        Nat.length_toDigits_le_iff (by decide) (by decide)]
      have : port.toNat < 2 ^ 16 := port.toNat_lt
      omega
    rw [portSuffix, Str.bytes_append, hbytes]
    refine ⟨?_, fun b hb => ?_⟩
    · rw [length_append, length_map]
      exact Nat.add_le_add (by decide : (Str.bytes ":").length ≤ 1) hlength
    · rcases mem_append.mp hb with hb | hb
      · have hcolon : Str.bytes ":" = [0x3a] := by decide
        rw [hcolon, mem_singleton] at hb
        exact hb ▸ by decide
      · obtain ⟨c, hc, rfl⟩ := mem_map.mp hb
        have := hdigit c hc
        rw [UInt8.toNat_ofNat']
        omega

/-- The URL of an origin. -/
def webUrl (scheme : String) (port : Option UInt16) (host : Host) : Url :=
  ⟨scheme, "", none, some host, port, "/", none, none⟩

/-- A URL library. -/
structure UrlLib extends HostLib where
  parse : String → Option Url
  /-- A plain name may be refused, but is not rewritten. -/
  domainToAscii_eq : ∀ {name ascii : String}, isPlainName name = true →
    domainToAscii name = some ascii → ascii = name
  /-- The parts of an `https` origin with a plain name. -/
  parse_https : ∀ {name : String} {port : Option UInt16}, isPlainName name = true →
    port ≠ some 443 → parse ("https://" ++ name ++ portSuffix port ++ "/")
      = (toHostLib.parseHost name).map (webUrl "https" port)

/-- A parser of URLs that takes slashes at the end of a web address as part of the path. -/
structure UrlParser where
  parse : String → Option Url
  parse_trimEndMatches : ∀ {text : String} {url : Url}, parse text = some url →
    url.scheme = "http" ∨ url.scheme = "https" → url.host.isSome = true → url.query = none →
    url.fragment = none → ∃ path, parse (Str.trimEndMatches '/' text) = some { url with path }

lemma isNameChar_of_isPlainName (h : isPlainName name = true) :
    ∀ c ∈ name.toList, isNameChar c = true :=
  all_eq_true.mp (Bool.and_eq_true_iff.mp h).2

/-- The host parser on a plain name. -/
lemma UrlLib.parseHost_of_isPlainName (U : UrlLib) (h : isPlainName name = true) :
    U.parseHost name = (U.domainToAscii name).bind fun _ =>
      if endsInANumber (Str.bytes name) then (parseIpv4 (Str.bytes name)).map .ipv4
      else some (.domain name) := by
  have hbracket : name.toList.head? ≠ some '[' := by
    intro hhead
    have hchar := isNameChar_of_isPlainName h '[' (mem_of_mem_head? hhead)
    exact absurd hchar (by decide)
  rw [HostLib.parseHost, if_neg hbracket]
  cases hascii : U.domainToAscii name with
  | none => rfl
  | some ascii =>
    obtain rfl := U.domainToAscii_eq h hascii
    rfl

end Ket.Lib.Web
