import Ket.Lib.Url

/-!
# Origins of `http` and `https`

`OriginLib` is what is assumed of a URL library beyond `UrlLib`: it finds the parts of an `http`
origin, with a name or with an IPv6 literal, knows the loopback address, and does not refuse a name
whose labels are made of letters and digits.  A parser of origins that meets the assumptions is at
the end.
-/

namespace Ket.Lib.Web

open List

/-- A name whose labels are made of 1 to 63 lowercase letters and digits. -/
def isOrdinaryName (name : String) : Bool :=
  (name.toList.splitOn '.').all fun label =>
    decide (1 ≤ label.length ∧ label.length ≤ 63) && label.all fun c => c.isLower || c.isDigit

/-- The characters of an IPv6 address in hexadecimal. -/
def isIpv6Char (c : Char) : Bool := c.isDigit || decide ('a' ≤ c ∧ c ≤ 'f') || c == ':'

/-- What may stand in front of the port: a plain name, or an IPv6 address in brackets. -/
inductive OriginHost : String → Prop where
  | name {name : String} (h : isPlainName name = true) : OriginHost name
  | literal {address : String} (h : address.toList.all isIpv6Char = true) :
      OriginHost ("[" ++ address ++ "]")

/-- A URL library that knows the origins of both schemes. -/
structure OriginLib extends UrlLib where
  domainToAscii_ordinary : ∀ {name : String}, isOrdinaryName name = true →
    domainToAscii name = some name
  ipv6_loopback : ipv6 "::1" = some 1
  parse_http : ∀ {host : String} {port : Option UInt16}, OriginHost host → port ≠ some 80 →
    parse ("http://" ++ host ++ portSuffix port ++ "/")
      = (toHostLib.parseHost host).map (webUrl "http" port)

lemma isPlainName_of_isOrdinaryName {name : String} (h : isOrdinaryName name = true) :
    isPlainName name = true := by
  have hlabels := all_eq_true.mp h
  have hne : name ≠ "" := by
    rintro rfl
    cases h
  have hchars : name.toList.all isNameChar = true := by
    refine all_eq_true.mpr fun c hc => ?_
    rcases Text.mem_splitOn (a := '.') hc with rfl | ⟨label, hlabel, hmem⟩
    · rfl
    · have hall := all_eq_true.mp (Bool.and_eq_true_iff.mp (hlabels label hlabel)).2 c hmem
      rw [isNameChar, hall]
      rfl
  simp [isPlainName, hne, hchars]

/-- The host parser on an ordinary name. -/
lemma OriginLib.parseHost_of_isOrdinaryName (U : OriginLib) {name : String}
    (h : isOrdinaryName name = true) : U.parseHost name = if endsInANumber (Str.bytes name) then
      (parseIpv4 (Str.bytes name)).map .ipv4 else some (.domain name) := by
  rw [U.parseHost_of_isPlainName (isPlainName_of_isOrdinaryName h), U.domainToAscii_ordinary h,
    Option.bind_some]

/-! ### A library that meets the assumptions -/

/-- The host in front of the port, and the rest. -/
def splitAuthority (authority : List Char) : List Char × List Char :=
  if authority.head? = some '[' then
    (authority.takeWhile (· != ']') ++ [']'], (authority.dropWhile (· != ']')).tail)
  else (authority.takeWhile (· != ':'), authority.dropWhile (· != ':'))

/-- A port behind a colon; the default port is not kept. -/
def parsePortSuffix (default : UInt16) : List Char → Option (Option UInt16)
  | [] => some none
  | ':' :: digits => do
      let n ← Text.parseU64 digits
      if 2 ^ 16 ≤ n then none
      else some (if n = default.toNat then none else some (UInt16.ofNat n))
  | _ => none

/-- The schemes and their default ports. -/
def schemes : List (String × UInt16) := [("http", 80), ("https", 443)]

/-- A parser that knows origins only. -/
def parseWeb (L : HostLib) (text : String) : Option Url :=
  match text.toList.splitOn '/' with
  | [scheme, [], authority, []] => do
      let (scheme, default) ← schemes.find? fun s => s.1.toList ++ [':'] == scheme
      let (host, rest) := splitAuthority authority
      let port ← parsePortSuffix default rest
      (L.parseHost (String.ofList host)).map (webUrl scheme port)
  | _ => none

variable {port : Option UInt16}

lemma parseU64_port (port : UInt16) :
    Text.parseU64 (Nat.toDigits 10 port.toNat) = some port.toNat := by
  have hlt : port.toNat < 2 ^ 16 := port.toNat_lt
  refine Text.parseU64_decimal ?_
  rw [Text.u64Limit]
  omega

lemma parsePortSuffix_portSuffix {default : UInt16}
    (h : port ≠ some default) : parsePortSuffix default (portSuffix port).toList = some port := by
  cases port with
  | none => rfl
  | some port =>
    have hlt : port.toNat < 2 ^ 16 := port.toNat_lt
    have hne : port.toNat ≠ default.toNat := fun heq =>
      h (congrArg some (UInt16.toNat_inj.mp heq))
    have htext : (portSuffix (some port)).toList = ':' :: Nat.toDigits 10 port.toNat := by
      simp [portSuffix, String.toList_append, Nat.repr_eq_ofList_toDigits]
    simp only [htext, parsePortSuffix, parseU64_port, Option.bind_eq_bind, Option.bind_some,
      if_neg (Nat.not_le.mpr hlt), if_neg hne, UInt16.ofNat_toNat]

/-- The rest of the authority is empty or starts with a colon. -/
lemma head?_portSuffix {c : Char} (h : (portSuffix port).toList.head? = some c) : c = ':' := by
  cases port with
  | none => cases h
  | some port =>
    rw [portSuffix, String.toList_append] at h
    cases h
    rfl

lemma takeWhile_append_of_head {p : Char → Bool} {l : List Char} (hl : ∀ c ∈ l, p c = true)
    {rest : List Char} (hrest : ∀ c, rest.head? = some c → p c = false) :
    (l ++ rest).takeWhile p = l ∧ (l ++ rest).dropWhile p = rest := by
  rw [takeWhile_append_of_pos hl, dropWhile_append_of_pos hl]
  cases rest with
  | nil => exact ⟨by simp, rfl⟩
  | cons c rest => simp [hrest c rfl]

lemma splitAuthority_append {host : String} (h : OriginHost host) (port : Option UInt16) :
    splitAuthority (host.toList ++ (portSuffix port).toList)
      = (host.toList, (portSuffix port).toList) := by
  cases h with
  | name hname =>
    have hchars := isNameChar_of_isPlainName hname
    have hne : host.toList ≠ [] := by
      intro hnil
      simp [isPlainName, String.toList_eq_nil_iff.mp hnil] at hname
    obtain ⟨c, rest, hhost⟩ := exists_cons_of_ne_nil hne
    have hbracket : (host.toList ++ (portSuffix port).toList).head? ≠ some '[' := by
      rw [hhost]
      rintro ⟨⟩
      exact absurd (hchars '[' (by rw [hhost]; exact mem_cons_self)) (by decide)
    have hcolon : ∀ c ∈ host.toList, (c != ':') = true := by
      intro c hc
      rw [bne_iff_ne]
      rintro rfl
      exact absurd (hchars _ hc) (by decide)
    have hport : ∀ c, (portSuffix port).toList.head? = some c → (c != ':') = false := by
      intro c hc
      rw [head?_portSuffix hc]
      rfl
    obtain ⟨htake, hdrop⟩ := takeWhile_append_of_head hcolon hport
    rw [splitAuthority, if_neg hbracket, htake, hdrop]
  | @literal address haddress =>
    have hchars := all_eq_true.mp haddress
    have htext : ("[" ++ address ++ "]").toList ++ (portSuffix port).toList
        = ('[' :: address.toList) ++ (']' :: (portSuffix port).toList) := by
      simp [String.toList_append]
    have hclosing : ∀ c ∈ '[' :: address.toList, (c != ']') = true := by
      intro c hc
      rw [bne_iff_ne]
      rintro rfl
      rcases mem_cons.mp hc with hc | hc
      · cases hc
      · exact absurd (hchars _ hc) (by decide)
    have hport : ∀ c, (']' :: (portSuffix port).toList).head? = some c → (c != ']') = false := by
      intro c hc
      cases hc
      rfl
    obtain ⟨htake, hdrop⟩ := takeWhile_append_of_head hclosing hport
    have hbracket : (('[' :: address.toList) ++ (']' :: (portSuffix port).toList)).head?
        = some '[' := rfl
    rw [htext, splitAuthority, if_pos hbracket, htake, hdrop]
    simp [String.toList_append]

lemma slash_not_mem_originHost {host : String} (h : OriginHost host) : '/' ∉ host.toList := by
  intro hmem
  cases h with
  | name hname => exact absurd (isNameChar_of_isPlainName hname _ hmem) (by decide)
  | literal haddress =>
    simp only [String.toList_append, mem_append] at hmem
    rcases hmem with (hmem | hmem) | hmem
    · exact absurd hmem (by decide)
    · exact absurd (all_eq_true.mp haddress _ hmem) (by decide)
    · exact absurd hmem (by decide)

lemma slash_not_mem_portSuffix (port : Option UInt16) : '/' ∉ (portSuffix port).toList := by
  cases port with
  | none => exact not_mem_nil
  | some port =>
    intro hmem
    rw [portSuffix, String.toList_append] at hmem
    rcases mem_append.mp hmem with hmem | hmem
    · exact absurd hmem (by decide)
    · rw [Nat.toString_eq_repr, Nat.repr_eq_ofList_toDigits, String.toList_ofList] at hmem
      exact absurd (Text.isDigit_of_mem_decimal hmem) (by decide)

/-- The parts of an origin are found. -/
lemma parseWeb_origin {L : HostLib} {scheme : String} {default : UInt16}
    (hscheme : (scheme, default) ∈ schemes) {host : String} (hhost : OriginHost host)
    (hport : port ≠ some default) :
    parseWeb L (scheme ++ "://" ++ host ++ portSuffix port ++ "/")
      = (L.parseHost host).map (webUrl scheme port) := by
  have hslash : '/' ∉ host.toList ++ (portSuffix port).toList := fun hmem =>
    (mem_append.mp hmem).elim (slash_not_mem_originHost hhost)
      (slash_not_mem_portSuffix port)
  have hfind : '/' ∉ scheme.toList ++ [':'] ∧
      (schemes.find? fun s => s.1.toList ++ [':'] == scheme.toList ++ [':'])
        = some (scheme, default) := by
    simp only [schemes, mem_cons, Prod.mk.injEq, not_mem_nil, or_false] at hscheme
    rcases hscheme with ⟨rfl, rfl⟩ | ⟨rfl, rfl⟩
    · decide
    · decide
  have hsplit : (scheme ++ "://" ++ host ++ portSuffix port ++ "/").toList.splitOn '/'
      = [scheme.toList ++ [':'], [], host.toList ++ (portSuffix port).toList, []] := by
    have htext : (scheme ++ "://" ++ host ++ portSuffix port ++ "/").toList
        = (scheme.toList ++ [':']) ++ '/' :: ([] ++ '/' ::
          ((host.toList ++ (portSuffix port).toList) ++ '/' :: [])) := by
      simp [String.toList_append]
    rw [htext, splitOn_append_cons_self_of_not_mem hfind.1,
      splitOn_append_cons_self_of_not_mem (by simp),
      splitOn_append_cons_self_of_not_mem hslash]
    rfl
  simp only [parseWeb, hsplit, hfind.2, splitAuthority_append hhost,
    parsePortSuffix_portSuffix hport, Option.bind_eq_bind, Option.bind_some, String.ofList_toList]

/-- Plain names are kept, and all others refused; the loopback address is known. -/
def webHosts : HostLib where
  ipv6 text := if text = "::1" then some 1 else none
  domainToAscii name := if isPlainName name then some name else none

/-- The assumptions can be met. -/
def webUrls : OriginLib where
  toHostLib := webHosts
  parse := parseWeb webHosts
  domainToAscii_eq h hascii := by
    simp only [webHosts, if_pos h, Option.some.injEq] at hascii
    exact hascii.symm
  parse_https h hport :=
    parseWeb_origin (by decide : ("https", (443 : UInt16)) ∈ schemes) (.name h) hport
  domainToAscii_ordinary h := if_pos (isPlainName_of_isOrdinaryName h)
  ipv6_loopback := rfl
  parse_http h hport := parseWeb_origin (by decide : ("http", (80 : UInt16)) ∈ schemes) h hport

end Ket.Lib.Web
