import Ket.Invite.PrivateHost

/-!
# A locator from its own URL (`invite-capsule/src/locator`)

A valid locator is read back from its base URL, with the four kinds of hosts and with or without the
default port.
-/

namespace Ket.Invite

open Ket.Lib Ket.Lib.Web

variable {U : OriginLib} {H : PrivateLib} {E : Ed25519} {host : String} {port : UInt16} {l : Locator}

/-! ### Origins of `http` -/

/-- The host as it stands in a URL. -/
def bracketed (host : String) : String :=
  if ':' ∈ host.toList then "[" ++ host ++ "]" else host

lemma authority_http (host : String) (port : UInt16) :
    authority host port 80 = bracketed host ++ portSuffix (shownPort 80 port) := by
  simp only [authority, bracketed, shownPort]
  by_cases hport : port = 80
  · rw [if_pos hport, if_pos hport, portSuffix, String.append_empty]
  · rw [if_neg hport, if_neg hport, portSuffix, String.append_assoc]

lemma baseUrl_http (hscheme : l.scheme "https" "http" = "http")
    (hhost : l.displayHost H = authority host port 80) :
    l.baseUrl H = "http://" ++ bracketed host ++ portSuffix (shownPort 80 port) ++ "/" := by
  have hstart : ("http" ++ "://" : String) = "http://" := by decide
  simp only [Locator.baseUrl, Locator.origin, hscheme, hhost, authority_http, hstart,
    String.append_assoc]

/-- A host as the URL library reads it, in the URL of a locator. -/
structure HttpHost (U : OriginLib) (host : String) (read : Host) : Prop where
  origin : OriginHost (bracketed host)
  bytes : ∀ b ∈ Str.bytes (bracketed host), 0x2d ≤ b.toNat ∧ b.toNat ≤ 0x7a
  length : (Str.bytes (bracketed host)).length ≤ maxHostBytes
  parse : U.parseHost (bracketed host) = some read

/-- A locator of `http` is read back when its host and its port give the locator. -/
lemma fromPublicUrl_http {read : Host} (hread : HttpHost U host read)
    (hscheme : l.scheme "https" "http" = "http") (hhost : l.displayHost H = authority host port 80)
    (hlocator : locatorOf H E "http" read port = .ok l) (hvalid : l.isValid E = true) :
    fromPublicUrl U.toUrlLib H E (l.baseUrl H) = .ok l := by
  have htext := isUrlText_origin (.inl rfl) hread.bytes hread.length (shownPort 80 port)
  rw [baseUrl_http hscheme hhost,
    fromPublicUrl_of_parse htext (U.parse_http hread.origin (shownPort_ne 80 port))
      (fun _ => portOrKnownDefault_shownPort rfl port), hread.parse, okOr_some]
  show (locatorOf H E "http" read port >>= _) = _
  rw [hlocator]
  show (l.validate E >>= _) = _
  rw [Locator.validate, hvalid]
  rfl

/-! ### The four kinds of hosts -/

lemma bracketed_of_isPlainName (h : isPlainName host = true) : bracketed host = host := by
  refine if_neg fun hmem => ?_
  exact absurd (isNameChar_of_isPlainName h _ hmem) (by decide)

/-- The loopback hosts, as the URL library reads them. -/
def LoopbackHost.read : LoopbackHost → Host
  | localhost => .domain "localhost"
  | ipv4 => .ipv4 ⟨127, 0, 0, 1⟩
  | ipv6 => .ipv6 1
  | androidEmulator => .ipv4 ⟨10, 0, 2, 2⟩

lemma httpHost_of_isOrdinaryName {read : Host} (h : isOrdinaryName host = true)
    (hbytes : ∀ b ∈ Str.bytes host, 0x2d ≤ b.toNat ∧ b.toNat ≤ 0x7a)
    (hlength : (Str.bytes host).length ≤ maxHostBytes)
    (hread : (if endsInANumber (Str.bytes host) then (parseIpv4 (Str.bytes host)).map .ipv4
      else some (.domain host)) = some read) : HttpHost U host read := by
  have hplain := isPlainName_of_isOrdinaryName h
  have hshown := bracketed_of_isPlainName hplain
  refine ⟨?_, ?_, ?_, ?_⟩
  all_goals rw [hshown]
  · exact .name hplain
  · exact hbytes
  · exact hlength
  · rw [U.parseHost_of_isOrdinaryName h, hread]

lemma httpHost_loopback (h : LoopbackHost) : HttpHost U h.asStr h.read := by
  cases h with
  | ipv6 =>
    have hshown : bracketed "::1" = "[" ++ "::1" ++ "]" := by decide
    refine ⟨?_, by decide +kernel, by decide +kernel, ?_⟩
    · exact hshown ▸ .literal (by decide)
    · show (U.ipv6 "::1").map Host.ipv6 = _
      rw [U.ipv6_loopback]
      rfl
  | _ =>
    exact httpHost_of_isOrdinaryName (by decide +kernel) (by decide +kernel) (by decide +kernel)
      (by decide)

lemma httpHost_of_privateName (h : PrivateName host) : HttpHost U host (.domain host) :=
  httpHost_of_isOrdinaryName h.ordinary h.bytes h.length (by rw [h.not_number]; rfl)

lemma locatorOf_loopback (h : LoopbackHost) (port : UInt16) :
    locatorOf H E "http" h.read port = .ok (.loopbackDevelopment h port) := by
  cases h with
  | localhost =>
    have honion : Str.endsWith "localhost" ".onion" = false := by decide
    have hi2p : Str.endsWith "localhost" ".i2p" = false := by decide
    simp only [LoopbackHost.read, locatorOf, honion, hi2p, Bool.false_eq_true, if_false]
    rfl
  | _ => rfl

lemma endsWith_append (r t : String) : Str.endsWith (r ++ t) t = true := by
  rw [Str.endsWith, Str.bytes_append, List.isSuffixOf_iff_suffix]
  exact List.suffix_append _ _

lemma locatorOf_onion {key : Vector UInt8 32} (h : validOnionKey E key = true) :
    locatorOf H E "http" (.domain (onionHost H key)) port = .ok (.onionV3 key port) := by
  have honion : Str.endsWith (onionHost H key) ".onion" = true := endsWith_append _ _
  simp only [locatorOf, honion, if_true, parseOnionHost_eq_ok_iff.mpr ⟨rfl, h⟩]
  rfl

/-- An I2P host does not end like an onion host. -/
lemma endsWith_i2pHost (H : PrivateLib) (hash : Vector UInt8 32) :
    Str.endsWith (i2pHost H hash) ".onion" = false ∧
      Str.endsWith (i2pHost H hash) ".i2p" = true := by
  have hi2p : i2pHost H hash = encodeBase32 H hash.toList ++ ".b32" ++ ".i2p" := by
    rw [String.append_assoc]
    rfl
  constructor
  · refine Bool.eq_false_iff.mpr fun hend => ?_
    obtain ⟨u, hu⟩ := List.isSuffixOf_iff_suffix.mp hend
    have hlast := congrArg List.getLast? hu
    have honion : Str.bytes ".onion" = [0x2e, 0x6f, 0x6e, 0x69, 0x6f] ++ [0x6e] := by decide
    have hbytes : Str.bytes ".i2p" = [0x2e, 0x69, 0x32] ++ [0x70] := by decide
    rw [hi2p, Str.bytes_append, honion, hbytes, ← List.append_assoc, ← List.append_assoc,
      List.getLast?_concat, List.getLast?_concat] at hlast
    exact absurd hlast (by decide)
  · rw [hi2p]
    exact endsWith_append _ _

lemma locatorOf_i2p {hash : Vector UInt8 32} (h : hash ≠ Vector.replicate 32 0) :
    locatorOf H E "http" (.domain (i2pHost H hash)) port = .ok (.i2pB32 hash port) := by
  obtain ⟨honion, hi2p⟩ := endsWith_i2pHost H hash
  simp only [locatorOf, honion, hi2p, Bool.false_eq_true, if_false, if_true,
    parseI2pHost_eq_ok_iff.mpr ⟨rfl, h⟩]
  rfl

/-- The host of an HTTPS locator is a name for the URL standard. -/
def Locator.NamesHost (U : UrlLib) : Locator → Prop
  | .https host _ => endsInANumber (Str.bytes host) = false ∧ (U.domainToAscii host).isSome = true
  | _ => True

lemma fromPublicUrl_https (hname : (Locator.https host port).NamesHost U.toUrlLib)
    (hvalid : (Locator.https host port).isValid E = true) :
    fromPublicUrl U.toUrlLib H E ((Locator.https host port).baseUrl H)
      = .ok (.https host port) := by
  have hpublic := publicName_of_valid (Bool.and_eq_true_iff.mp hvalid).2
  obtain ⟨hnumber, hascii⟩ := hname
  obtain ⟨ascii, hascii⟩ := Option.isSome_iff_exists.mp hascii
  have hparse : U.parseHost host = some (.domain host) := by
    rw [U.parseHost_of_isPlainName hpublic.isPlainName, hascii, Option.bind_some, hnumber]
    rfl
  rw [fromPublicUrl_baseUrl hpublic, hparse, okOr_some]
  show (locatorOf H E "https" (.domain host) port >>= _) = _
  rw [locatorOf_domain hpublic]
  show ((Locator.https host port).validate E >>= _) = _
  rw [Locator.validate, hvalid]
  rfl

lemma fromPublicUrl_of_isValid (hname : l.NamesHost U.toUrlLib) (hvalid : l.isValid E = true) :
    fromPublicUrl U.toUrlLib H E (l.baseUrl H) = .ok l := by
  cases l with
  | https host port => exact fromPublicUrl_https hname hvalid
  | loopbackDevelopment h port =>
    exact fromPublicUrl_http (httpHost_loopback h) rfl rfl (locatorOf_loopback h port) hvalid
  | onionV3 key port =>
    exact fromPublicUrl_http (httpHost_of_privateName (privateName_onionHost key)) rfl rfl
      (locatorOf_onion (Bool.and_eq_true_iff.mp hvalid).2) hvalid
  | i2pB32 hash port =>
    exact fromPublicUrl_http (httpHost_of_privateName (privateName_i2pHost hash)) rfl rfl
      (locatorOf_i2p (of_decide_eq_true (Bool.and_eq_true_iff.mp hvalid).2)) hvalid

/-! ### From a URL to the host and back -/

/-- The host of an accepted URL, and the locator it gives. -/
lemma of_fromPublicUrl {U : UrlLib} {value : String} (h : fromPublicUrl U H E value = .ok l) :
    ∃ url host port, U.parse value = some url ∧ url.host = some host ∧
      locatorOf H E url.scheme host port = .ok l := by
  obtain ⟨-, h⟩ := require_bind_eq_ok.mp h
  obtain ⟨url, hurl, h⟩ := bind_eq_ok.mp h
  obtain ⟨-, h⟩ := require_bind_eq_ok.mp h
  obtain ⟨host, hhost, h⟩ := bind_eq_ok.mp h
  obtain ⟨port, -, h⟩ := bind_eq_ok.mp h
  obtain ⟨l', hl', h⟩ := bind_eq_ok.mp h
  obtain ⟨_, -, h⟩ := bind_eq_ok.mp h
  cases h
  exact ⟨url, host, port, okOr_eq_ok.mp hurl, okOr_eq_ok.mp hhost, hl'⟩

/-- What is neither an onion nor an I2P host gives a locator of another kind. -/
lemma other_of_locatorOf {scheme : String} {host : Host} {port : UInt16}
    (h : locatorOf H E scheme host port = .ok l) :
    (∃ name key, host = .domain name ∧ parseOnionHost H E name = .ok key ∧ l = .onionV3 key port) ∨
      (∃ name hash, host = .domain name ∧ parseI2pHost H name = .ok hash ∧ l = .i2pB32 hash port) ∨
      (∃ name, l = .https name port) ∨ ∃ h, l = .loopbackDevelopment h port := by
  have hother : ∀ host : Host, (if scheme = "http" then do
        return Locator.loopbackDevelopment (← loopback host) port
      else if scheme = "https" then Except.error CapsuleError.unsafeLocator
      else Except.error CapsuleError.unsupportedLocator) = .ok l →
      ∃ h, l = .loopbackDevelopment h port := by
    intro host hl
    split_ifs at hl
    obtain ⟨read, -, hl⟩ := bind_eq_ok.mp hl
    cases hl
    exact ⟨read, rfl⟩
  cases host with
  | domain name =>
    simp only [locatorOf] at h
    split_ifs at h with honion hi2p hhttps hhttp
    · obtain ⟨_, -, h⟩ := bind_eq_ok.mp h
      obtain ⟨key, hkey, h⟩ := bind_eq_ok.mp h
      cases h
      exact .inl ⟨name, key, rfl, hkey, rfl⟩
    · obtain ⟨_, -, h⟩ := bind_eq_ok.mp h
      obtain ⟨hash, hhash, h⟩ := bind_eq_ok.mp h
      cases h
      exact .inr (.inl ⟨name, hash, rfl, hhash, rfl⟩)
    · cases h
      exact .inr (.inr (.inl ⟨name, rfl⟩))
    · obtain ⟨read, -, h⟩ := bind_eq_ok.mp h
      cases h
      exact .inr (.inr (.inr ⟨read, rfl⟩))
  | _ => exact .inr (.inr (.inr (hother _ h)))

/-- **Locators and their URLs.**  A valid locator, whose host the URL standard takes for a name if
it is an HTTPS locator, is read back from its base URL.  An onion or I2P host is accepted exactly when
it is the text that is written for the key or the hash it gives, and so is the host of every URL
that is accepted for one. -/
theorem url_round_trip (U : OriginLib) (H : PrivateLib) (E : Ed25519) :
    (∀ l : Locator, l.isValid E = true → l.NamesHost U.toUrlLib →
        fromPublicUrl U.toUrlLib H E (l.baseUrl H) = .ok l) ∧
      (∀ host key, parseOnionHost H E host = .ok key ↔
        host = onionHost H key ∧ validOnionKey E key = true) ∧
      (∀ host hash, parseI2pHost H host = .ok hash ↔
        host = i2pHost H hash ∧ hash ≠ Vector.replicate 32 0) ∧
      (∀ value key port, fromPublicUrl U.toUrlLib H E value = .ok (.onionV3 key port) →
        ∃ url, U.parse value = some url ∧ url.host = some (.domain (onionHost H key))) ∧
      ∀ value hash port, fromPublicUrl U.toUrlLib H E value = .ok (.i2pB32 hash port) →
        ∃ url, U.parse value = some url ∧ url.host = some (.domain (i2pHost H hash)) := by
  refine ⟨fun l hvalid hname => fromPublicUrl_of_isValid hname hvalid,
    fun host key => parseOnionHost_eq_ok_iff, fun host hash => parseI2pHost_eq_ok_iff,
    fun value key port h => ?_, fun value hash port h => ?_⟩
  · obtain ⟨url, host, port', hparse, hhost, hlocator⟩ := of_fromPublicUrl h
    refine ⟨url, hparse, ?_⟩
    rcases other_of_locatorOf hlocator with ⟨name, key', rfl, hkey, hl⟩ | ⟨_, _, -, -, hl⟩ |
      ⟨_, hl⟩ | ⟨_, hl⟩
    · cases hl
      rw [hhost, (parseOnionHost_eq_ok_iff.mp hkey).1]
    all_goals cases hl
  · obtain ⟨url, host, port', hparse, hhost, hlocator⟩ := of_fromPublicUrl h
    refine ⟨url, hparse, ?_⟩
    rcases other_of_locatorOf hlocator with ⟨_, _, -, -, hl⟩ | ⟨name, hash', rfl, hhash, hl⟩ |
      ⟨_, hl⟩ | ⟨_, hl⟩
    · cases hl
    · cases hl
      rw [hhost, (parseI2pHost_eq_ok_iff.mp hhash).1]
    all_goals cases hl

namespace Sample

def onion : Locator := .onionV3 (Vector.replicate 32 1) 8080

def i2p : Locator := .i2pB32 (Vector.replicate 32 1) 80

lemma isValid_onion : onion.isValid noSignatures = true := by decide

lemma isValid_i2p : i2p.isValid noSignatures = true := by decide

end Sample

theorem url_round_trip_samples : fromPublicUrl webUrls.toUrlLib Sample.noHash Sample.noSignatures
        ((Locator.https "node.ket.net" 8443).baseUrl Sample.noHash)
        = .ok (.https "node.ket.net" 8443) ∧
      (∃ url, webUrls.parse (Sample.onion.baseUrl Sample.noHash) = some url ∧
        url.host = some (.domain (onionHost Sample.noHash (Vector.replicate 32 1)))) ∧
      ∃ url, webUrls.parse (Sample.i2p.baseUrl Sample.noHash) = some url ∧
        url.host = some (.domain (i2pHost Sample.noHash (Vector.replicate 32 1))) := by
  obtain ⟨hread, -, -, honion, hi2p⟩ := url_round_trip webUrls Sample.noHash Sample.noSignatures
  refine ⟨hread _ (by decide) ⟨by decide, by decide⟩, ?_, ?_⟩
  · exact honion _ _ _ (hread Sample.onion Sample.isValid_onion trivial)
  · exact hi2p _ _ _ (hread Sample.i2p Sample.isValid_i2p trivial)

end Ket.Invite
