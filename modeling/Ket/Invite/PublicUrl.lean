import Ket.Invite.Locator
import Ket.Lib.Encoding
import Ket.Lib.Origin

/-!
# Public URLs (`invite-capsule/src/locator`)

A locator is written as a URL, and a node's public URL is read into a locator.  The URL goes through
the parser of the URL standard, which has its own notion of a host: `accepted_again_iff` says for
which of the names that the locator policy accepts the two notions agree.
-/

namespace Ket.Invite

open Ket.Lib Ket.Lib.Web

/-! ### Onion and I2P addresses (`locator/private.rs`) -/

/-- What the codecs of private addresses take from libraries: SHA3-256 and `BASE32_NOPAD`. -/
structure PrivateLib where
  sha3 : List UInt8 → Vector UInt8 32
  base32 : Base32

/-- The characters that so many bytes take: `(n * 8).div_ceil(5)`. -/
def base32Length (n : ℕ) : ℕ := (n * 8 + 4) / 5

def isLowerBase32 (c : Char) : Bool := c.isLower || decide ('2' ≤ c ∧ c ≤ '7')

/-- `BASE32_NOPAD.encode`, in lowercase. -/
def encodeBase32 (H : PrivateLib) (bytes : List UInt8) : String :=
  String.ofList ((H.base32.encode bytes).map Char.toLower)

/-- `decode_base32`. -/
def decodeBase32 (H : PrivateLib) (n : ℕ) (text : String) :
    Except CapsuleError (Vector UInt8 n) := do
  require (decide (Str.len text = base32Length n) && text.toList.all isLowerBase32) .unsafeLocator
  let bytes ← okOr (H.base32.decode (text.toList.map Char.toUpper)) .unsafeLocator
  require (decide (encodeBase32 H bytes = text)) .unsafeLocator
  if h : bytes.length = n then return ⟨bytes.toArray, h⟩ else .error .unsafeLocator

def onionChecksum (H : PrivateLib) (key : Vector UInt8 32) : Vector UInt8 2 :=
  let digest := H.sha3 (Str.bytes ".onion checksum" ++ key.toList ++ [3])
  #v[digest[0], digest[1]]

def onionHost (H : PrivateLib) (key : Vector UInt8 32) : String :=
  encodeBase32 H (key ++ onionChecksum H key ++ (#v[3] : Vector UInt8 1)).toList ++ ".onion"

def parseOnionHost (H : PrivateLib) (E : Ed25519) (host : String) :
    Except CapsuleError (Vector UInt8 32) := do
  let label ← okOr (Str.stripSuffix host ".onion") .unsafeLocator
  let bytes ← decodeBase32 H 35 label
  let key : Vector UInt8 32 := Vector.ofFn fun i => bytes[i.val]
  require (decide (bytes[34] = 3 ∧ #v[bytes[32], bytes[33]] = onionChecksum H key)) .unsafeLocator
  require (validOnionKey E key) .unsafeLocator
  return key

variable {key : Vector UInt8 32} {checksum : Vector UInt8 2}

/-- The bytes of an onion address: the key, the checksum and the version. -/
lemma getElem_onionBytes {i : ℕ} (hi : i < 32 + 2 + 1) :
    (key ++ checksum ++ (#v[3] : Vector UInt8 1))[i] = if hkey : i < 32 then key[i]
      else if hsum : i - 32 < 2 then checksum[i - 32] else 3 := by
  rw [Vector.getElem_append]
  split
  · rename_i h34
    rw [Vector.getElem_append]
    split
    · rfl
    · rw [dif_pos (by omega)]
  · rename_i h34
    rw [dif_neg (by omega), dif_neg (by omega)]
    obtain rfl : i = 34 := by omega
    rfl

/-- The key, the checksum and the version of an onion address. -/
lemma onionBytes_iff {bytes : Vector UInt8 35} :
    bytes = key ++ checksum ++ (#v[3] : Vector UInt8 1) ↔
      (Vector.ofFn fun i : Fin 32 => bytes[i.val]) = key ∧ bytes[34] = 3 ∧
        #v[bytes[32], bytes[33]] = checksum := by
  constructor
  · rintro rfl
    refine ⟨?_, ?_, ?_⟩
    · apply Vector.ext
      intro i hi
      rw [Vector.getElem_ofFn, getElem_onionBytes (by omega), dif_pos hi]
    · rw [getElem_onionBytes (by omega)]
      rfl
    · rw [getElem_onionBytes (by omega), getElem_onionBytes (by omega)]
      apply Vector.ext
      intro i hi
      interval_cases i
      · rfl
      · rfl
  · rintro ⟨rfl, hversion, rfl⟩
    apply Vector.ext
    intro i hi
    rw [getElem_onionBytes hi]
    split
    · rw [Vector.getElem_ofFn]
    · rename_i hkey
      split
      · obtain rfl | rfl : i = 32 ∨ i = 33 := by omega
        · rfl
        · rfl
      · obtain rfl : i = 34 := by omega
        exact hversion

def i2pHost (H : PrivateLib) (hash : Vector UInt8 32) : String :=
  encodeBase32 H hash.toList ++ ".b32.i2p"

def parseI2pHost (H : PrivateLib) (host : String) : Except CapsuleError (Vector UInt8 32) := do
  let label ← okOr (Str.stripSuffix host ".b32.i2p") .unsafeLocator
  let hash ← decodeBase32 H 32 label
  require (decide (hash ≠ Vector.replicate 32 0)) .unsafeLocator
  return hash

/-! ### The URLs of a locator (`locator/mod.rs`) -/

def LoopbackHost.asStr : LoopbackHost → String
  | localhost => "localhost"
  | ipv4 => "127.0.0.1"
  | ipv6 => "::1"
  | androidEmulator => "10.0.2.2"

/-- An IPv6 address is put in brackets, and the default port is left out. -/
def authority (host : String) (port defaultPort : UInt16) : String :=
  let host := if ':' ∈ host.toList then "[" ++ host ++ "]" else host
  if port = defaultPort then host else host ++ ":" ++ toString port.toNat

namespace Locator

def displayHost (H : PrivateLib) : Locator → String
  | https host port => authority host port 443
  | loopbackDevelopment host port => authority host.asStr port 80
  | onionV3 serviceIdentity port => authority (onionHost H serviceIdentity) port 80
  | i2pB32 destinationHash port => authority (i2pHost H destinationHash) port 80

def scheme (tls plain : String) : Locator → String
  | https .. => tls
  | _ => plain

def origin (H : PrivateLib) (l : Locator) : String :=
  l.scheme "https" "http" ++ "://" ++ l.displayHost H

def baseUrl (H : PrivateLib) (l : Locator) : String := l.origin H ++ "/"

end Locator

/-! ### From a public URL (`locator/host.rs`) -/

def maxPublicUrlBytes : ℕ := 512

def isAsciiWhitespace (b : UInt8) : Bool := [0x09, 0x0a, 0x0c, 0x0d, 0x20].contains b

/-- A text of printable ASCII characters and of a bounded length. -/
def isUrlText (value : String) : Bool :=
  let bytes := Str.bytes value
  decide (bytes ≠ [] ∧ bytes.length ≤ maxPublicUrlBytes) &&
    bytes.all fun b => decide (b < 0x80 ∧ b ≠ 0) && !isAsciiWhitespace b

/-- No credentials, query, fragment, or path beyond `/`. -/
def isBare (url : Url) : Bool :=
  url.username == "" && url.password.isNone && url.query.isNone && url.fragment.isNone &&
    (url.path == "" || url.path == "/")

def requirePlainHttp (scheme : String) : Except CapsuleError Unit :=
  require (scheme == "http") .unsupportedLocator

def loopback : Host → Except CapsuleError LoopbackHost
  | .domain name => if name = "localhost" then .ok .localhost else .error .unsafeLocator
  | .ipv4 address =>
    if address.a = 127 then .ok .ipv4
    else if address = ⟨10, 0, 2, 2⟩ then .ok .androidEmulator
    else .error .unsafeLocator
  | .ipv6 address => if address = 1 then .ok .ipv6 else .error .unsafeLocator

/-- The locator that a scheme and a host stand for.  Literal remote addresses are excluded. -/
def locatorOf (H : PrivateLib) (E : Ed25519) (scheme : String) (host : Host) (port : UInt16) :
    Except CapsuleError Locator :=
  let other : Except CapsuleError Locator :=
    if scheme = "http" then do return .loopbackDevelopment (← loopback host) port
    else if scheme = "https" then .error .unsafeLocator
    else .error .unsupportedLocator
  match host with
  | .domain name =>
    if Str.endsWith name ".onion" then do
      requirePlainHttp scheme
      return .onionV3 (← parseOnionHost H E name) port
    else if Str.endsWith name ".i2p" then do
      requirePlainHttp scheme
      return .i2pB32 (← parseI2pHost H name) port
    else if scheme = "https" then .ok (.https name port)
    else other
  | _ => other

/-- `locator_from_public_url`. -/
def fromPublicUrl (U : UrlLib) (H : PrivateLib) (E : Ed25519) (value : String) :
    Except CapsuleError Locator := do
  require (isUrlText value) .unsafeLocator
  let url ← okOr (U.parse value) .unsafeLocator
  require (isBare url) .unsafeLocator
  let host ← okOr url.host .unsafeLocator
  let port ← okOr url.portOrKnownDefault .unsafeLocator
  let l ← locatorOf H E url.scheme host port
  l.validate E
  return l

/-! ### Names that end in a number -/

/-- The last label is `0x` with hexadecimal digits only, or with nothing, behind it. -/
def endsInHexNumber (host : String) : Bool :=
  ((Str.bytes host).splitOn 0x2e).getLast?.any fun label =>
    label.take 2 == [0x30, 0x78] && (label.drop 2).all fun b => (digitValue 16 b).isSome

variable {E : Ed25519} {U : UrlLib} {H : PrivateLib} {host : String} {port : UInt16}

/-- What an accepted name looks like. -/
structure PublicName (host : String) : Prop where
  ne_nil : Str.bytes host ≠ []
  length : (Str.bytes host).length ≤ maxHostBytes
  labels : ∀ label ∈ (Str.bytes host).splitOn 0x2e, validLabel label = true
  last : ∃ label, ((Str.bytes host).splitOn 0x2e).getLast? = some label ∧
    label.any isAsciiLowercase = true
  suffixes : ∀ suffix ∈ nonPublicSuffixes, Str.endsWith host ("." ++ suffix) = false

lemma publicName_of_valid (h : validPublicDnsName host = true) : PublicName host := by
  simp only [validPublicDnsName, Bool.and_eq_true, decide_eq_true_eq, List.all_eq_true,
    Option.any_eq_true, Bool.not_eq_true', List.any_eq_false, Bool.or_eq_true, not_or] at h
  obtain ⟨⟨⟨⟨⟨hne, hlength⟩, -⟩, hlabels⟩, label, hlast, hletter⟩, hsuffixes⟩ := h
  exact ⟨hne, hlength, hlabels, ⟨label, hlast, hletter⟩, fun suffix hmem =>
    Bool.eq_false_iff.mpr (hsuffixes suffix hmem).2⟩

namespace PublicName

/-- The bytes of a label, by their numbers. -/
lemma mem_label {label : List UInt8} {b : UInt8} (hlabel : validLabel label = true)
    (hb : b ∈ label) :
    0x61 ≤ b.toNat ∧ b.toNat ≤ 0x7a ∨ 0x30 ≤ b.toNat ∧ b.toNat ≤ 0x39 ∨ b.toNat = 0x2d := by
  simp only [validLabel, Bool.and_eq_true, List.all_eq_true, Bool.or_eq_true, beq_iff_eq,
    isAsciiLowercase, isAsciiDigit, decide_eq_true_eq, UInt8.le_iff_toNat_le] at hlabel
  rcases hlabel.2 b hb with (h | h) | rfl
  · exact .inl h
  · exact .inr (.inl h)
  · exact .inr (.inr rfl)

lemma mem_bytes (h : PublicName host) {b : UInt8} (hb : b ∈ Str.bytes host) :
    0x61 ≤ b.toNat ∧ b.toNat ≤ 0x7a ∨ 0x2d ≤ b.toNat ∧ b.toNat ≤ 0x39 ∧ b.toNat ≠ 0x2f := by
  rcases Text.mem_splitOn (a := 0x2e) hb with rfl | ⟨label, hlabel, hmem⟩
  · exact .inr (by decide)
  · rcases mem_label (h.labels label hlabel) hmem with h | h | h <;> omega

/-- An accepted name is a plain name for the URL library. -/
lemma isPlainName (h : PublicName host) : isPlainName host = true := by
  have hne : host ≠ "" := by
    rintro rfl
    exact h.ne_nil rfl
  have hchars : host.toList.all isNameChar = true := by
    refine List.all_eq_true.mpr fun c hc => ?_
    obtain ⟨b, hb, hchar⟩ := Str.exists_byte_of_mem hc
    have hrange := h.mem_bytes hb
    have hnat : c.toNat = b.toNat := hchar (by omega)
    have hlower : c.isLower = (decide ('a'.val ≤ c.val) && decide (c.val ≤ 'z'.val)) := rfl
    simp only [isNameChar, Bool.or_eq_true, beq_iff_eq, hlower, Char.isDigit,
      Bool.and_eq_true, decide_eq_true_eq, ge_iff_le, UInt32.le_iff_toNat_le, Char.toNat_val,
      ← Char.toNat_inj]
    rw [hnat]
    simp only [Char.reduceToNat]
    omega
  simp [Web.isPlainName, hne, hchars]

/-- Among the accepted names the URL standard takes those for addresses that end in `0x` and
hexadecimal digits: a last label with a letter is no number in decimal or octal. -/
lemma endsInANumber_eq (h : PublicName host) :
    endsInANumber (Str.bytes host) = endsInHexNumber host := by
  obtain ⟨label, hlast, hletter⟩ := h.last
  have hvalid : validLabel label = true := h.labels label (List.mem_of_getLast? hlast)
  obtain ⟨b, hb, hlower⟩ := List.any_eq_true.mp hletter
  have hle : 0x61 ≤ b := (by simpa [isAsciiLowercase] using hlower : 0x61 ≤ b ∧ b ≤ 0x7a).1
  have hne : label ≠ [] := List.ne_nil_of_mem hb
  have hlabels : Web.labels (Str.bytes host) = (Str.bytes host).splitOn 0x2e := by
    simp only [Web.labels, hlast, Option.some.injEq, hne, false_and, if_false]
  have hdigits : label.all isAsciiDigit = false := by
    refine List.all_eq_false.mpr ⟨b, hb, ?_⟩
    simp only [isAsciiDigit, Bool.and_eq_true, decide_eq_true_eq, not_and]
    intro _ hdigit
    exact absurd (UInt8.le_trans hle hdigit) (by decide)
  have hupper : label.take 2 ≠ [0x30, 0x58] := by
    intro htake
    have hX : (0x58 : UInt8) ∈ label := List.mem_of_mem_take (by rw [htake]; decide)
    exact absurd (mem_label hvalid hX) (by decide)
  simp only [endsInANumber, hlabels, hlast, endsInHexNumber, Option.any_some, hdigits,
    Bool.and_false, Bool.false_or, isSome_ipv4Number_of_letter hb hle hupper]

end PublicName

/-! ### Reading a locator's own URL -/

/-- The port as it stands in a URL whose scheme has a default port. -/
def shownPort (default port : UInt16) : Option UInt16 :=
  if port = default then none else some port

lemma shownPort_ne (default port : UInt16) : shownPort default port ≠ some default := by
  unfold shownPort
  split
  · nofun
  · rename_i hne
    exact fun heq => hne (Option.some.inj heq)

/-- The port is read back. -/
lemma portOrKnownDefault_shownPort {scheme : String} {default : UInt16} {read : Host}
    (h : (webUrl scheme none read).portOrKnownDefault = some default) (port : UInt16) :
    (webUrl scheme (shownPort default port) read).portOrKnownDefault = some port := by
  unfold shownPort
  split
  · rename_i heq
    exact heq ▸ h
  · rfl

lemma baseUrl_https (h : PublicName host) : (Locator.https host port).baseUrl H
      = "https://" ++ host ++ portSuffix (shownPort 443 port) ++ "/" := by
  have hcolon : ':' ∉ host.toList := fun hmem =>
    absurd (isNameChar_of_isPlainName h.isPlainName _ hmem) (by decide)
  have hauthority : authority host port 443 = host ++ portSuffix (shownPort 443 port) := by
    simp only [authority, if_neg hcolon, shownPort]
    split
    · simp [portSuffix]
    · rw [portSuffix, String.append_assoc]
  have hscheme : ("https" ++ "://" : String) = "https://" := by decide
  simp only [Locator.baseUrl, Locator.origin, Locator.scheme, Locator.displayHost, hauthority,
    hscheme, String.append_assoc]

/-- The URL of a host passes the first check. -/
lemma isUrlText_origin {start : String} (hstart : start = "http://" ∨ start = "https://")
    (hhost : ∀ b ∈ Str.bytes host, 0x2d ≤ b.toNat ∧ b.toNat ≤ 0x7a)
    (hlength : (Str.bytes host).length ≤ maxHostBytes) (port : Option UInt16) :
    isUrlText (start ++ host ++ portSuffix port ++ "/") = true := by
  obtain ⟨hshort, hport⟩ := bytes_portSuffix port
  obtain ⟨hstartLength, hstartBytes⟩ : (Str.bytes start).length ≤ 8 ∧
      ∀ b ∈ Str.bytes start, 0x2d ≤ b.toNat ∧ b.toNat ≤ 0x7a := by
    rcases hstart with rfl | rfl
    · decide +kernel
    · decide +kernel
  have hend : Str.bytes "/" = [0x2f] := by decide
  have hlength : (Str.bytes host).length ≤ 253 := hlength
  -- every byte is above the space and below 128
  have hbytes : ∀ b ∈ Str.bytes (start ++ host ++ portSuffix port ++ "/"),
      0x2d ≤ b.toNat ∧ b.toNat ≤ 0x7a := by
    intro b hb
    rw [Str.bytes_append, Str.bytes_append, Str.bytes_append, hend, List.mem_append,
      List.mem_append, List.mem_append] at hb
    rcases hb with ((hb | hb) | hb) | hb
    · exact hstartBytes b hb
    · exact hhost b hb
    · have := hport b hb
      omega
    · rw [List.mem_singleton] at hb
      exact hb ▸ by decide
  have hsize : (Str.bytes (start ++ host ++ portSuffix port ++ "/")).length
      = (Str.bytes start).length + (Str.bytes host).length
        + (Str.bytes (portSuffix port)).length + 1 := by
    rw [Str.bytes_append, Str.bytes_append, Str.bytes_append, hend]
    simp only [List.length_append, List.length_cons, List.length_nil]
  simp only [isUrlText, Bool.and_eq_true, decide_eq_true_eq, List.all_eq_true]
  refine ⟨⟨fun hnil => ?_, ?_⟩, fun b hb => ⟨⟨?_, ?_⟩, ?_⟩⟩
  · rw [hnil, List.length_nil] at hsize
    omega
  · rw [hsize, maxPublicUrlBytes]
    omega
  · have := hbytes b hb
    rw [UInt8.lt_iff_toNat_lt]
    exact Nat.lt_of_le_of_lt this.2 (by decide)
  · rintro rfl
    exact absurd (hbytes 0 hb).1 (by decide)
  · simp only [isAsciiWhitespace, Bool.not_eq_true', List.contains_eq_mem, decide_eq_false_iff_not]
    intro hspace
    have hsmall : ∀ w ∈ ([0x09, 0x0a, 0x0c, 0x0d, 0x20] : List UInt8), w.toNat < 0x2d := by
      decide +kernel
    exact absurd (hbytes b hb).1 (Nat.not_le.mpr (hsmall b hspace))

/-- A URL of which the parser finds the parts is read as its host is. -/
lemma fromPublicUrl_of_parse {value scheme : String} {shown : Option UInt16}
    (htext : isUrlText value = true)
    (hparse : U.parse value = (U.parseHost host).map (webUrl scheme shown))
    (hport : ∀ read, (webUrl scheme shown read).portOrKnownDefault = some port) :
    fromPublicUrl U H E value = (okOr (U.parseHost host) .unsafeLocator >>= fun read =>
          locatorOf H E scheme read port >>= fun l => l.validate E >>= fun _ => .ok l) := by
  rw [fromPublicUrl, htext, hparse]
  cases U.parseHost host with
  | none => rfl
  | some read =>
    show (okOr (webUrl scheme shown read).portOrKnownDefault CapsuleError.unsafeLocator
      >>= _) = _
    rw [hport read]
    rfl

/-- The public URL of an accepted name is read as its host is. -/
lemma fromPublicUrl_baseUrl (h : PublicName host) :
    fromPublicUrl U H E ((Locator.https host port).baseUrl H)
      = (okOr (U.parseHost host) .unsafeLocator >>= fun read =>
          locatorOf H E "https" read port >>= fun l => l.validate E >>= fun _ => .ok l) := by
  have hbytes : ∀ b ∈ Str.bytes host, 0x2d ≤ b.toNat ∧ b.toNat ≤ 0x7a := by
    intro b hb
    rcases h.mem_bytes hb with h | h <;> omega
  rw [baseUrl_https h]
  refine fromPublicUrl_of_parse (isUrlText_origin (.inr rfl) hbytes h.length _)
    (U.parse_https h.isPlainName (shownPort_ne 443 port)) fun read => ?_
  exact portOrKnownDefault_shownPort rfl port

/-- A decoded locator passes the policy. -/
lemma isValid_of_decode {kinds : LocatorKinds} {input rest : List UInt8} {l : Locator}
    (h : (Locator.decode E kinds).run input = .ok (l, rest)) : l.isValid E = true := by
  simp only [Locator.decode, StateT.run_bind, bind_eq_ok] at h
  obtain ⟨_, -, _, -, _, -, ⟨l', _⟩, -, ⟨_, _⟩, hvalid, heq⟩ := h
  obtain rfl : l' = l := by
    have := Except.ok.inj heq
    exact congrArg Prod.fst this
  cases hl : l'.isValid E with
  | true => rfl
  | false =>
    rw [Locator.validate, hl] at hvalid
    cases hvalid

lemma locatorOf_domain (h : PublicName host) :
    locatorOf H E "https" (.domain host) port = .ok (.https host port) := by
  have honion : Str.endsWith host ".onion" = false := h.suffixes "onion" (by decide)
  have hi2p : Str.endsWith host ".i2p" = false := h.suffixes "i2p" (by decide)
  simp only [locatorOf, honion, hi2p, Bool.false_eq_true, if_false, if_true]

/-- **Names read again.**  The URL standard does not take an accepted name for an address, and every
HTTPS locator with it that is decoded is given back by its own base URL, exactly when the name does
not end in a hexadecimal number and the conversion of international names lets it through. -/
theorem accepted_again_iff (U : UrlLib) (H : PrivateLib) (E : Ed25519) {host : String}
    (h : validPublicDnsName host = true) : ((∀ address, U.parseHost host ≠ some (.ipv4 address)) ∧
      ∀ (kinds : LocatorKinds) (input rest : List UInt8) (port : UInt16),
        (Locator.decode E kinds).run input = .ok (.https host port, rest) →
        fromPublicUrl U H E ((Locator.https host port).baseUrl H) = .ok (.https host port)) ↔
      endsInHexNumber host = false ∧ (U.domainToAscii host).isSome = true := by
  have hname := publicName_of_valid h
  have hparse := U.parseHost_of_isPlainName hname.isPlainName
  rw [hname.endsInANumber_eq] at hparse
  constructor
  · rintro ⟨hnot, hagain⟩
    -- the name is in an invite: take its locator with the default port
    have hvalid : (Locator.https host 443).isValid E = true := by
      simp only [Locator.isValid, h, Bool.and_true]
      decide
    have hread := hagain .clearnet _ [] 443 (Locator.reads_locator rfl hvalid [])
    rw [fromPublicUrl_baseUrl hname] at hread
    obtain ⟨read, hhost, -⟩ := bind_eq_ok.mp hread
    cases hascii : U.domainToAscii host with
    | none =>
      rw [hparse, hascii] at hhost
      cases hhost
    | some ascii =>
      refine ⟨Bool.eq_false_iff.mpr fun hhex => ?_, rfl⟩
      rw [hascii, Option.bind_some, if_pos hhex] at hparse
      cases hip : parseIpv4 (Str.bytes host) with
      | none =>
        rw [hparse, hip] at hhost
        cases hhost
      | some address => exact hnot address (by rw [hparse, hip]; rfl)
  · rintro ⟨hhex, hsome⟩
    obtain ⟨ascii, hascii⟩ := Option.isSome_iff_exists.mp hsome
    have hdomain : U.parseHost host = some (.domain host) := by
      rw [hparse, hascii, Option.bind_some, hhex]
      rfl
    refine ⟨fun address => by rw [hdomain]; nofun, fun kinds input rest port hdecode => ?_⟩
    have hvalid := isValid_of_decode hdecode
    rw [fromPublicUrl_baseUrl hname, hdomain, okOr_some]
    show (locatorOf H E "https" (.domain host) port >>= _) = _
    rw [locatorOf_domain hname]
    show ((Locator.https host port).validate E >>= _) = _
    rw [Locator.validate, hvalid]
    rfl

namespace Sample

lemma ones_ne_zeros : (Vector.replicate 32 1 : Vector UInt8 32) ≠ Vector.replicate 32 0 := by
  decide

/-- A toy signature scheme; its points are all nonzero byte strings. -/
def noSignatures : Ed25519 where
  isPoint _ := true
  isWeak _ := false
  verifyStrict _ _ _ := true
  publicKey _ := Vector.replicate 32 1
  sign _ _ := Vector.replicate 64 0
  publicKey_isPoint _ := rfl
  publicKey_ne_zero _ := ones_ne_zeros
  verifyStrict_sign _ _ := rfl

def noHash : PrivateLib := ⟨fun _ => Vector.replicate 32 0, base32⟩

end Sample

/-- A name is given back. -/
theorem accepted_again_nodeName : fromPublicUrl webUrls.toUrlLib Sample.noHash Sample.noSignatures
      ((Locator.https "node.ket.net" 8443).baseUrl Sample.noHash)
      = .ok (.https "node.ket.net" 8443) := by
  have hvalid : (Locator.https "node.ket.net" 8443).isValid Sample.noSignatures = true := by
    decide +kernel
  exact ((accepted_again_iff webUrls.toUrlLib Sample.noHash Sample.noSignatures
    (by decide +kernel)).mpr (by decide +kernel)).2 .clearnet _ [] 8443
      (Locator.reads_locator rfl hvalid [])

/-- A name that the locator policy accepts, decoded from an invite, is the address `127.0.0.1` for
the URL standard, and its URL is not accepted. -/
theorem hex_label_names_address :
    (Locator.decode Sample.noSignatures .clearnet).run (Locator.https "127.0.0.0x1" 443).encode
        = .ok (.https "127.0.0.0x1" 443, []) ∧
      webUrls.toUrlLib.parseHost "127.0.0.0x1" = some (.ipv4 ⟨127, 0, 0, 1⟩) ∧
      (Locator.https "127.0.0.0x1" 443).baseUrl Sample.noHash = "https://127.0.0.0x1/" ∧
      fromPublicUrl webUrls.toUrlLib Sample.noHash Sample.noSignatures "https://127.0.0.0x1/"
        = .error .unsafeLocator := by
  decide +kernel

end Ket.Invite
