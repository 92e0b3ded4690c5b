import Ket.Share.Target

/-!
# The HTTP proxy front door (`ket-share/src/http.rs`)

`CONNECT` requests open a tunnel, and plain `http://` requests are rewritten for the site: the target
in origin form, without the headers that belong to the hop between the device and the share, and with
`Connection: close`.  `hasField_forwarded` says what a rewritten head can hold of a header of that hop.
-/

namespace Ket.Share.Http

open Ket.Lib Ket.Lib.Head List

def maxHead : ℕ := 16 * 1024

/-- The buffer of one read. -/
def chunkSize : ℕ := 2048

def endOfHead : List UInt8 := crlf ++ crlf

/-- The header with the share's password. -/
def proxyAuthorization : List UInt8 := Str.bytes "proxy-authorization"

/-- Headers of the hop between the device and the share, never passed to the site. -/
def hopHeaders : List (List UInt8) :=
  [proxyAuthorization, Str.bytes "proxy-connection", Str.bytes "connection",
    Str.bytes "keep-alive"]

inductive Kind where
  /-- `CONNECT`: once connected, bytes pass through untouched. -/
  | tunnel
  /-- A plain request, with its head as it is rewritten for the site. -/
  | forward (head : List UInt8)
deriving DecidableEq

structure Request where
  target : Target
  kind : Kind
  authorization : Option (List UInt8 × List UInt8)
deriving DecidableEq

def Request.authorize (request : Request) (credentials : Credentials) : Except Refusal Unit :=
  match request.authorization with
  | none => .error .noCredentials
  | some (username, password) =>
    if credentials.isMatch username password then .ok () else .error .badCredentials

/-! ### Reading a head -/

/-- The head at the start of the bytes, and what follows it. -/
def splitHead (buffer : List UInt8) : Option (List UInt8 × List UInt8) :=
  (find endOfHead buffer).map fun position =>
    (buffer.take (position + endOfHead.length), buffer.drop (position + endOfHead.length))

/-- `read_head`: `buffer` is what has been read, and the chunks are what the next reads give.  No
chunk, or an empty one, is the end of the stream.  The head, what was read behind it, and what has
not been read are returned. -/
def readHead (buffer : List UInt8) :
    List (List UInt8) → Except Refusal (List UInt8 × List UInt8 × List (List UInt8))
  | [] =>
    match splitHead buffer with
    | some (head, rest) => .ok (head, rest, [])
    | none => .error .malformed
  | chunk :: chunks =>
    match splitHead buffer with
    | some (head, rest) => .ok (head, rest, chunk :: chunks)
    | none =>
      if maxHead < buffer.length then .error .malformed
      else if chunk = [] then .error .malformed
      else readHead (buffer ++ chunk) chunks

/-! ### Parsing a head -/

/-- `str::from_utf8` succeeds. -/
def isUtf8 (text : List UInt8) : Bool := (String.fromUTF8? ⟨text.toArray⟩).isSome

/-- `str::trim` of a text. -/
def trim (text : List UInt8) : List UInt8 :=
  (String.fromUTF8? ⟨text.toArray⟩).elim text fun s => Str.bytes (Str.trim s)

/-- Without the blank line at the end. -/
def stripEnd (head : List UInt8) : Option (List UInt8) :=
  if endOfHead.isSuffixOf head then some (head.take (head.length - endOfHead.length)) else none

def isTokenByte (b : UInt8) : Bool :=
  isAsciiAlphanumeric b || (Str.bytes "!#$%&'*+-.^_`|~").contains b

/-- `header`: a name and a value.  A leading space would be an obsolete folded line. -/
def header (line : List UInt8) : Except Refusal (List UInt8 × List UInt8) := do
  let (name, value) ← okOr (splitOnce colon line) .malformed
  require (name != [] && name.all isTokenByte) .malformed
  return (name, trimMatches (fun b => b == space || b == 0x09) value)

structure RequestLine where
  method : List UInt8
  uri : List UInt8
  version : List UInt8
deriving DecidableEq

def parseRequestLine (line : List UInt8) : Except Refusal RequestLine :=
  match line.splitOn space with
  | [method, uri, version] => do
      require (method != [] && method.all isAsciiUppercase) .malformed
      require (version == Str.bytes "HTTP/1.1" || version == Str.bytes "HTTP/1.0") .malformed
      return ⟨method, uri, version⟩
  | _ => .error .malformed

/-- The request line and the headers. -/
def parseHead (head : List UInt8) :
    Except Refusal (RequestLine × List (List UInt8 × List UInt8)) := do
  require (isUtf8 head) .malformed
  let text ← okOr (stripEnd head) .malformed
  match splitCrlf text with
  | [] => .error .malformed
  | line :: lines => do
      let request ← parseRequestLine line
      let headers ← lines.mapM header
      return (request, headers)

/-- `basic`: the user name and the password of a `Basic` sign-in. -/
def basic (B : Base64) (value : List UInt8) : Except Refusal (List UInt8 × List UInt8) := do
  let (scheme, encoded) ← okOr (splitOnce space value) .malformed
  require (eqIgnoreCase scheme (Str.bytes "basic")) .malformed
  let decoded ← okOr (B.decode ((trim encoded).map fun b => Char.ofNat b.toNat)) .malformed
  okOr (splitOnce colon decoded) .malformed

/-- The first sign-in of the headers. -/
def authorizationOf (B : Base64) (headers : List (List UInt8 × List UInt8)) :
    Except Refusal (Option (List UInt8 × List UInt8)) :=
  match headers.find? fun (name, _) => eqIgnoreCase name proxyAuthorization with
  | none => .ok none
  | some (_, value) => do return some (← basic B value)

/-- `u16::from_str` of digits. -/
def parseU16 (digits : List UInt8) : Option UInt16 :=
  let n := digits.foldl (fun n b => n * 10 + (b.toNat - 0x30)) 0
  if n < 2 ^ 16 then some (UInt16.ofNat n) else none

/-- The text before and behind the last colon. -/
def splitLastColon (text : List UInt8) : Option (List UInt8 × List UInt8) :=
  (splitOnce colon text.reverse).map fun (after, before) => (before.reverse, after.reverse)

/-- The host and the port of an authority.  A colon with a bracket behind it is part of the host. -/
def hostAndPort (text : List UInt8) (defaultPort : Option UInt16) :
    Except Refusal (List UInt8 × UInt16) :=
  match (splitLastColon text).filter fun (_, digits) => !digits.contains 0x5d with
  | some (host, digits) => do
      require (digits != [] && digits.all isAsciiDigit) .malformed
      let port ← okOr (parseU16 digits) .malformed
      return (host, port)
  | none => do return (text, ← okOr defaultPort .malformed)

/-- `authority`: `host:port`, or `host` alone when there is a default port. -/
def authority (A : ShareLib) (text : List UInt8) (defaultPort : Option UInt16) :
    Except Refusal Target := do
  require (!text.contains 0x40) .malformed
  let (host, port) ← hostAndPort text defaultPort
  require (port != 0) (.target .invalid)
  -- an IPv6 address must be in brackets here
  require (!(host.contains colon && host.head? != some 0x5b)) .malformed
  let host ← (Host.parse A host).mapError .target
  return ⟨host, port⟩

/-- `strip_prefix_ignore_case`. -/
def stripPrefixIgnoreCase (text start : List UInt8) : Option (List UInt8) :=
  if eqIgnoreCase (text.take start.length) start then some (text.drop start.length) else none

/-- The part of a URI that goes to the site. -/
def originForm (path : List UInt8) : List UInt8 :=
  if path = [] then [0x2f] else if path.head? = some 0x3f then 0x2f :: path else path

def isHop (name : List UInt8) : Bool := hopHeaders.any (eqIgnoreCase name)

def headerLine (name value : List UInt8) : List UInt8 := name ++ colon :: space :: value

/-- The head for the site. -/
def forwarded (request : RequestLine) (headers : List (List UInt8 × List UInt8))
    (hostPort path : List UInt8) : List UInt8 :=
  let kept := headers.filter fun (name, _) => !isHop name
  let hasHost := kept.any fun (name, _) => eqIgnoreCase name (Str.bytes "host")
  request.method ++ space :: originForm path ++ space :: request.version ++ crlf ++
    kept.flatMap (fun (name, value) => headerLine name value ++ crlf) ++
    (if hasHost then [] else headerLine (Str.bytes "Host") hostPort ++ crlf) ++
    headerLine (Str.bytes "Connection") (Str.bytes "close") ++ crlf ++ crlf

/-- `parse_request`. -/
def parseRequest (A : ShareLib) (head : List UInt8) : Except Refusal Request := do
  let (request, headers) ← parseHead head
  let authorization ← authorizationOf A.base64 headers
  if request.method = Str.bytes "CONNECT" then
    let target ← authority A request.uri none
    return ⟨target, .tunnel, authorization⟩
  else
    let rest ← okOr (stripPrefixIgnoreCase request.uri (Str.bytes "http://")) .unsupported
    let (hostPort, path) := rest.span fun b => b != 0x2f && b != 0x3f
    let target ← authority A hostPort (some 80)
    return ⟨target, .forward (forwarded request headers hostPort path), authorization⟩

/-- `rewrite_response`: the site's response head with `Connection: close`. -/
def rewriteResponse (head : List UInt8) : Option (List UInt8) := do
  let text ← if isUtf8 head then stripEnd head else none
  match splitCrlf text with
  | [] => none
  | status :: lines =>
    if !(Str.bytes "HTTP/1.").isPrefixOf status then none
    else
      let named ← lines.mapM fun line => (splitOnce colon line).map fun (name, _) => (name, line)
      let kept := named.filter fun (name, _) =>
        !(eqIgnoreCase name (Str.bytes "connection") || eqIgnoreCase name (Str.bytes "keep-alive"))
      return status ++ crlf ++ kept.flatMap (fun (_, line) => line ++ crlf) ++
        headerLine (Str.bytes "Connection") (Str.bytes "close") ++ crlf ++ crlf

/-! ### What was read -/

section Reading

variable {buffer head rest more : List UInt8} {chunks later : List (List UInt8)}

lemma splitHead_append (h : splitHead buffer = some (head, rest)) :
    splitHead (buffer ++ more) = some (head, rest ++ more) := by
  obtain ⟨position, hfind, heq⟩ := Option.map_eq_some_iff.mp h
  obtain ⟨before, after, hbuffer, hlen⟩ := eq_of_find hfind
  have hle : position + endOfHead.length ≤ buffer.length := by
    rw [hbuffer, length_append, length_append, hlen]
    omega
  rw [splitHead, find_append hfind, Option.map_some]
  simp only [Prod.mk.injEq] at heq
  rw [take_append_of_le_length hle, drop_append_of_le_length hle, heq.1, heq.2]

/-- Whatever the chunks, the head is the one at the start of the stream. -/
lemma splitHead_of_readHead (h : readHead buffer chunks = .ok (head, rest, later)) :
    splitHead (buffer ++ chunks.flatten) = some (head, rest ++ later.flatten) := by
  induction chunks generalizing buffer with
  | nil =>
    simp only [readHead] at h
    split at h
    · rename_i hsplit
      cases h
      exact splitHead_append hsplit
    · cases h
  | cons chunk chunks ih =>
    simp only [readHead] at h
    split at h
    · rename_i hsplit
      cases h
      exact splitHead_append hsplit
    · split at h
      · cases h
      · split at h
        · cases h
        · have hrest := ih h
          rw [append_assoc] at hrest
          exact hrest

end Reading

/-! ### What a rewritten head holds -/

section Forwarded

variable {e : LineEnd} {A : ShareLib}

lemma cr_not_mem : cr ∉ proxyAuthorization := by decide

lemma not_mem_of_isHostByte {text : List UInt8} (h : ∀ b ∈ text, isHostByte b = true) :
    cr ∉ text ∧ lf ∉ text :=
  ⟨fun hmem => absurd (h _ hmem) (by decide), fun hmem => absurd (h _ hmem) (by decide)⟩

/-- An accepted authority holds only bytes of hosts. -/
lemma isHostByte_of_authority {text : List UInt8} {defaultPort : Option UInt16} {target : Target}
    (h : authority A text defaultPort = .ok target) : ∀ b ∈ text, isHostByte b = true := by
  obtain ⟨-, h⟩ := require_bind_eq_ok.mp h
  obtain ⟨⟨host, port⟩, hsplit, h⟩ := bind_eq_ok.mp h
  obtain ⟨-, h⟩ := require_bind_eq_ok.mp h
  obtain ⟨-, h⟩ := require_bind_eq_ok.mp h
  obtain ⟨parsed, hparse, -⟩ := bind_eq_ok.mp h
  have hhost : ∀ b ∈ host, isHostByte b = true := by
    intro b hb
    cases hok : Host.parse A host with
    | error =>
      rw [hok] at hparse
      cases hparse
    | ok _ => exact isHostByte_of_parse hok hb
  unfold hostAndPort at hsplit
  split at hsplit
  · rename_i before digits hlast
    obtain ⟨hchecked, hsplit⟩ := require_bind_eq_ok.mp hsplit
    obtain ⟨_, -, hsplit⟩ := bind_eq_ok.mp hsplit
    cases hsplit
    -- the text is the host, a colon and the digits
    have htext : text = host ++ colon :: digits := by
      obtain ⟨hsplit, -⟩ := Option.filter_eq_some_iff.mp hlast
      obtain ⟨⟨after, before⟩, honce, heq⟩ := Option.map_eq_some_iff.mp hsplit
      cases heq
      rw [← reverse_reverse text, (eq_of_splitOnce honce).1]
      simp
    intro b hb
    rw [htext] at hb
    rcases mem_append.mp hb with hb | hb
    · exact hhost b hb
    · rcases mem_cons.mp hb with rfl | hb
      · decide
      · have hdigit := all_eq_true.mp (Bool.and_eq_true_iff.mp hchecked).2 b hb
        simp [isHostByte, isAsciiAlphanumeric, hdigit]
  · obtain ⟨_, -, hsplit⟩ := bind_eq_ok.mp hsplit
    cases hsplit
    exact hhost

/-- What the head for the site takes over from the head of the device: the URI and the values of the
headers that are passed on. -/
def keptTexts (request : RequestLine) (headers : List (List UInt8 × List UInt8)) :
    List (List UInt8) :=
  request.uri :: (headers.filter fun (name, _) => !isHop name).map Prod.snd

/-- The lines of the head for the site. -/
def forwardedLines (request : RequestLine) (headers : List (List UInt8 × List UInt8))
    (hostPort path : List UInt8) : List (List UInt8) :=
  let kept := headers.filter fun (name, _) => !isHop name
  let hasHost := kept.any fun (name, _) => eqIgnoreCase name (Str.bytes "host")
  (request.method ++ space :: originForm path ++ space :: request.version) ::
    (kept.map fun (name, value) => headerLine name value) ++
    (if hasHost then [] else [headerLine (Str.bytes "Host") hostPort]) ++
    [headerLine (Str.bytes "Connection") (Str.bytes "close"), []]

lemma forwarded_eq (request : RequestLine) (headers : List (List UInt8 × List UInt8))
    (hostPort path : List UInt8) : forwarded request headers hostPort path
      = (forwardedLines request headers hostPort path).flatMap fun line => line ++ crlf := by
  simp only [forwarded, forwardedLines]
  split <;> simp [flatMap_map]

variable {name value : List UInt8}

lemma not_mem_of_isTokenByte (h : name.all isTokenByte = true) :
    cr ∉ name ∧ lf ∉ name ∧ colon ∉ name := by
  have hbyte := all_eq_true.mp h
  exact ⟨fun hmem => absurd (hbyte _ hmem) (by decide), fun hmem => absurd (hbyte _ hmem) (by decide),
    fun hmem => absurd (hbyte _ hmem) (by decide)⟩

/-- A header that is passed on is not the one with the password, but its value may hold anything. -/
lemma hasField_headerLine (hname : name.all isTokenByte = true) (hhop : isHop name = false) :
    hasField e proxyAuthorization (headerLine name value) = innerField e proxyAuthorization value := by
  obtain ⟨hcr, hlf, hcolon⟩ := not_mem_of_isTokenByte hname
  have hstarts : startsField proxyAuthorization (headerLine name value) = false := by
    rw [headerLine, startsField_header (by decide) hcolon]
    have hnot : eqIgnoreCase name proxyAuthorization = false :=
      any_eq_false.mp hhop _ mem_cons_self |> Bool.eq_false_iff.mpr
    exact hnot
  have hinner : innerField e proxyAuthorization (headerLine name value)
      = innerField e proxyAuthorization value := by
    have hsplit : headerLine name value = (name ++ [colon, space]) ++ value := by simp [headerLine]
    have hpair : cr ∉ [colon, space] ∧ lf ∉ [colon, space] := by decide
    rw [hsplit, innerField_append_of_not_mem]
    · exact fun hmem => (mem_append.mp hmem).elim hcr hpair.1
    · exact fun hmem => (mem_append.mp hmem).elim hlf hpair.2
  rw [hasField, hstarts, hinner, Bool.false_or]

/-- A request line is no header line, but its path may hold anything. -/
lemma hasField_requestLine {method version path : List UInt8}
    (hmethod : method.all isAsciiUppercase = true) (hcr : cr ∉ version) (hlf : lf ∉ version) :
    hasField e proxyAuthorization (method ++ space :: originForm path ++ space :: version)
      = innerField e proxyAuthorization path := by
  have hupper := all_eq_true.mp hmethod
  have hspace : isBreak proxyAuthorization space := ⟨by decide, by decide⟩
  have hmethodCr : cr ∉ method := fun hmem => absurd (hupper _ hmem) (by decide)
  have hmethodLf : lf ∉ method := fun hmem => absurd (hupper _ hmem) (by decide)
  have hstarts : startsField proxyAuthorization method = false := by
    rw [Bool.eq_false_iff]
    intro h
    -- the colon behind the name would stand in the method
    have hprefix := isPrefixOf_iff_prefix.mp h
    have hcolon : colon ∈ method.map toLower := hprefix.subset (by decide)
    obtain ⟨b, hb, heq⟩ := mem_map.mp hcolon
    rw [toLower_eq_colon] at heq
    exact absurd (heq ▸ hupper b hb) (by decide)
  have horigin : innerField e proxyAuthorization (originForm path)
      = innerField e proxyAuthorization path := by
    unfold originForm
    split
    · rename_i hnil
      rw [hnil]
      cases e <;> decide
    · split
      · exact innerField_append_of_not_mem (s := [0x2f]) (by decide) (by decide)
      · rfl
  rw [hasField, append_assoc, cons_append, startsField_append_cons hspace, hstarts,
    Bool.false_or, innerField_append_cons hspace (by decide) (by decide),
    innerField_eq_false hmethodCr hmethodLf, Bool.false_or,
    innerField_append_cons hspace (by decide) (by decide), horigin,
    innerField_eq_false hcr hlf, Bool.or_false]

end Forwarded

/-! ### The head of a request -/

section Parsed

variable {e : LineEnd} {A : ShareLib} {head : List UInt8} {request : RequestLine}
  {headers : List (List UInt8 × List UInt8)}

/-- What the parts of an accepted head look like.  All of them stand in lines of the head. -/
structure Accepted (request : RequestLine) (headers : List (List UInt8 × List UInt8)) : Prop where
  method : request.method.all isAsciiUppercase = true
  version : cr ∉ request.version ∧ lf ∉ request.version
  uri : innerField .crlf proxyAuthorization request.uri = false
  names : ∀ field ∈ headers, field.1.all isTokenByte = true
  values : ∀ field ∈ headers, innerField .crlf proxyAuthorization field.2 = false

lemma header_spec {line name value : List UInt8} (h : header line = .ok (name, value)) :
    name.all isTokenByte = true ∧ value <:+: line := by
  obtain ⟨⟨name', raw⟩, hsplit, h⟩ := bind_eq_ok.mp h
  obtain ⟨hname, h⟩ := require_bind_eq_ok.mp h
  cases h
  refine ⟨(Bool.and_eq_true_iff.mp hname).2, ?_⟩
  cases honce : splitOnce colon line with
  | none =>
    rw [honce] at hsplit
    cases hsplit
  | some parts =>
    rw [honce] at hsplit
    cases hsplit
    rw [(eq_of_splitOnce honce).1]
    exact (trimMatches_isInfix _ raw).trans
      ((suffix_cons colon raw).trans (suffix_append name _)).isInfix

lemma requestLine_spec {line : List UInt8} (h : parseRequestLine line = .ok request) :
    request.method.all isAsciiUppercase = true ∧
      (cr ∉ request.version ∧ lf ∉ request.version) ∧ request.uri <:+: line := by
  unfold parseRequestLine at h
  split at h
  · rename_i method uri version hsplit
    obtain ⟨hmethod, h⟩ := require_bind_eq_ok.mp h
    obtain ⟨hversion, h⟩ := require_bind_eq_ok.mp h
    cases h
    refine ⟨(Bool.and_eq_true_iff.mp hmethod).2, ?_, ?_⟩
    · simp only [Bool.or_eq_true, beq_iff_eq] at hversion
      have hbytes : ∀ v ∈ [Str.bytes "HTTP/1.1", Str.bytes "HTTP/1.0"], cr ∉ v ∧ lf ∉ v := by decide
      exact hbytes version (by simpa using hversion)
    · have hline : line = method ++ space :: (uri ++ space :: version) := by
        have hjoin : [space].intercalate (line.splitOn space) = line :=
          intercalate_splitOn space
        rw [hsplit] at hjoin
        rw [← hjoin]
        simp [List.intercalate, List.intersperse]
      exact ⟨method ++ [space], space :: version, by rw [hline]; simp⟩
  · cases h

lemma accepted_of_parseHead (h : parseHead head = .ok (request, headers)) :
    Accepted request headers := by
  obtain ⟨-, h⟩ := require_bind_eq_ok.mp h
  obtain ⟨text, -, h⟩ := bind_eq_ok.mp h
  split at h
  · cases h
  · rename_i line lines hlines
    obtain ⟨_, hline, h⟩ := bind_eq_ok.mp h
    obtain ⟨_, hheaders, h⟩ := bind_eq_ok.mp h
    cases h
    obtain ⟨hmethod, hversion, huri⟩ := requestLine_spec hline
    -- no line holds a line end, so no part of one does
    have hinner : ∀ l ∈ line :: lines, innerField .crlf proxyAuthorization l = false := by
      intro l hl
      exact innerField_of_mem_splitCrlf (hlines ▸ hl)
    have hfields : ∀ field ∈ headers, ∃ l ∈ lines, header l = .ok field :=
      mem_of_mapM_eq_ok hheaders
    refine ⟨hmethod, hversion, innerField_of_isInfix huri (hinner line mem_cons_self), ?_, ?_⟩
    · intro field hfield
      obtain ⟨l, -, hheader⟩ := hfields field hfield
      exact (header_spec hheader).1
    · intro field hfield
      obtain ⟨l, hl, hheader⟩ := hfields field hfield
      exact innerField_of_isInfix (header_spec hheader).2 (hinner l (mem_cons_of_mem _ hl))

/-- By the letter of the protocol nothing that is taken over holds a header line. -/
lemma Accepted.keptTexts (h : Accepted request headers) :
    (keptTexts request headers).any (innerField .crlf proxyAuthorization) = false := by
  refine any_eq_false.mpr fun text htext => ?_
  rw [Bool.not_eq_true]
  rcases mem_cons.mp htext with rfl | htext
  · exact h.uri
  · obtain ⟨field, hfield, rfl⟩ := mem_map.mp htext
    exact h.values field (List.mem_filter.mp hfield).1

/-- The URI up to the path holds no line end. -/
lemma innerField_uri {hostPort path : List UInt8}
    (huri : stripPrefixIgnoreCase request.uri (Str.bytes "http://") = some (hostPort ++ path))
    (hhost : ∀ b ∈ hostPort, isHostByte b = true) :
    innerField e proxyAuthorization request.uri = innerField e proxyAuthorization path := by
  obtain ⟨hcr, hlf⟩ := not_mem_of_isHostByte hhost
  unfold stripPrefixIgnoreCase at huri
  split at huri
  · rename_i hscheme
    have hlower : (request.uri.take (Str.bytes "http://").length).map toLower
        = (Str.bytes "http://").map toLower := beq_iff_eq.mp hscheme
    have hmem : ∀ b ∈ request.uri.take (Str.bytes "http://").length,
        toLower b ∈ (Str.bytes "http://").map toLower := fun b hb =>
      hlower ▸ mem_map.mpr ⟨b, hb, rfl⟩
    have hparts : request.uri
        = request.uri.take (Str.bytes "http://").length ++ (hostPort ++ path) := by
      rw [← Option.some.inj huri, take_append_drop]
    rw [hparts, innerField_append_of_not_mem, innerField_append_of_not_mem hcr hlf]
    · exact fun h => absurd (hmem _ h) (by decide)
    · exact fun h => absurd (hmem _ h) (by decide)
  · cases huri

/-- **The head for the site** has a line with the password's header only where the device put a line
end in front of one inside the URI or inside the value of another header. -/
lemma hasField_forwarded {hostPort path more : List UInt8} (h : Accepted request headers)
    (huri : stripPrefixIgnoreCase request.uri (Str.bytes "http://") = some (hostPort ++ path))
    (hhost : ∀ b ∈ hostPort, isHostByte b = true) :
    hasField e proxyAuthorization (forwarded request headers hostPort path ++ more)
      = ((keptTexts request headers).any (innerField e proxyAuthorization) ||
          hasField e proxyAuthorization more) := by
  obtain ⟨hcr, hlf⟩ := not_mem_of_isHostByte hhost
  have hheaders : ((headers.filter fun (name, _) => !isHop name).map fun (name, value) =>
        headerLine name value).any (hasField e proxyAuthorization)
      = ((headers.filter fun (name, _) => !isHop name).map Prod.snd).any
          (innerField e proxyAuthorization) := by
    rw [any_map, any_map, Bool.eq_iff_iff, any_eq_true, any_eq_true]
    refine exists_congr fun field => and_congr_right fun hfield => ?_
    obtain ⟨hmem, hhop⟩ := List.mem_filter.mp hfield
    have hline : hasField e proxyAuthorization (headerLine field.1 field.2)
        = innerField e proxyAuthorization field.2 :=
      hasField_headerLine (h.names field hmem) (by simpa using hhop)
    exact iff_of_eq (congrArg (· = true) hline)
  have hhostLine : hasField e proxyAuthorization (headerLine (Str.bytes "Host") hostPort) = false := by
    rw [hasField_headerLine (by decide) (by decide)]
    exact innerField_eq_false hcr hlf
  have hclose : ([headerLine (Str.bytes "Connection") (Str.bytes "close"), []]).any
      (hasField e proxyAuthorization) = false := by
    cases e <;> decide
  have hadded : ∀ hasHost : Bool, (if hasHost then [] else
      [headerLine (Str.bytes "Host") hostPort]).any (hasField e proxyAuthorization) = false := by
    intro hasHost
    cases hasHost
    · simp [hhostLine]
    · rfl
  rw [forwarded_eq, hasField_lines cr_not_mem]
  congr 1
  simp only [forwardedLines, keptTexts, cons_append, any_cons, any_append, hheaders,
    hadded, hclose, hasField_requestLine h.method h.version.1 h.version.2, innerField_uri huri hhost,
    Bool.or_false]

lemma accepted_of_parseRequest {parsed : Request} (h : parseRequest A head = .ok parsed) :
    ∃ request headers, parseHead head = .ok (request, headers) ∧ Accepted request headers := by
  obtain ⟨⟨request, headers⟩, hhead, -⟩ := bind_eq_ok.mp h
  exact ⟨request, headers, hhead, accepted_of_parseHead hhead⟩

/-- The site's head and whatever comes behind it, for a request that was accepted. -/
lemma hasField_of_parseRequest {target : Target}
    {authorization : Option (List UInt8 × List UInt8)} {site more : List UInt8}
    (h : parseRequest A head = .ok ⟨target, .forward site, authorization⟩) :
    ∃ request headers, parseHead head = .ok (request, headers) ∧
      hasField e proxyAuthorization (site ++ more)
        = ((keptTexts request headers).any (innerField e proxyAuthorization) ||
            hasField e proxyAuthorization more) := by
  obtain ⟨⟨request, headers⟩, hhead, h⟩ := bind_eq_ok.mp h
  obtain ⟨_, -, h⟩ := bind_eq_ok.mp h
  have haccepted := accepted_of_parseHead hhead
  refine ⟨request, headers, hhead, ?_⟩
  simp only at h
  split at h
  · obtain ⟨_, -, h⟩ := bind_eq_ok.mp h
    cases h
  · obtain ⟨rest, hrest, h⟩ := bind_eq_ok.mp h
    obtain ⟨_, hauthority, h⟩ := bind_eq_ok.mp h
    cases h
    refine hasField_forwarded haccepted ?_ (isHostByte_of_authority hauthority)
    cases huri : stripPrefixIgnoreCase request.uri (Str.bytes "http://") with
    | none =>
      rw [huri] at hrest
      cases hrest
    | some rest' =>
      rw [huri] at hrest
      cases hrest
      rw [span_eq_takeWhile_dropWhile, takeWhile_append_dropWhile]

end Parsed

end Ket.Share.Http
