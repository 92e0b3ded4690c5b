import Ket.Share.Server

/-!
# The head that goes to the site (`ket-share/src/http.rs`, `parse_request`)

A site may let a line feed alone end a line.  Read that way, the head that is written for it has the
lines that it was written in if no line feed stands inside the URI or inside the value of a header
that is passed on, and others otherwise (`forwardsCleanly_iff`): `parse_request` splits the lines of
the device at a carriage return and a line feed only.
-/

namespace Ket.Share.Http

open Ket.Lib Ket.Lib.Head List

/-- The line that is added to every head. -/
def closeLine : List UInt8 := headerLine (Str.bytes "Connection") (Str.bytes "close")

/-- The headers that are passed on. -/
def keptHeaders (headers : List (List UInt8 × List UInt8)) : List (List UInt8 × List UInt8) :=
  headers.filter fun header => !isHop header.1

/-- The path of a URI with a scheme and a host. -/
def pathOf (uri : List UInt8) : List UInt8 :=
  (uri.drop (Str.bytes "http://").length).dropWhile fun b => b != 0x2f && b != 0x3f

/-- The request line for the site. -/
def siteLine (request : RequestLine) : List UInt8 :=
  request.method ++ space :: originForm (pathOf request.uri) ++ space :: request.version

/-- **What a head for the site should be**, when every line feed ends a line: the request line, then
lines with fields, of which no one belongs to the hop but one `Connection: close`, some is the host,
and those of the device stand in their order, and one empty line, which is the end. -/
def ForwardsCleanly (request : RequestLine) (headers : List (List UInt8 × List UInt8))
    (site : List UInt8) : Prop :=
  ∃ added fields : List (List UInt8),
    lfLines site = siteLine request :: fields ++ [[]] ∧ lfRest site = [] ∧
    (∀ line ∈ siteLine request :: fields, line ≠ []) ∧
    (∀ field ∈ fields, ∀ hop ∈ hopHeaders, startsField hop field = true → field = closeLine) ∧
    fields.count closeLine = 1 ∧
    (∃ field ∈ fields, startsField (Str.bytes "host") field = true) ∧
    fields = (keptHeaders headers).map (fun header => headerLine header.1 header.2) ++ added ++
      [closeLine] ∧
    ∀ field ∈ added, startsField (Str.bytes "host") field = true

/-! ### Lines -/

variable {A : ShareLib} {request : RequestLine} {headers : List (List UInt8 × List UInt8)}
  {name value hop hostPort : List UInt8}

/-- The field of a header is its name. -/
lemma startsField_headerLine (hname : name.all isTokenByte = true) (hhop : colon ∉ hop) :
    startsField hop (headerLine name value) = (name.map toLower == hop) :=
  startsField_header hhop (not_mem_of_isTokenByte hname).2.2

lemma colon_not_mem_hop (h : hop ∈ hopHeaders) : colon ∉ hop := by
  have hall : ∀ hop ∈ hopHeaders, colon ∉ hop := by decide
  exact hall hop h

lemma map_toLower_hop (h : hop ∈ hopHeaders) : hop.map toLower = hop := by
  have hall : ∀ hop ∈ hopHeaders, hop.map toLower = hop := by decide
  exact hall hop h

/-- A header that is passed on is none of the hop. -/
lemma startsField_of_not_isHop (hname : name.all isTokenByte = true) (hkept : isHop name = false)
    (hhop : hop ∈ hopHeaders) : startsField hop (headerLine name value) = false := by
  rw [startsField_headerLine hname (colon_not_mem_hop hhop)]
  have hnot := any_eq_false.mp hkept hop hhop
  rw [eqIgnoreCase, map_toLower_hop hhop, Bool.not_eq_true] at hnot
  exact hnot

lemma startsField_closeLine : startsField (Str.bytes "connection") closeLine = true := by decide

lemma headerLine_ne_nil : headerLine name value ≠ [] := by
  rw [headerLine]
  exact append_ne_nil_of_right_ne_nil _ (cons_ne_nil _ _)

/-! ### An accepted request -/

/-- The lines that are added behind the headers of the device. -/
def addedLines (headers : List (List UInt8 × List UInt8)) (hostPort : List UInt8) :
    List (List UInt8) :=
  if (keptHeaders headers).any fun header => eqIgnoreCase header.1 (Str.bytes "host") then []
  else [headerLine (Str.bytes "Host") hostPort]

lemma forwardedLines_eq : forwardedLines request headers hostPort (pathOf request.uri) =
    siteLine request :: ((keptHeaders headers).map (fun header => headerLine header.1 header.2) ++
        addedLines headers hostPort ++ [closeLine]) ++ [[]] := by
  simp only [forwardedLines, siteLine, closeLine, append_assoc, cons_append,
    nil_append]
  rfl

/-- Neither the scheme nor the host of a URI has a line feed. -/
lemma lf_mem_uri_iff {uri : List UInt8}
    (hscheme : eqIgnoreCase (uri.take (Str.bytes "http://").length) (Str.bytes "http://") = true)
    (hhost : ∀ b ∈ (uri.drop (Str.bytes "http://").length).takeWhile
      (fun b => b != 0x2f && b != 0x3f), isHostByte b = true) : lf ∈ uri ↔ lf ∈ pathOf uri := by
  constructor
  · intro hlf
    rw [← take_append_drop (Str.bytes "http://").length uri, mem_append] at hlf
    rcases hlf with hlf | hlf
    · have hlower : toLower lf ∈ (Str.bytes "http://").map toLower :=
        beq_iff_eq.mp hscheme ▸ mem_map_of_mem hlf
      exact absurd hlower (by decide)
    · have hsplit := takeWhile_append_dropWhile (p := fun b : UInt8 => b != 0x2f && b != 0x3f)
        (l := uri.drop (Str.bytes "http://").length)
      rw [← hsplit, mem_append] at hlf
      rcases hlf with hlf | hlf
      · exact absurd (hhost lf hlf) (by decide)
      · exact hlf
  · exact fun hlf => mem_of_mem_drop ((dropWhile_suffix _).subset hlf)

/-- What is known of a request that is passed on. -/
lemma of_parseRequest {head site : List UInt8} {target : Target}
    {authorization : Option (List UInt8 × List UInt8)}
    (h : parseRequest A head = .ok ⟨target, .forward site, authorization⟩) :
    ∃ request headers hostPort, parseHead head = .ok (request, headers) ∧
      (∀ b ∈ hostPort, isHostByte b = true) ∧
      site = forwarded request headers hostPort (pathOf request.uri) ∧
      (lf ∈ request.uri ↔ lf ∈ pathOf request.uri) := by
  obtain ⟨⟨request, headers⟩, hhead, h⟩ := bind_eq_ok.mp h
  obtain ⟨_, -, h⟩ := bind_eq_ok.mp h
  simp only at h
  split at h
  · obtain ⟨_, -, h⟩ := bind_eq_ok.mp h
    cases h
  · obtain ⟨rest, hrest, h⟩ := bind_eq_ok.mp h
    obtain ⟨_, hauthority, h⟩ := bind_eq_ok.mp h
    cases h
    have hhost := isHostByte_of_authority hauthority
    rw [span_eq_takeWhile_dropWhile] at hhost ⊢
    have huri := okOr_eq_ok.mp hrest
    rw [stripPrefixIgnoreCase] at huri
    split at huri
    · rename_i hscheme
      obtain rfl := Option.some.inj huri
      exact ⟨request, headers, _, hhead, hhost, rfl, lf_mem_uri_iff hscheme hhost⟩
    · cases huri

/-! ### The head for the site -/

/-- A line feed in a line stands in its value. -/
lemma lf_mem_headerLine (hname : name.all isTokenByte = true) :
    lf ∈ headerLine name value ↔ lf ∈ value := by
  have hnot := (not_mem_of_isTokenByte hname).2.1
  have hmarks : lf ≠ colon ∧ lf ≠ space := by decide
  simp [headerLine, hnot, hmarks]

lemma lf_mem_originForm {path : List UInt8} : lf ∈ originForm path ↔ lf ∈ path := by
  rw [originForm]
  split
  · rename_i hnil
    rw [hnil]
    decide
  · split
    · rw [mem_cons]
      exact or_iff_right (by decide)
    · rfl

lemma lf_mem_siteLine (h : Accepted request headers) :
    lf ∈ siteLine request ↔ lf ∈ pathOf request.uri := by
  have hmethod : lf ∉ request.method := fun hmem =>
    absurd (all_eq_true.mp h.method lf hmem) (by decide)
  have hspace : lf ≠ space := by decide
  simp [siteLine, lf_mem_originForm, hmethod, h.version.2, hspace]

/-- What the lines of a head look like, wherever line feeds stand. -/
lemma fields_spec (h : Accepted request headers) (hostPort : List UInt8) :
    (∀ field ∈ (keptHeaders headers).map (fun header => headerLine header.1 header.2) ++
        addedLines headers hostPort, ∀ hop ∈ hopHeaders, startsField hop field = false) ∧
      ∃ field ∈ (keptHeaders headers).map (fun header => headerLine header.1 header.2) ++
        addedLines headers hostPort, startsField (Str.bytes "host") field = true := by
  have hhost : (Str.bytes "Host").all isTokenByte = true := by decide
  have hnames : ∀ header ∈ keptHeaders headers, header.1.all isTokenByte = true ∧
      isHop header.1 = false := by
    intro header hheader
    obtain ⟨hmem, hkept⟩ := List.mem_filter.mp hheader
    exact ⟨h.names header hmem, by simpa using hkept⟩
  constructor
  · intro field hfield hop hhop
    rcases mem_append.mp hfield with hfield | hfield
    · obtain ⟨header, hheader, rfl⟩ := mem_map.mp hfield
      obtain ⟨hname, hkept⟩ := hnames header hheader
      exact startsField_of_not_isHop hname hkept hhop
    · rw [addedLines] at hfield
      split at hfield
      · cases hfield
      · rw [mem_singleton.mp hfield]
        exact startsField_of_not_isHop hhost (by decide) hhop
  · cases hany : (keptHeaders headers).any fun header => eqIgnoreCase header.1 (Str.bytes "host") with
    | true =>
      obtain ⟨header, hheader, hname⟩ := any_eq_true.mp hany
      refine ⟨_, mem_append_left _ (mem_map_of_mem hheader), ?_⟩
      rw [startsField_headerLine (hnames header hheader).1 (by decide)]
      exact hname
    | false =>
      refine ⟨headerLine (Str.bytes "Host") hostPort, mem_append_right _ ?_, ?_⟩
      · rw [addedLines, hany]
        exact mem_singleton_self _
      · rw [startsField_headerLine hhost (by decide)]
        decide

lemma startsField_of_mem_addedLines {field : List UInt8}
    (h : field ∈ addedLines headers hostPort) : startsField (Str.bytes "host") field = true := by
  rw [addedLines] at h
  split at h
  · cases h
  · rw [mem_singleton.mp h, startsField_headerLine (by decide) (by decide)]
    decide

/-- Without a line feed in what is taken over there is none in a line. -/
lemma lf_not_mem_lines (h : Accepted request headers) (hhost : ∀ b ∈ hostPort, isHostByte b = true)
    (hpath : lf ∉ pathOf request.uri) (hvalues : ∀ header ∈ keptHeaders headers, lf ∉ header.2) :
    ∀ line ∈ siteLine request ::
      ((keptHeaders headers).map (fun header => headerLine header.1 header.2) ++
        addedLines headers hostPort ++ [closeLine]) ++ [[]], lf ∉ line := by
  intro line hline
  simp only [cons_append, append_assoc, mem_cons, mem_append, mem_map,
    not_mem_nil, or_false, false_or] at hline
  rcases hline with rfl | ⟨header, hheader, rfl⟩ | hline | rfl | rfl
  · rw [lf_mem_siteLine h]
    exact hpath
  · rw [lf_mem_headerLine (h.names header (mem_of_mem_filter hheader))]
    exact hvalues header hheader
  · rw [addedLines] at hline
    split at hline
    · cases hline
    · rw [mem_singleton.mp hline, lf_mem_headerLine (by decide)]
      exact (not_mem_of_isHostByte hhost).2
  · decide
  · exact not_mem_nil

lemma forwardsCleanly_of_lf_not_mem (h : Accepted request headers)
    (hhost : ∀ b ∈ hostPort, isHostByte b = true) (hpath : lf ∉ pathOf request.uri)
    (hvalues : ∀ header ∈ keptHeaders headers, lf ∉ header.2) : ForwardsCleanly request headers
      (forwarded request headers hostPort (pathOf request.uri)) := by
  obtain ⟨hhop, hhostLine⟩ := fields_spec h hostPort
  obtain ⟨hlines, hrest⟩ := lfLines_lines (lf_not_mem_lines h hhost hpath hvalues)
  rw [← forwardedLines_eq, ← forwarded_eq] at hlines hrest
  rw [forwardedLines_eq] at hlines
  refine ⟨addedLines headers hostPort, _, hlines, hrest, ?_, ?_, ?_, ?_, rfl,
    fun field => startsField_of_mem_addedLines⟩
  · intro line hline
    rcases mem_cons.mp hline with rfl | hline
    · simp [siteLine]
    · rcases mem_append.mp hline with hline | hline
      · rcases mem_append.mp hline with hline | hline
        · obtain ⟨header, -, rfl⟩ := mem_map.mp hline
          exact headerLine_ne_nil
        · rintro rfl
          exact absurd (startsField_of_mem_addedLines hline) (by decide)
      · rw [mem_singleton.mp hline]
        exact headerLine_ne_nil
  · intro field hfield hop hmem hstarts
    rcases mem_append.mp hfield with hfield | hfield
    · rw [hhop field hfield hop hmem] at hstarts
      cases hstarts
    · exact mem_singleton.mp hfield
  · -- no other line starts with the name of this one
    rw [count_append, count_singleton_self, count_eq_zero.mpr]
    intro hmem
    have hstarts := hhop _ hmem (Str.bytes "connection") (by decide)
    rw [startsField_closeLine] at hstarts
    cases hstarts
  · obtain ⟨field, hfield, hstarts⟩ := hhostLine
    exact ⟨field, mem_append_left _ hfield, hstarts⟩

/-- A line that was found has no line feed. -/
lemma ForwardsCleanly.lf_not_mem {site : List UInt8} (h : ForwardsCleanly request headers site) :
    lf ∉ siteLine request ∧ ∀ header ∈ keptHeaders headers, lf ∉ headerLine header.1 header.2 := by
  obtain ⟨added, fields, hlines, -, -, -, -, -, hfields, -⟩ := h
  have hclean : ∀ line ∈ siteLine request :: fields, lf ∉ line := fun line hline =>
    lf_not_mem_of_mem_lfLines (hlines ▸ mem_append_left _ hline)
  refine ⟨hclean _ mem_cons_self, fun header hheader => hclean _ (mem_cons_of_mem _ ?_)⟩
  rw [hfields, append_assoc]
  exact mem_append_left _ (mem_map.mpr ⟨header, hheader, rfl⟩)

/-- **The head that is forwarded** is read as it was written exactly if no line feed stands inside
the URI or the value of a header that is passed on. -/
theorem forwardsCleanly_iff {head site : List UInt8} {target : Target}
    {authorization : Option (List UInt8 × List UInt8)}
    (h : parseRequest A head = .ok ⟨target, .forward site, authorization⟩) :
    ∃ request headers, parseHead head = .ok (request, headers) ∧
      (ForwardsCleanly request headers site ↔ ∀ text ∈ keptTexts request headers, lf ∉ text) := by
  obtain ⟨request, headers, hostPort, hhead, hhost, rfl, huri⟩ := of_parseRequest h
  have haccepted := accepted_of_parseHead hhead
  refine ⟨request, headers, hhead, ?_, ?_⟩
  · intro hforwards text htext
    obtain ⟨hline, hvalues⟩ := hforwards.lf_not_mem
    rcases mem_cons.mp htext with rfl | htext
    · rw [huri, ← lf_mem_siteLine haccepted]
      exact hline
    · obtain ⟨header, hheader, rfl⟩ := mem_map.mp htext
      rw [← lf_mem_headerLine (haccepted.names header (mem_of_mem_filter hheader))]
      exact hvalues header hheader
  · intro htexts
    obtain ⟨huriClean, hvalues⟩ := forall_mem_cons.mp htexts
    refine forwardsCleanly_of_lf_not_mem haccepted hhost (fun hlf => huriClean (huri.mpr hlf)) ?_
    exact fun header hheader => hvalues _ (mem_map_of_mem hheader)

/-! ### A header inside a header -/

/-- A request whose headers go on lines of their own. -/
theorem forwardsCleanly_plain : ∃ head site target authorization request headers,
    parseRequest Sample.noIpv6 head = .ok ⟨target, .forward site, authorization⟩ ∧
      parseHead head = .ok (request, headers) ∧ headers.length = 2 ∧
      ForwardsCleanly request headers site := by
  have hparse : parseRequest Sample.noIpv6 (Str.bytes
      "GET http://example.com/ HTTP/1.1\r\nX: a\r\nKeep-Alive: b\r\n\r\n") = .ok
        ⟨⟨.name (Str.bytes "example.com"), 80⟩, .forward (Str.bytes
          "GET / HTTP/1.1\r\nX: a\r\nHost: example.com\r\nConnection: close\r\n\r\n"), none⟩ := by
    decide +kernel
  have hhead : parseHead (Str.bytes
      "GET http://example.com/ HTTP/1.1\r\nX: a\r\nKeep-Alive: b\r\n\r\n") = .ok
        (⟨Str.bytes "GET", Str.bytes "http://example.com/", Str.bytes "HTTP/1.1"⟩,
          [(Str.bytes "X", Str.bytes "a"), (Str.bytes "Keep-Alive", Str.bytes "b")]) := by
    decide +kernel
  obtain ⟨request, headers, hhead', hiff⟩ := forwardsCleanly_iff hparse
  rw [hhead] at hhead'
  obtain ⟨rfl, rfl⟩ := Prod.mk.inj (Except.ok.inj hhead')
  exact ⟨_, _, _, _, _, _, hparse, hhead, rfl, hiff.mpr (by decide +kernel)⟩

/-- **A line feed hides a header.**  The value of `X` goes to the site as it is, and there the line
feed in it starts the header with the password. -/
theorem header_in_a_value : ∃ head site target authorization request headers,
    parseRequest Sample.noIpv6 head = .ok ⟨target, .forward site, authorization⟩ ∧
      parseHead head = .ok (request, headers) ∧ Str.bytes "Proxy-Authorization: b" ∈ lfLines site ∧
      ¬ ForwardsCleanly request headers site := by
  refine ⟨Str.bytes
      "GET http://example.com/ HTTP/1.1\r\nX: a\nProxy-Authorization: b\r\n\r\n", Str.bytes
      "GET / HTTP/1.1\r\nX: a\nProxy-Authorization: b\r\nHost: example.com\r\nConnection: close\r\n\r\n",
    ⟨.name (Str.bytes "example.com"), 80⟩, none,
    ⟨Str.bytes "GET", Str.bytes "http://example.com/", Str.bytes "HTTP/1.1"⟩,
    [(Str.bytes "X", Str.bytes "a\nProxy-Authorization: b")], by decide +kernel, by decide +kernel,
    by decide +kernel, fun hforwards => ?_⟩
  exact hforwards.lf_not_mem.2 (Str.bytes "X", Str.bytes "a\nProxy-Authorization: b")
    (by decide +kernel) (by decide +kernel)

end Ket.Share.Http
