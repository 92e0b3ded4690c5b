import Ket.Share.Dns
import Ket.Share.Server

/-!
# The reader of DNS answers is exact (`ket-share/src/dns.rs`)

Over the reader stand two descriptions of its own: a decoder of the question section, and responses
as messages with any list of records.  The question of a query decodes to the name, addresses come
only from a response to this query, and a message with response code 0 gives the addresses of its
A/IN records, in order.  Cut short inside those records it is ignored.
-/

namespace Ket.Share.Dns

open Ket.Lib Ket.Lib.Head Ket.Lib.Packet List
open Ket.Lib.Text (Ipv4Addr)

/-! ### The question section -/

structure Question where
  name : List UInt8
  kind : ℕ
  cls : ℕ
deriving DecidableEq

/-- Labels up to the root, and what follows. -/
def decodeName : List UInt8 → Option (List (List UInt8) × List UInt8)
  | [] => none
  | length :: rest =>
    if length = 0 then some ([], rest)
    else if length.toNat ≤ maxLabelLength ∧ length.toNat ≤ rest.length then
      (decodeName (rest.drop length.toNat)).map fun read =>
        (rest.take length.toNat :: read.1, read.2)
    else none
termination_by packet => packet.length

/-- The first question of a packet. -/
def decodeQuestion (packet : List UInt8) : Option Question :=
  (decodeName (packet.drop headerLength)).bind fun read =>
    if 4 ≤ read.2.length then
      some ⟨List.intercalate [0x2e] read.1, ofBigEndian (read.2.take 2),
        ofBigEndian ((read.2.drop 2).take 2)⟩
    else none

/-- The lengths that a label may have on the wire. -/
def IsLabel (label : List UInt8) : Prop := 1 ≤ label.length ∧ label.length ≤ maxLabelLength

section Names

variable {labels : List (List UInt8)} {rest : List UInt8}

lemma decodeName_root : decodeName (0 :: rest) = some ([], rest) := by
  rw [decodeName, if_pos rfl]

lemma encodeLabels_cons (label : List UInt8) :
    encodeLabels (label :: labels) = UInt8.ofNat label.length :: label ++ encodeLabels labels := rfl

lemma toNat_length {label : List UInt8} (h : IsLabel label) :
    (UInt8.ofNat label.length).toNat = label.length := by
  have hle := h.2
  rw [UInt8.toNat_ofNat', Nat.mod_eq_of_lt]
  exact Nat.lt_of_le_of_lt hle (by decide)

lemma length_ne_zero {label : List UInt8} (h : IsLabel label) : UInt8.ofNat label.length ≠ 0 := by
  intro hzero
  have htoNat := toNat_length h
  rw [hzero] at htoNat
  exact absurd h.1 (by rw [← htoNat]; decide)

lemma decodeName_labels (rest : List UInt8) (h : ∀ label ∈ labels, IsLabel label) :
    decodeName (encodeLabels labels ++ 0 :: rest) = some (labels, rest) := by
  induction labels with
  | nil => exact decodeName_root
  | cons label labels ih =>
    have hlabel := h label mem_cons_self
    have hlength := toNat_length hlabel
    rw [encodeLabels_cons, append_assoc, cons_append, decodeName,
      if_neg (length_ne_zero hlabel), hlength, if_pos ⟨hlabel.2, by simp⟩, drop_left,
      take_left, ih fun l hl => h l (mem_cons_of_mem _ hl)]
    rfl

/-- A packet whose question stands in the wire format. -/
lemma decodeQuestion_of_at {packet : List UInt8} {kind cls : ℕ} (h : ∀ label ∈ labels, IsLabel label)
    (hkind : kind < 65536) (hcls : cls < 65536) (hat : At packet headerLength
      (encodeLabels labels ++ [0] ++ toBigEndian 2 kind ++ toBigEndian 2 cls)) :
    decodeQuestion packet = some ⟨List.intercalate [0x2e] labels, kind, cls⟩ := by
  obtain ⟨front, rest, rfl, hfront⟩ := hat
  have hdecode : decodeName ((front ++ (encodeLabels labels ++ [0] ++ toBigEndian 2 kind ++
      toBigEndian 2 cls) ++ rest).drop headerLength) =
        some (labels, toBigEndian 2 kind ++ (toBigEndian 2 cls ++ rest)) := by
    rw [append_assoc, drop_left' hfront]
    have hlabels := decodeName_labels (toBigEndian 2 kind ++ (toBigEndian 2 cls ++ rest)) h
    simpa using hlabels
  rw [decodeQuestion, hdecode, Option.bind_some, if_pos (by simp; omega)]
  rw [take_left' (length_toBigEndian 2 kind), drop_left' (length_toBigEndian 2 kind),
    take_left' (length_toBigEndian 2 cls), ofBigEndian_toBigEndian (by simpa using hkind),
    ofBigEndian_toBigEndian (by simpa using hcls)]

end Names

/-! ### The names that are looked up -/

section Hosts

variable {A : ShareLib} {text name : List UInt8} {id : UInt16}

lemma isLabel_of_validLabel {label : List UInt8} (h : validLabel label = true) : IsLabel label := by
  simp only [validLabel, Bool.and_eq_true, bne_iff_ne, decide_eq_true_eq] at h
  obtain ⟨⟨⟨⟨hne, hlength⟩, -⟩, -⟩, -⟩ := h
  exact ⟨length_pos_iff.mpr hne, hlength⟩

lemma isLabel_of_parse (h : Host.parse A text = .ok (.name name)) :
    ∀ label ∈ name.splitOn 0x2e, IsLabel label := by
  unfold Host.parse at h
  split at h
  · rename_i inner _
    cases hinner : A.parseIpv6 inner with
    | _ =>
      rw [hinner] at h
      cases h
  · split at h
    · cases h
    · obtain ⟨-, h⟩ := require_bind_eq_ok.mp h
      obtain ⟨hlabels, h⟩ := require_bind_eq_ok.mp h
      obtain ⟨-, h⟩ := require_bind_eq_ok.mp h
      obtain ⟨-, h⟩ := require_bind_eq_ok.mp h
      cases h
      exact fun label hlabel => isLabel_of_validLabel (all_eq_true.mp hlabels label hlabel)

/-- The name of a query can be read back. -/
lemma decodeQuestion_query (h : ∀ label ∈ name.splitOn 0x2e, IsLabel label) :
    decodeQuestion (query id name) = some ⟨name, typeA, classIn⟩ := by
  have hat : At (query id name) headerLength (askedFor name) := by
    refine ⟨toBigEndian 2 id.toNat ++ [0x01, 0x00, 0x00, 0x01, 0, 0, 0, 0, 0, 0], [], ?_, ?_⟩
    · rw [append_nil, query]
    · simp [headerLength]
  rw [decodeQuestion_of_at h (by decide) (by decide) hat, intercalate_splitOn]

end Hosts

/-! ### Questions up to the case of letters -/

section Case

variable {labels : List (List UInt8)}

/-- Bytes below the letters have no other case. -/
lemma eq_of_toLower_eq {a b : UInt8} (h : toLower a = toLower b) (hb : b.toNat ≤ 63) : a = b := by
  have hlower : ¬ (0x61 ≤ b ∧ b ≤ 0x7a) := fun hle =>
    absurd (UInt8.le_iff_toNat_le.mp hle.1) (by simp; omega)
  have hupper : ¬ (0x41 ≤ b ∧ b ≤ 0x5a) := fun hle =>
    absurd (UInt8.le_iff_toNat_le.mp hle.1) (by simp; omega)
  have hself : toLower b = b := (toLower_eq_iff hlower hupper).mpr rfl
  exact (toLower_eq_iff hlower hupper).mp (h.trans hself)

lemma eq_of_map_toLower_eq {xs ys : List UInt8} (h : xs.map toLower = ys.map toLower)
    (hys : ∀ y ∈ ys, y.toNat ≤ 63) : xs = ys := by
  induction ys generalizing xs with
  | nil => simpa using h
  | cons y ys ih =>
    cases xs with
    | nil => simp at h
    | cons x xs =>
      rw [map_cons, map_cons, List.cons.injEq] at h
      rw [eq_of_toLower_eq h.1 (hys y mem_cons_self),
        ih h.2 fun z hz => hys z (mem_cons_of_mem _ hz)]

/-- The lengths of labels are no letters, so a text equal to labels up to case is itself labels,
equal up to case. -/
lemma exists_labels_of_map_toLower {xs tail : List UInt8} (hlabels : ∀ label ∈ labels, IsLabel label)
    (htail : ∀ b ∈ tail, b.toNat ≤ 63)
    (h : xs.map toLower = (encodeLabels labels ++ tail).map toLower) :
    ∃ labels' : List (List UInt8), xs = encodeLabels labels' ++ tail ∧
      labels'.map (List.map toLower) = labels.map (List.map toLower) := by
  induction labels generalizing xs with
  | nil => exact ⟨[], eq_of_map_toLower_eq h htail, rfl⟩
  | cons label labels ih =>
    have hlabel := hlabels label mem_cons_self
    rw [encodeLabels_cons, append_assoc, cons_append, map_cons, map_append]
      at h
    cases xs with
    | nil => simp at h
    | cons x xs =>
      obtain ⟨hx, hxs⟩ := List.cons.inj h
      obtain ⟨front, rest, rfl, hfront, hrest⟩ := map_eq_append_iff.mp hxs
      obtain ⟨labels', hsplit, hcase⟩ :=
        ih (fun l hl => hlabels l (mem_cons_of_mem _ hl)) hrest
      have hlength : front.length = label.length := by
        have := congrArg List.length hfront
        simpa using this
      have hx' : x = UInt8.ofNat label.length :=
        eq_of_toLower_eq hx (by rw [toNat_length hlabel]; exact hlabel.2)
      refine ⟨front :: labels', ?_, ?_⟩
      · rw [encodeLabels_cons, hlength, hsplit, hx', append_assoc]
        rfl
      · rw [map_cons, map_cons, hfront, hcase]

lemma isLabel_of_map_toLower {labels' : List (List UInt8)}
    (h : labels'.map (List.map toLower) = labels.map (List.map toLower))
    (hlabels : ∀ label ∈ labels, IsLabel label) : ∀ label ∈ labels', IsLabel label := by
  intro label hlabel
  have hmem : label.map toLower ∈ labels.map (List.map toLower) := h ▸ mem_map_of_mem hlabel
  obtain ⟨label', hlabel', heq⟩ := mem_map.mp hmem
  have hlength : label.length = label'.length := by
    have := congrArg List.length heq
    simpa using this.symm
  have hvalid := hlabels label' hlabel'
  rw [IsLabel, hlength]
  exact hvalid

lemma map_intercalate {f : UInt8 → UInt8} {sep : UInt8} (labels : List (List UInt8)) :
    (List.intercalate [sep] labels).map f = List.intercalate [f sep] (labels.map (List.map f)) := by
  induction labels with
  | nil => rfl
  | cons label labels ih =>
    cases labels with
    | nil => simp
    | cons next labels =>
      rw [intercalate_cons_cons, map_append, map_append, ih, map_cons,
        map_cons, map_cons, map_cons, intercalate_cons_cons]
      rfl

/-- Lowercase changes no dot and makes none. -/
lemma splitOn_map_toLower (s : List UInt8) :
    (s.map toLower).splitOn 0x2e = (s.splitOn 0x2e).map (List.map toLower) := by
  have hdot : ∀ b : UInt8, (toLower b == 0x2e) = (b == 0x2e) := fun b => by
    rw [Bool.eq_iff_iff, beq_iff_eq, beq_iff_eq]
    exact toLower_eq_iff (by decide) (by decide)
  simp only [List.splitOn]
  induction s with
  | nil => rfl
  | cons b s ih =>
    rw [map_cons, splitOnP_cons_eq_if_modifyHead, ih, hdot b,
      splitOnP_cons_eq_if_modifyHead]
    split
    · rfl
    · cases s.splitOnP (· == 0x2e) <;> rfl

lemma map_toLower_encodeLabels (labels : List (List UInt8)) : (encodeLabels labels).map toLower =
      (labels.map (List.map toLower)).flatMap fun label =>
        toLower (UInt8.ofNat label.length) :: label := by
  induction labels with
  | nil => rfl
  | cons label labels ih =>
    rw [encodeLabels_cons, map_append, ih, map_cons, map_cons, flatMap_cons,
      length_map]

end Case

/-! ### Addresses come from a response to this query -/

/-- The packet is a response to the query `id` for `name`. -/
structure Answers (id : UInt16) (name response : List UInt8) : Prop where
  id : ofBigEndian (response.take 2) = id.toNat
  isResponse : ∃ flags, response[2]? = some flags ∧ flags &&& 0x80 ≠ 0
  oneQuestion : ofBigEndian ((response.drop 4).take 2) = 1
  question : ∃ asked, decodeQuestion response = some ⟨asked, typeA, classIn⟩ ∧
    eqIgnoreCase asked name = true

section Matching

variable {id : UInt16} {name response : List UInt8}

lemma u16At_eq_ok_iff {bytes : List UInt8} {i n : ℕ} (h : i + 1 < bytes.length) :
    u16At bytes i = .ok n ↔ ofBigEndian ((bytes.drop i).take 2) = n := by
  have htwo : (bytes.drop i).take 2 = [bytes[i], bytes[i + 1]] := by
    rw [drop_eq_getElem_cons (Nat.lt_of_succ_lt h), drop_eq_getElem_cons h]
    rfl
  rw [u16At_eq_ok h, htwo]
  exact ⟨fun heq => Except.ok.inj heq, fun heq => congrArg _ heq⟩

/-- A question equal to that of the query up to case decodes to the name up to case. -/
lemma exists_decodeQuestion {question : List UInt8}
    (hlabels : ∀ label ∈ name.splitOn 0x2e, IsLabel label)
    (hget : get response headerLength (headerLength + (askedFor name).length) = .ok question)
    (hcase : eqIgnoreCase question (askedFor name) = true) :
    ∃ asked, decodeQuestion response = some ⟨asked, typeA, classIn⟩ ∧
      eqIgnoreCase asked name = true := by
  rw [eqIgnoreCase, beq_iff_eq, askedFor, append_assoc, append_assoc] at hcase
  obtain ⟨labels, rfl, hlower⟩ := exists_labels_of_map_toLower hlabels
    (by decide +kernel) hcase
  refine ⟨List.intercalate [0x2e] labels, ?_, ?_⟩
  · apply decodeQuestion_of_at (isLabel_of_map_toLower hlower hlabels) (by decide) (by decide)
    rw [append_assoc, append_assoc]
    exact at_of_get hget
  · rw [eqIgnoreCase, beq_iff_eq, map_intercalate, hlower, ← map_intercalate,
      intercalate_splitOn]

lemma answers_of_readAnswer {addresses : List Ipv4Addr}
    (hlabels : ∀ label ∈ name.splitOn 0x2e, IsLabel label)
    (h : readAnswer id name response = .ok (.addresses addresses)) : Answers id name response := by
  obtain ⟨header, hheader, h⟩ := bind_eq_ok.mp h
  have htwelve : header.length = 12 := length_of_get hheader
  obtain ⟨front, rest, rfl, hfront⟩ := at_of_get hheader
  obtain rfl := length_eq_zero_iff.mp hfront
  rw [nil_append] at h ⊢
  obtain ⟨named, hnamed, h⟩ := bind_eq_ok.mp h
  obtain ⟨flags, hflags, h⟩ := bind_eq_ok.mp h
  obtain ⟨hmatch, h⟩ := require_bind_eq_ok.mp h
  obtain ⟨questions, hquestions, h⟩ := bind_eq_ok.mp h
  obtain ⟨answers, -, h⟩ := bind_eq_ok.mp h
  obtain ⟨hone, h⟩ := require_bind_eq_ok.mp h
  rw [sliceFrom_query] at h
  obtain ⟨asked, hasked, h⟩ := bind_eq_ok.mp h
  cases hasked
  obtain ⟨question, hquestion, h⟩ := bind_eq_ok.mp h
  obtain ⟨hcase, -⟩ := require_bind_eq_ok.mp h
  simp only [Bool.and_eq_true, decide_eq_true_eq] at hmatch hone
  rw [u16At_eq_ok_iff (by omega)] at hnamed hquestions
  refine ⟨?_, ⟨flags, ?_, hmatch.2⟩, ?_, exists_decodeQuestion hlabels hquestion hcase⟩
  · rw [take_append_of_le_length (by omega), ← hmatch.1, ← hnamed, drop_zero]
  · rw [index, okOr_eq_ok] at hflags
    rw [getElem?_append_left (by omega), hflags]
  · rw [drop_append_of_le_length (by omega),
      take_append_of_le_length (by simp; omega), hquestions, hone]

end Matching

/-! ### Responses as messages -/

/-- How a name ends: at the root, or in a compression pointer. -/
inductive NameEnd where
  | root
  | pointer (target : Fin (2 ^ 14))

def NameEnd.encode : NameEnd → List UInt8
  | .root => [0]
  | .pointer target => [UInt8.ofNat (0xc0 + target.val / 256), UInt8.ofNat (target.val % 256)]

structure WireName where
  labels : List (List UInt8)
  isLabel : ∀ label ∈ labels, IsLabel label
  ending : NameEnd

def WireName.encode (name : WireName) : List UInt8 := encodeLabels name.labels ++ name.ending.encode

structure Record where
  name : WireName
  kind : UInt16
  cls : UInt16
  ttl : UInt32
  data : List UInt8
  length_data : data.length < 65536

/-- What stands between the name and the data. -/
def Record.fixed (record : Record) : List UInt8 :=
  toBigEndian 2 record.kind.toNat ++ toBigEndian 2 record.cls.toNat ++
    toBigEndian 4 record.ttl.toNat ++ toBigEndian 2 record.data.length

def Record.encode (record : Record) : List UInt8 :=
  record.name.encode ++ record.fixed ++ record.data

/-- The address of an A/IN record. -/
def Record.address (record : Record) : Option Ipv4Addr :=
  if record.kind.toNat = typeA ∧ record.cls.toNat = classIn then
    match record.data with
    | [a, b, c, d] => some ⟨a, b, c, d⟩
    | _ => none
  else none

/-- A message with one question and any list of records.  `rest` is what follows the records that
are counted as answers. -/
structure Message where
  id : UInt16
  flags : UInt8
  /-- More flags, and the response code. -/
  code : UInt8
  name : List UInt8
  records : List Record
  length_records : records.length < 65536
  authorities : UInt16
  additional : UInt16
  rest : List UInt8

def Message.header (m : Message) : List UInt8 :=
  toBigEndian 2 m.id.toNat ++ [m.flags, m.code] ++ toBigEndian 2 1 ++
    toBigEndian 2 m.records.length ++ toBigEndian 2 m.authorities.toNat ++
    toBigEndian 2 m.additional.toNat

/-- The message up to the end of the answers. -/
def Message.counted (m : Message) : List UInt8 :=
  m.header ++ askedFor m.name ++ m.records.flatMap Record.encode

def Message.encode (m : Message) : List UInt8 := m.counted ++ m.rest

/-- The addresses of the A/IN records, in order. -/
def Message.addresses (m : Message) : List Ipv4Addr := m.records.filterMap Record.address

/-- The message is a response to the query `id` for `name`. -/
structure Message.RespondsTo (m : Message) (id : UInt16) (name : List UInt8) : Prop where
  id : m.id = id
  isResponse : m.flags &&& 0x80 ≠ 0
  name : eqIgnoreCase m.name name = true

/-! ### Skipping a name -/

section Skipping

variable {packet : List UInt8} {start offset : ℕ}

/-- What a turn of `skipName` does with the byte that it read. -/
def skipLabel (length : UInt8) (offset : ℕ) (packet : List UInt8) : Except Stop ℕ :=
  if length = 0 then .ok (offset + 1)
  else if length &&& 0xc0 = 0xc0 then do
    let _ ← byte packet (offset + 1)
    return offset + 2
  else if length &&& 0xc0 = 0 then skipName packet (offset + (1 + length.toNat))
  else .error .missing

lemma skipName_eq (offset : ℕ) :
    (skipName · offset) = fun packet => byte packet offset >>= fun length =>
      skipLabel length offset packet := by
  funext packet
  rw [skipName]
  split
  · rename_i h
    rw [byte, h]
    rfl
  · rename_i length h
    have hbyte : byte packet offset = .ok length := by rw [byte, h, okOr_some]
    rw [hbyte]
    rfl

lemma skipLabel_pointer {length : UInt8} (h : length &&& 0xc0 = 0xc0) :
    skipLabel length offset = fun packet => byte packet (offset + 1) >>= fun _ =>
      .ok (offset + 2) := by
  have hne : length ≠ 0 := by
    rintro rfl
    exact absurd h (by decide)
  funext packet
  rw [skipLabel, if_neg hne, if_pos h]
  rfl

lemma skipLabel_label {label : List UInt8} (h : IsLabel label) :
    skipLabel (UInt8.ofNat label.length) offset = (skipName · (offset + (1 + label.length))) := by
  have hbits : ∀ n ≤ 63, UInt8.ofNat n &&& 0xc0 = 0 := by decide
  have hzero := hbits label.length h.2
  funext packet
  rw [skipLabel, if_neg (length_ne_zero h), if_neg (by rw [hzero]; decide), if_pos hzero,
    toNat_length h]

lemma NameEnd.needs_skipName {ending : NameEnd} (hstart : start ≤ offset)
    (h : At packet offset ending.encode) :
    Needs (skipName · offset) packet start (offset + ending.encode.length)
      (offset + ending.encode.length) := by
  rw [skipName_eq]
  cases ending with
  | root => exact (h.needs_byte hstart).done fun _ => rfl
  | pointer target =>
    have hbits : ∀ n < 64, UInt8.ofNat (0xc0 + n) &&& 0xc0 = 0xc0 := by decide
    have hpointer := hbits (target.val / 256) (by have := target.isLt; omega)
    refine (h.needs_byte hstart).bind ?_
    rw [skipLabel_pointer hpointer]
    exact (h.tail.needs_byte le_rfl).done fun _ => rfl

lemma needs_skipName_labels {labels : List (List UInt8)} {ending : NameEnd}
    (hlabels : ∀ label ∈ labels, IsLabel label) (hstart : start ≤ offset)
    (h : At packet offset (encodeLabels labels ++ ending.encode)) :
    Needs (skipName · offset) packet start (offset + (encodeLabels labels ++ ending.encode).length)
      (offset + (encodeLabels labels ++ ending.encode).length) := by
  induction labels generalizing start offset with
  | nil => exact ending.needs_skipName hstart h
  | cons label labels ih =>
    rw [encodeLabels_cons, append_assoc] at h ⊢
    have hlabel := hlabels label mem_cons_self
    have hlength : (UInt8.ofNat label.length :: label).length = 1 + label.length :=
      Nat.add_comm _ _
    rw [skipName_eq, length_append, hlength, ← Nat.add_assoc]
    refine (h.left.needs_byte hstart).bind ?_
    -- the bytes of the label are passed over; only the next length shows that they are there
    rw [skipLabel_label hlabel]
    have hrest := h.right
    rw [hlength] at hrest
    exact ih (fun l hl => hlabels l (mem_cons_of_mem _ hl)) (by omega) hrest

/-- A name is skipped to its end, and only if all of it is there. -/
lemma WireName.needs_skipName {name : WireName} (h : At packet offset name.encode) :
    Needs (skipName · offset) packet offset (offset + name.encode.length)
      (offset + name.encode.length) :=
  needs_skipName_labels name.isLabel le_rfl h

end Skipping

/-! ### Reading the records -/

section Records

variable {packet : List UInt8} {offset : ℕ}

variable (record : Record)

lemma Record.length_fixed : record.fixed.length = 10 := by
  simp [Record.fixed]

lemma Record.u16At_kind : u16At record.fixed 0 = .ok record.kind.toNat := by
  have hslice : record.fixed = [] ++ toBigEndian 2 record.kind.toNat ++
      (toBigEndian 2 record.cls.toNat ++ (toBigEndian 4 record.ttl.toNat ++
        toBigEndian 2 record.data.length)) := by
    simp only [Record.fixed, nil_append, append_assoc]
  exact u16At_toBigEndian hslice rfl record.kind.toNat_lt

lemma Record.u16At_cls : u16At record.fixed 2 = .ok record.cls.toNat := by
  have hslice : record.fixed = toBigEndian 2 record.kind.toNat ++ toBigEndian 2 record.cls.toNat ++
      (toBigEndian 4 record.ttl.toNat ++ toBigEndian 2 record.data.length) := by
    simp only [Record.fixed, append_assoc]
  exact u16At_toBigEndian hslice (length_toBigEndian _ _) record.cls.toNat_lt

lemma Record.u16At_length : u16At record.fixed 8 = .ok record.data.length := by
  have hslice : record.fixed = toBigEndian 2 record.kind.toNat ++ toBigEndian 2 record.cls.toNat ++
      toBigEndian 4 record.ttl.toNat ++ toBigEndian 2 record.data.length ++ [] := by
    rw [append_nil, Record.fixed]
  exact u16At_toBigEndian hslice (by simp) record.length_data

/-- What is done with a record once its data is read. -/
lemma Record.takeAddress (addresses : List Ipv4Addr) (stop : ℕ) :
    (if record.kind.toNat = typeA ∧ record.cls.toNat = classIn ∧ record.data.length = 4 then do
        let address ← ipv4At record.data
        return (addresses ++ [address], stop) else return (addresses, stop)) =
      (.ok (addresses ++ record.address.toList, stop) : Except Stop (List Ipv4Addr × ℕ)) := by
  unfold Record.address
  by_cases hkind : record.kind.toNat = typeA ∧ record.cls.toNat = classIn
  · rw [if_pos hkind]
    by_cases hfour : record.data.length = 4
    · obtain ⟨a, b, c, d, hdata⟩ : ∃ a b c d, record.data = [a, b, c, d] := by
        rcases hdata : record.data with _ | ⟨a, _ | ⟨b, _ | ⟨c, _ | ⟨d, _ | ⟨e, rest⟩⟩⟩⟩⟩
        all_goals rw [hdata] at hfour
        all_goals simp at hfour
        exact ⟨a, b, c, d, rfl⟩
      rw [if_pos ⟨hkind.1, hkind.2, hfour⟩, hdata]
      rfl
    · rw [if_neg fun h => hfour h.2.2]
      split
      · rename_i hdata
        rw [hdata] at hfour
        exact absurd rfl hfour
      · rw [Option.toList_none, append_nil]
        rfl
  · rw [if_neg fun h => hkind ⟨h.1, h.2.1⟩, if_neg hkind, Option.toList_none, append_nil]
    rfl

lemma needs_readRecord {record : Record} (addresses : List Ipv4Addr)
    (h : At packet offset record.encode) : Needs (readRecord · offset addresses) packet offset
      (addresses ++ record.address.toList, offset + record.encode.length)
      (offset + record.encode.length) := by
  have hlength : offset + record.encode.length =
      offset + record.name.encode.length + 10 + record.data.length := by
    rw [Record.encode, length_append, length_append, record.length_fixed]
    omega
  have hname := WireName.needs_skipName h.left.left
  have hfixed : Needs _ packet _ _ (offset + record.name.encode.length + 10) :=
    h.left.right.needs_get le_rfl (by rw [record.length_fixed])
  have hat := h.right
  rw [length_append, record.length_fixed, ← Nat.add_assoc] at hat
  rw [hlength]
  unfold readRecord
  refine hname.bind (hfixed.bind ?_)
  -- the numbers are read from the fixed part, which is there by now
  simp only [record.u16At_kind, record.u16At_cls, record.u16At_length]
  exact (hat.needs_get le_rfl rfl).done fun _ => record.takeAddress addresses _

lemma needs_readRecords {records : List Record} (addresses : List Ipv4Addr)
    (h : At packet offset (records.flatMap Record.encode)) :
    Needs (readRecords · records.length offset addresses) packet offset
      (addresses ++ records.filterMap Record.address,
        offset + (records.flatMap Record.encode).length)
      (offset + (records.flatMap Record.encode).length) := by
  induction records generalizing offset addresses with
  | nil =>
    rw [filterMap_nil, append_nil]
    exact needs_done fun _ => rfl
  | cons record records ih =>
    rw [flatMap_cons] at h ⊢
    have haddresses : addresses ++ (record :: records).filterMap Record.address =
        addresses ++ record.address.toList ++ records.filterMap Record.address := by
      rw [append_assoc]
      cases haddress : record.address with
      | none => rw [filterMap_cons_none haddress]; rfl
      | some address => rw [filterMap_cons_some haddress]; rfl
    rw [haddresses, length_append, ← Nat.add_assoc]
    exact (needs_readRecord addresses h.left).bind (ih _ h.right)

end Records

/-! ### Whole answers -/

section Messages

variable {m : Message} {id : UInt16} {name : List UInt8}

variable (m : Message)

lemma Message.length_header : m.header.length = headerLength := by
  simp [Message.header, headerLength]

lemma Message.u16At_id : u16At m.header 0 = .ok m.id.toNat := by
  have hslice : m.header = [] ++ toBigEndian 2 m.id.toNat ++ ([m.flags, m.code] ++
      (toBigEndian 2 1 ++ (toBigEndian 2 m.records.length ++ (toBigEndian 2 m.authorities.toNat ++
        toBigEndian 2 m.additional.toNat)))) := by
    simp only [Message.header, nil_append, append_assoc]
  exact u16At_toBigEndian hslice rfl m.id.toNat_lt

lemma Message.u16At_questions : u16At m.header 4 = .ok 1 := by
  have hslice : m.header = (toBigEndian 2 m.id.toNat ++ [m.flags, m.code]) ++ toBigEndian 2 1 ++
      (toBigEndian 2 m.records.length ++ (toBigEndian 2 m.authorities.toNat ++
        toBigEndian 2 m.additional.toNat)) := by
    simp only [Message.header, append_assoc]
  exact u16At_toBigEndian hslice (by simp) (by decide)

lemma Message.u16At_answers : u16At m.header 6 = .ok m.records.length := by
  have hslice : m.header = (toBigEndian 2 m.id.toNat ++ [m.flags, m.code] ++ toBigEndian 2 1) ++
      toBigEndian 2 m.records.length ++ (toBigEndian 2 m.authorities.toNat ++
        toBigEndian 2 m.additional.toNat) := by
    simp only [Message.header, append_assoc]
  exact u16At_toBigEndian hslice (by simp) m.length_records

lemma Message.index_flags : index m.header 2 = .ok m.flags := by
  rw [index, Message.header]
  simp

lemma Message.index_code : index m.header 3 = .ok m.code := by
  rw [index, Message.header]
  simp

/-- Names that differ in case only are asked for in the same way, up to case. -/
lemma eqIgnoreCase_askedFor {name' : List UInt8} (h : eqIgnoreCase name' name = true) :
    eqIgnoreCase (askedFor name') (askedFor name) = true ∧
      (askedFor name').length = (askedFor name).length := by
  rw [eqIgnoreCase, beq_iff_eq] at h
  have hlabels : (name'.splitOn 0x2e).map (List.map toLower) =
      (name.splitOn 0x2e).map (List.map toLower) := by
    rw [← splitOn_map_toLower, ← splitOn_map_toLower, h]
  have hencode : (encodeLabels (name'.splitOn 0x2e)).map toLower =
      (encodeLabels (name.splitOn 0x2e)).map toLower := by
    rw [map_toLower_encodeLabels, map_toLower_encodeLabels, hlabels]
  have hcase : (askedFor name').map toLower = (askedFor name).map toLower := by
    simp only [askedFor, map_append, hencode]
  refine ⟨beq_iff_eq.mpr hcase, ?_⟩
  simpa using congrArg List.length hcase

/-- **A message is read to the end of its counted records**, and gives their addresses. -/
lemma Message.needs_readAnswer (h : m.RespondsTo id name) (hcode : m.code &&& 0x0f = 0) :
    Needs (readAnswer id name) m.encode 0 (found m.addresses) m.counted.length := by
  have hat : At m.encode 0 (m.header ++ askedFor m.name ++ m.records.flatMap Record.encode) :=
    at_zero
  obtain ⟨hcase, hasked⟩ := eqIgnoreCase_askedFor h.name
  have hheader : Needs _ m.encode 0 m.header headerLength :=
    hat.left.left.needs_get le_rfl (by rw [m.length_header, Nat.zero_add])
  have hquestion := hat.left.right
  have hrecords := hat.right
  rw [Nat.zero_add, m.length_header] at hquestion
  rw [Nat.zero_add, length_append, m.length_header, hasked] at hrecords
  have hlength : m.counted.length =
      headerLength + (askedFor name).length + (m.records.flatMap Record.encode).length := by
    rw [Message.counted, length_append, length_append, m.length_header, hasked]
  rw [hlength]
  unfold readAnswer
  refine hheader.bind ?_
  have hmatch : (decide (m.id.toNat = id.toNat) && decide (m.flags &&& 0x80 ≠ 0)) = true := by
    simp [h.id, h.isResponse]
  simp only [m.u16At_id, m.index_flags, m.u16At_questions, m.u16At_answers, m.index_code,
    sliceFrom_query]
  simp only [bind, Except.bind, hmatch, require_true, decide_true]
  have hget : Needs _ m.encode headerLength (askedFor m.name) (headerLength + (askedFor name).length) :=
    hquestion.needs_get le_rfl (by rw [hasked])
  refine hget.bind ?_
  simp only [hcase, require_true, hcode, if_true]
  exact (needs_readRecords [] hrecords).done fun _ => rfl

end Messages

/-! ### The reader is exact -/

section Exact

variable {A : ShareLib} {text name : List UInt8}

lemma answer_of_ok {id : UInt16} {response : List UInt8} {a : Answer}
    (h : readAnswer id name response = .ok a) : answer id name response = .ok a := by
  rw [answer, h]

lemma answer_of_missing {id : UInt16} {response : List UInt8}
    (h : readAnswer id name response = .error .missing) :
    answer id name response = .ok .ignored := by
  rw [answer, h]

/-- **Looking up a name is exact.**  The question of a query decodes to the name.  Every byte string
is answered without an index out of bounds, with addresses only if it is a response to this query.
A response with code 0 gives the addresses of its A/IN records in order, and cut anywhere before the
end of the counted records it is ignored. -/
theorem answer_exact (h : Host.parse A text = .ok (.name name)) (id : UInt16) :
    decodeQuestion (query id name) = some ⟨name, typeA, classIn⟩ ∧
      (∀ response, ∃ a, answer id name response = .ok a ∧
        ∀ addresses, a = .addresses addresses → Answers id name response) ∧
      ∀ m : Message, m.RespondsTo id name → m.code &&& 0x0f = 0 →
        answer id name m.encode = .ok (found m.addresses) ∧
          ∀ cut < m.counted.length, answer id name (m.encode.take cut) = .ok .ignored := by
  have hlabels := isLabel_of_parse h
  refine ⟨decodeQuestion_query hlabels, fun response => ?_, fun m hm hcode => ?_⟩
  · obtain ⟨a, ha, hread⟩ := exists_answer id name response
    refine ⟨a, ha, ?_⟩
    rintro addresses rfl
    rcases hread with hread | ⟨hignored, -⟩
    · exact answers_of_readAnswer hlabels hread
    · cases hignored
  · have hneeds := m.needs_readAnswer hm hcode
    refine ⟨answer_of_ok hneeds.eq_ok, fun cut hcut => ?_⟩
    exact answer_of_missing (by rw [hneeds.cut (Nat.zero_le cut), if_neg (by omega)])

end Exact

namespace Sample

def host : List UInt8 := Str.bytes "ket.example"

/-- The name of the question, by a pointer to it. -/
def pointer : WireName := ⟨[], by simp, .pointer 12⟩

/-- An A record for the name of the question. -/
def record (last : UInt8) : Record := ⟨pointer, 1, 1, 60, [192, 0, 2, last], by simp⟩

/-- A name server of another name: a record of another type. -/
def serverRecord : Record where
  name := ⟨[Str.bytes "other"], by simp only [IsLabel]; decide, .root⟩
  kind := 2
  cls := 1
  ttl := 60
  data := pointer.encode
  length_data := by decide

/-- A response with these records and this code. -/
def response (records : List Record) (hrecords : records.length < 65536) (code : UInt8) :
    Message where
  id := 7
  flags := 0x81
  code := code
  name := host
  records := records
  length_records := hrecords
  authorities := 0
  additional := 0
  rest := []

lemma parse_host : Host.parse Sample.noIpv6 host = .ok (.name host) := by decide

lemma respondsTo (records : List Record) (hrecords : records.length < 65536) (code : UInt8) :
    (response records hrecords code).RespondsTo 7 host where
  id := rfl
  isResponse := by
    show (0x81 : UInt8) &&& 0x80 ≠ 0
    decide
  name := beq_self_eq_true (host.map toLower)

/-- Two addresses with a record of another type between them. -/
def mixed : Message := response [record 7, serverRecord, record 9] (by decide) 0x80

/-- A response that the name does not exist, with an address. -/
def missing : Message := response [record 7] (by decide) 0x83

end Sample

theorem answer_exact_record : Host.parse Sample.noIpv6 Sample.host = .ok (.name Sample.host) ∧
      answer 7 Sample.host Sample.mixed.encode
        = .ok (.addresses [⟨192, 0, 2, 7⟩, ⟨192, 0, 2, 9⟩]) ∧
      answer 7 Sample.host (Sample.mixed.encode.take 60) = .ok .ignored := by
  obtain ⟨haddresses, hcut⟩ := (answer_exact Sample.parse_host 7).2.2 Sample.mixed
    (Sample.respondsTo _ _ _) (by decide)
  exact ⟨Sample.parse_host, haddresses, hcut 60 (by decide)⟩

/-- A response that the name does not exist is read before its records: with an A record in it, and
with that record cut short, the name is still reported as not found. -/
theorem records_of_a_missing_name : Host.parse Sample.noIpv6 Sample.host = .ok (.name Sample.host) ∧
      Sample.missing.RespondsTo 7 Sample.host ∧ Sample.missing.addresses = [⟨192, 0, 2, 7⟩] ∧
      answer 7 Sample.host Sample.missing.encode = .ok .notFound ∧
      answer 7 Sample.host Sample.missing.counted.dropLast = .ok .notFound :=
  ⟨Sample.parse_host, Sample.respondsTo _ _ _, by decide, by decide, by decide⟩

end Ket.Share.Dns
