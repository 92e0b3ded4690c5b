import Ket.Tunnel.Bypass

/-!
# The bypass list on Android (`connection/BypassEntries.kt`)

The Kotlin port of the rules for the bypass list.  An address is its bytes.  Texts are lists of
characters; a character outside the first plane, which Kotlin keeps as two, is refused by both.
-/

namespace Ket.Android

open Ket.Lib Ket.Lib.IpText List Option
open Ket.Lib.Text (Ipv4Addr)

/-- `Char.isWhitespace`: Java's `isWhitespace` or `isSpaceChar`. -/
def isWhitespace (c : Char) : Bool :=
  let n := c.toNat
  (0x09 ≤ n && n ≤ 0x0d) || (0x1c ≤ n && n ≤ 0x20) || n == 0xa0 || n == 0x1680 ||
    (0x2000 ≤ n && n ≤ 0x200a) || n == 0x2028 || n == 0x2029 || n == 0x202f || n == 0x205f ||
    n == 0x3000

/-- `String.trim`. -/
def trim (s : List Char) : List Char := Str.trimBy isWhitespace s

structure BypassPrefix where
  address : List UInt8
  length : ℕ
deriving DecidableEq

namespace BypassPrefix

def isIpv4 (p : BypassPrefix) : Bool := p.address.length == 4

/-- One round of the loop of `of`: a bit is cleared. -/
def clearBit (masked : List UInt8) (bit : ℕ) : List UInt8 :=
  masked.modify (bit / 8) fun b => b &&& ~~~ ((0x80 : UInt8) >>> UInt8.ofNat (bit % 8))

/-- `BypassPrefix.of`. -/
def of (address : List UInt8) (length : ℕ) : BypassPrefix :=
  ⟨(List.range' length (address.length * 8 - length)).foldl clearBit address, length⟩

end BypassPrefix

/-- `ipv6Text`, the loop over the groups: `best` is the longest run of two or more zeros so far, by
its start and length.  The index grows in each round, so that nine rounds are enough. -/
def longestZeros (zeros : List Bool) : ℕ → ℕ → Option (ℕ × ℕ) → Option (ℕ × ℕ)
  | 0, _, best => best
  | fuel + 1, index, best =>
    if index < zeros.length then
      if zeros.getD index false then
        let run := ((zeros.drop index).takeWhile id).length
        let better := best.elim 0 Prod.snd < run ∧ 2 ≤ run
        longestZeros zeros fuel (index + run) (if better then some (index, run) else best)
      else longestZeros zeros fuel (index + 1) best
    else best

/-- The groups of the bytes of an IPv6 address. -/
def groupsOf (address : List UInt8) : List ℕ :=
  (List.range 8).map fun i =>
    (address.getD (i * 2) 0).toNat * 256 + (address.getD (i * 2 + 1) 0).toNat

def ipv6Text (address : List UInt8) : List Char :=
  let groups := groupsOf address
  match longestZeros (groups.map (· == 0)) 9 0 none with
  | none => joinGroups groups
  | some (start, run) =>
    joinGroups (groups.take start) ++ ':' :: ':' :: joinGroups (groups.drop (start + run))

/-- `BypassPrefix.toString`. -/
def BypassPrefix.text (p : BypassPrefix) : List Char :=
  let text := if p.isIpv4 then ['.'].intercalate (p.address.map Text.octetText)
    else ipv6Text p.address
  if p.length = p.address.length * 8 then text else text ++ '/' :: Nat.toDigits 10 p.length

inductive BypassRefusal where
  | invalid
  | tooWide
  | special
  | tooMany
deriving DecidableEq, Repr

def BypassRefusal.code : BypassRefusal → String
  | .invalid => "invalid"
  | .tooWide => "too_wide"
  | .special => "special"
  | .tooMany => "too_many"

namespace BypassEntries

def minIpv4Prefix : ℕ := 8
def minIpv6Prefix : ℕ := 16

/-- `isSpecial`. -/
def isSpecial (address : List UInt8) : Bool :=
  if address.length = 4 then
    address.headD 0 == 127 || (224 ≤ address.headD 0 && address.headD 0 ≤ 239) ||
      address.all (· == 0) || address.all (· == 255)
  else
    address.all (· == 0) || ((address.take 15).all (· == 0) && address.getD 15 0 == 1) ||
      address.headD 0 == 0xff

/-- A part of `parseIpv4`. -/
def parsePart (part : List Char) : Option UInt8 :=
  if part = [] ∨ 3 < part.length ∨ ¬ part.all Char.isDigit then none
  else if 1 < part.length ∧ part.head? = some '0' then none
  else
    let n := Nat.ofDigitChars 10 part 0
    if n ≤ 255 then some (UInt8.ofNat n) else none

variable (text : List Char)

/-- `parseIpv4`. -/
def parseIpv4 : Option (List UInt8) :=
  let parts := text.splitOn '.'
  if parts.length ≠ 4 then none else parts.mapM parsePart

/-- `text.split("::")`. -/
def splitDouble : List Char → List (List Char)
  | ':' :: ':' :: s => [] :: splitDouble s
  | c :: s => (splitDouble s).modifyHead (c :: ·)
  | [] => [[]]

/-- `text.contains(":::")`. -/
def hasTriple : List Char → Bool
  | ':' :: ':' :: ':' :: _ => true
  | _ :: s => hasTriple s
  | [] => false

/-- The groups of a piece; an IPv4 address may be the last piece. -/
def pieceGroups (last : Bool) (piece : List Char) : Option (List ℕ) :=
  if '.' ∈ piece then
    if last then
      (parseIpv4 piece).map fun v4 =>
        [(v4.getD 0 0).toNat * 256 + (v4.getD 1 0).toNat,
          (v4.getD 2 0).toNat * 256 + (v4.getD 3 0).toNat]
    else none
  else if piece = [] ∨ 4 < piece.length then none
  else some [ofHex piece]

/-- The loop of `groups` over the pieces. -/
def piecesGroups : List (List Char) → Option (List ℕ)
  | [] => some []
  | piece :: rest => do
      let first ← pieceGroups rest.isEmpty piece
      let others ← piecesGroups rest
      return first ++ others

/-- `groups`. -/
def groups (part : List Char) : Option (List ℕ) :=
  if part = [] then some [] else piecesGroups (part.splitOn ':')

/-- The eight groups of `parseIpv6`. -/
def ipv6Groups : Option (List ℕ) :=
  match splitDouble text with
  | [whole] => (groups whole).filter fun head => head.length = 8
  | [first, second] => do
      let head ← groups first
      let tail ← groups second
      if 7 < head.length + tail.length then none
      else some (head ++ List.replicate (8 - head.length - tail.length) 0 ++ tail)
  | _ => none

/-- The characters that `parseIpv6` lets through. -/
def isAddressChar (c : Char) : Bool := isHex c || c == ':' || c == '.'

/-- `parseIpv6`: an IPv4 address written as IPv6 is refused. -/
def parseIpv6 : Option (List UInt8) :=
  if text = [] ∨ text.count ':' < 2 ∨ hasTriple text then none
  else if ¬ text.all isAddressChar then none
  else do
    let all ← ipv6Groups text
    let bytes := Tunnel.IpAddr.groupOctets all
    let mapped := (bytes.take 10).all (· == 0) && bytes.getD 10 0 == 0xff && bytes.getD 11 0 == 0xff
    if mapped then none else some bytes

/-- `digits.toIntOrNull()`, for a text of digits. -/
def toIntOrNull (digits : List Char) : Option ℕ :=
  let n := Nat.ofDigitChars 10 digits 0
  if n < 2 ^ 31 then some n else none

/-- The length of a prefix, after the address. -/
def parseLength (bits : ℕ) : List Char → Option ℕ
  | [] => some bits
  | _ :: digits =>
    if digits = [] ∨ ¬ digits.all Char.isDigit then none
    else (toIntOrNull digits).filter fun length => length ≤ bits

/-- `check`, of a text that is trimmed. -/
def checkTrimmed (trimmed : List Char) : Except BypassRefusal BypassPrefix := do
  let addressText := trimmed.takeWhile (· != '/')
  let address ← okOr ((parseIpv4 addressText).or (parseIpv6 addressText)) .invalid
  let bits := address.length * 8
  let length ← okOr (parseLength bits (trimmed.drop addressText.length)) .invalid
  let p := BypassPrefix.of address length
  require (decide ((if p.isIpv4 then minIpv4Prefix else minIpv6Prefix) ≤ length)) .tooWide
  require (!isSpecial p.address) .special
  return p

/-- `check`. -/
def check (text : String) : Except BypassRefusal BypassPrefix := checkTrimmed (trim text.toList)

/-! ### IPv4 addresses -/

variable {c : Char} {bytes : List UInt8} {text s : List Char} {values : List ℕ}

lemma exists_digitChar (h : c.isDigit = true) : ∃ i : Fin 10, c = Nat.digitChar i := by
  have hbounds := Char.isDigit_iff_toNat.mp h
  rw [show '0'.toNat = 48 from rfl, show '9'.toNat = 57 from rfl] at hbounds
  refine ⟨⟨c.toNat - 48, by omega⟩, ?_⟩
  have hall : ∀ i : Fin 10, (Nat.digitChar i).toNat = i.val + 48 := by decide
  refine Char.toNat_inj.mp ?_
  rw [hall]
  show c.toNat = c.toNat - 48 + 48
  omega

lemma parsePart_eq (part : List Char) : parsePart part = Text.parseOctet part := by
  by_cases h : part = [] ∨ 3 < part.length ∨ ¬ part.all Char.isDigit
  · -- the text of an octet is none of these
    rw [parsePart, if_pos h]
    by_contra hne
    obtain ⟨o, ho⟩ := ne_none_iff_exists'.mp (Ne.symm hne)
    have hall : ∀ n : Fin 256, Nat.toDigits 10 n ≠ [] ∧ (Nat.toDigits 10 n).length ≤ 3 ∧
        (Nat.toDigits 10 n).all Char.isDigit = true := by decide +kernel
    have hoctet := hall ⟨o.toNat, o.toNat_lt⟩
    rw [show Nat.toDigits 10 (⟨o.toNat, o.toNat_lt⟩ : Fin 256) = part from
      Text.octetText_of_parseOctet ho] at hoctet
    rcases h with h | h | h
    · exact hoctet.1 h
    · exact absurd hoctet.2.1 (Nat.not_le_of_lt h)
    · exact h hoctet.2.2
  · -- up to three digits can be tried one by one
    simp only [not_or, not_lt, not_not] at h
    obtain ⟨hne, hshort, hdigits⟩ := h
    have hdigits := all_eq_true.mp hdigits
    match part with
    | [x] =>
      obtain ⟨i, rfl⟩ := exists_digitChar (hdigits x (by simp))
      have hall : ∀ i : Fin 10, parsePart [Nat.digitChar i] = Text.parseOctet [Nat.digitChar i] := by
        decide +kernel
      exact hall i
    | [x, y] =>
      obtain ⟨i, rfl⟩ := exists_digitChar (hdigits x (by simp))
      obtain ⟨j, rfl⟩ := exists_digitChar (hdigits y (by simp))
      have hall : ∀ i j : Fin 10, parsePart [Nat.digitChar i, Nat.digitChar j]
          = Text.parseOctet [Nat.digitChar i, Nat.digitChar j] := by decide
      exact hall i j
    | [x, y, z] =>
      obtain ⟨i, rfl⟩ := exists_digitChar (hdigits x (by simp))
      obtain ⟨j, rfl⟩ := exists_digitChar (hdigits y (by simp))
      obtain ⟨k, rfl⟩ := exists_digitChar (hdigits z (by simp))
      have hall : ∀ i j k : Fin 10,
          parsePart [Nat.digitChar i, Nat.digitChar j, Nat.digitChar k]
            = Text.parseOctet [Nat.digitChar i, Nat.digitChar j, Nat.digitChar k] := by
        decide
      exact hall i j k

def ipv4Octets (ip : Ipv4Addr) : List UInt8 := [ip.a, ip.b, ip.c, ip.d]

lemma parseIpv4_eq : parseIpv4 text = (Ipv4Addr.parse text).map ipv4Octets := by
  have hpart : parsePart = Text.parseOctet := funext parsePart_eq
  rw [parseIpv4, Ipv4Addr.parse, hpart]
  rcases text.splitOn '.' with _ | ⟨a, _ | ⟨b, _ | ⟨c, _ | ⟨d, _ | ⟨e, rest⟩⟩⟩⟩⟩
  · rfl
  · rfl
  · rfl
  · rfl
  · simp only [length_cons, length_nil, ne_eq, not_true_eq_false, if_false,
      mapM_cons, mapM_nil, bind_eq_bind, Option.map_bind, bind_assoc,
      Function.comp_def]
    rfl
  · simp

lemma parseIpv4_eq_some :
    parseIpv4 text = some bytes ↔ ∃ ip : Ipv4Addr, text = ip.text ∧ bytes = ipv4Octets ip := by
  rw [parseIpv4_eq, map_eq_some_iff]
  constructor
  · rintro ⟨ip, hip, rfl⟩
    exact ⟨ip, (Ipv4Addr.text_of_parse hip).symm, rfl⟩
  · rintro ⟨ip, rfl, rfl⟩
    exact ⟨ip, Ipv4Addr.parse_text ip, rfl⟩

/-! ### IPv6 addresses -/

lemma pieceGroups_digits (g : HexGroup) (last : Bool) :
    pieceGroups last g.digits = some [g.value] := by
  have hdot : '.' ∉ g.digits := fun h => by cases g.hex _ h
  have hlength : ¬ (g.digits = [] ∨ 4 < g.digits.length) := by
    rintro (h | h)
    · exact g.nonempty h
    · exact absurd g.short (Nat.not_le_of_lt h)
  rw [pieceGroups, if_neg hdot, if_neg hlength]
  rfl

lemma pieceGroups_text (ip : Ipv4Addr) : pieceGroups true ip.text = some (quadValues ip) := by
  have hdot : '.' ∈ ip.text := by
    rw [text_eq_octets]
    simp
  rw [pieceGroups, if_pos hdot, if_pos rfl, parseIpv4_eq_some.mpr ⟨ip, rfl, rfl⟩]
  rfl

/-- The pieces of a part are read as its groups. -/
lemma piecesGroups_pieces (p : Part) : piecesGroups p.pieces = some p.values := by
  obtain ⟨groups, quad⟩ := p
  induction groups with
  | nil =>
    cases quad with
    | none => rfl
    | some ip =>
      show (do
        let first ← pieceGroups true ip.text
        let others ← piecesGroups []
        return first ++ others) = _
      rw [pieceGroups_text]
      rfl
  | cons g groups ih =>
    show (do
      let first ← pieceGroups _ g.digits
      let others ← piecesGroups (Part.pieces ⟨groups, quad⟩)
      return first ++ others) = _
    rw [pieceGroups_digits, ih]
    rfl

lemma exists_of_piecesGroups {pieces : List (List Char)}
    (hchars : ∀ piece ∈ pieces, ∀ c ∈ piece, isHex c = true ∨ c = '.')
    (h : piecesGroups pieces = some values) :
    ∃ p : Part, p.pieces = pieces ∧ p.values = values := by
  induction pieces generalizing values with
  | nil =>
    cases h
    exact ⟨⟨[], none⟩, rfl, rfl⟩
  | cons piece rest ih =>
    simp only [piecesGroups, bind_eq_bind, bind_eq_some_iff] at h
    obtain ⟨first, hfirst, others, hothers, h⟩ := h
    cases h
    have hpiece := hchars piece mem_cons_self
    rw [pieceGroups] at hfirst
    split_ifs at hfirst with hdot hlast hlength
    · -- an IPv4 address is the last piece
      obtain rfl : rest = [] := List.isEmpty_iff.mp hlast
      obtain ⟨bytes, hbytes, rfl⟩ := map_eq_some_iff.mp hfirst
      obtain ⟨ip, rfl, rfl⟩ := parseIpv4_eq_some.mp hbytes
      cases hothers
      exact ⟨⟨[], some ip⟩, rfl, rfl⟩
    · cases hfirst
      obtain ⟨p, hpieces, hvalues⟩ :=
        ih (fun piece hmem => hchars piece (mem_cons_of_mem _ hmem)) hothers
      simp only [not_or, not_lt] at hlength
      have hhex : ∀ c ∈ piece, isHex c = true := fun c hc =>
        (hpiece c hc).resolve_right fun heq => hdot (heq ▸ hc)
      refine ⟨Part.cons ⟨piece, hlength.1, hlength.2, hhex⟩ p, ?_, ?_⟩
      · rw [Part.pieces_cons, hpieces]
      · rw [Part.values_cons, hvalues]
        rfl

lemma groups_eq_some {part : List Char} (hchars : ∀ c ∈ part, isAddressChar c = true) :
    groups part = some values ↔ ∃ p : Part, part = p.text ∧ p.values = values := by
  constructor
  · intro h
    rw [groups] at h
    split_ifs at h with hnil
    · cases h
      exact ⟨⟨[], none⟩, hnil, rfl⟩
    · have hpieces : ∀ piece ∈ part.splitOn ':', ∀ c ∈ piece, isHex c = true ∨ c = '.' := by
        intro piece hpiece c hc
        obtain ⟨hmem, hne⟩ := Text.of_mem_splitOn hpiece hc
        simpa [isAddressChar, hne] using hchars c hmem
      obtain ⟨p, hp, hvalues⟩ := exists_of_piecesGroups hpieces h
      refine ⟨p, ?_, hvalues⟩
      rw [Part.text, hp, intercalate_splitOn]
  · rintro ⟨p, rfl, rfl⟩
    cases hp : p.pieces with
    | nil =>
      have hread := piecesGroups_pieces p
      rw [hp] at hread
      rw [groups, Part.text, hp]
      exact hread
    | cons piece rest =>
      have hne : p.text ≠ [] := by
        rw [Part.text_of_pieces hp]
        refine append_ne_nil_of_left_ne_nil ?_ _
        exact (Part.mem_pieces (hp ▸ mem_cons_self)).1
      have hsplit : p.text.splitOn ':' = p.pieces :=
        splitOn_intercalate ':' (fun l hl => Part.colon_not_mem hl) (by simp [hp])
      rw [groups, if_neg hne, hsplit, piecesGroups_pieces]

lemma splitDouble_cons (h : ¬ (c = ':' ∧ ':' ∈ s.head?)) :
    splitDouble (c :: s) = (splitDouble s).modifyHead (c :: ·) := by
  rw [splitDouble]
  rintro s' rfl rfl
  exact h ⟨rfl, rfl⟩

lemma splitDouble_single (h : Single s) : splitDouble s = [s] := by
  induction s with
  | nil => rfl
  | cons c s ih =>
    rw [splitDouble_cons h.not_head, ih h.tail]
    rfl

/-- A text is split at the first two colons that stand side by side. -/
lemma splitDouble_append (h : Single s) (hlast : ':' ∉ s.getLast?) (t : List Char) :
    splitDouble (s ++ ':' :: ':' :: t) = s :: splitDouble t := by
  induction s with
  | nil => rfl
  | cons c s ih =>
    obtain ⟨hhead, hlast'⟩ := h.not_head_append hlast (':' :: ':' :: t)
    rw [cons_append, splitDouble_cons hhead, ih h.tail hlast']
    rfl

lemma hasTriple_cons (h : ¬ (c = ':' ∧ ':' ∈ s.head?)) : hasTriple (c :: s) = hasTriple s := by
  rw [hasTriple]
  rintro s' rfl rfl
  exact h ⟨rfl, rfl⟩

lemma hasTriple_single (h : Single s) : hasTriple s = false := by
  induction s with
  | nil => rfl
  | cons c s ih => rw [hasTriple_cons h.not_head, ih h.tail]

lemma hasTriple_append {t : List Char} (h : Single s) (hlast : ':' ∉ s.getLast?) (ht : Single t)
    (hhead : ':' ∉ t.head?) : hasTriple (s ++ ':' :: ':' :: t) = false := by
  induction s with
  | nil =>
    have hnot : ∀ t', t ≠ ':' :: t' := by
      rintro t' rfl
      exact hhead rfl
    rw [nil_append, hasTriple, hasTriple_cons (fun h => hhead h.2), hasTriple_single ht]
    exact fun t' _ heq => hnot t' (List.cons.inj heq).2
  | cons c s ih =>
    obtain ⟨hhead, hlast'⟩ := h.not_head_append hlast (':' :: ':' :: t)
    rw [cons_append, hasTriple_cons hhead, ih h.tail hlast']

/-- The parts of a split text, with two colons between them, are the text. -/
lemma eq_of_splitDouble (s : List Char) : [':', ':'].intercalate (splitDouble s) = s := by
  have hne : ∀ s, splitDouble s ≠ [] := by
    intro s
    fun_induction splitDouble s with
    | case1 | case3 => exact cons_ne_nil _ _
    | case2 c s hnot ih =>
      cases h : splitDouble s with
      | nil => exact absurd h ih
      | cons first rest => exact cons_ne_nil _ _
  fun_induction splitDouble s with
  | case1 s ih =>
    cases h : splitDouble s with
    | nil => exact absurd h (hne s)
    | cons first rest =>
      rw [h] at ih
      rw [intercalate_cons_cons, ih]
      rfl
  | case2 c s hnot ih =>
    cases h : splitDouble s with
    | nil => exact absurd h (hne s)
    | cons first rest =>
      rw [h] at ih
      rw [modifyHead_cons]
      cases rest with
      | nil =>
        rw [intercalate_singleton] at ih ⊢
        rw [ih]
      | cons next rest =>
        rw [intercalate_cons_cons] at ih ⊢
        rw [← ih]
        rfl
  | case3 => rfl

/-- The eight groups are those of the text, where an IPv4 address may stand before `::`. -/
lemma ipv6Groups_eq_some (hchars : ∀ c ∈ text, isAddressChar c = true) :
    ipv6Groups text = some values ↔ Ipv6Text true text values := by
  constructor
  · intro h
    have heq := eq_of_splitDouble text
    rw [ipv6Groups] at h
    split at h
    · rename_i whole hsplit
      rw [hsplit, intercalate_singleton] at heq
      subst heq
      obtain ⟨hgroups, hlength⟩ := filter_eq_some_iff.mp h
      obtain ⟨p, rfl, rfl⟩ := (groups_eq_some hchars).mp hgroups
      exact .full p (of_decide_eq_true hlength)
    · rename_i first second hsplit
      rw [hsplit, intercalate_cons_cons, intercalate_singleton] at heq
      subst heq
      simp only [bind_eq_bind, bind_eq_some_iff] at h
      obtain ⟨head, hhead, tail, htail, h⟩ := h
      obtain ⟨p, rfl, rfl⟩ := (groups_eq_some fun c hc => hchars c (by simp [hc])).mp hhead
      obtain ⟨q, rfl, rfl⟩ := (groups_eq_some fun c hc => hchars c (by simp [hc])).mp htail
      rw [ite_none_left_eq_some] at h
      obtain ⟨hlength, h⟩ := h
      cases h
      rw [append_assoc]
      exact .short p q nofun (Nat.le_of_not_lt hlength)
    · cases h
  · rintro (⟨p, hlength⟩ | ⟨head, tail, -, hlength⟩)
    · have hgroups := (groups_eq_some hchars).mpr ⟨p, rfl, rfl⟩
      rw [ipv6Groups, splitDouble_single p.single_text.1]
      simp only [hgroups]
      exact filter_eq_some_iff.mpr ⟨rfl, decide_eq_true hlength⟩
    · obtain ⟨hsingle, -, hlast⟩ := head.single_text
      have hhead := (groups_eq_some fun c hc => hchars c (by simp [hc])).mpr ⟨head, rfl, rfl⟩
      have htail := (groups_eq_some fun c hc => hchars c (by simp [hc])).mpr ⟨tail, rfl, rfl⟩
      rw [ipv6Groups, splitDouble_append hsingle hlast, splitDouble_single tail.single_text.1]
      simp only [hhead, htail, bind_eq_bind, bind_some]
      rw [if_neg (Nat.not_lt_of_le hlength)]

/-- The test for an IPv4-mapped address looks at the first twelve bytes. -/
lemma mapped_groupOctets (hlength : values.length = 8) (hlt : ∀ g ∈ values, g < 65536) :
    (((Tunnel.IpAddr.groupOctets values).take 10).all (· == 0) &&
      (Tunnel.IpAddr.groupOctets values).getD 10 0 == 0xff &&
        (Tunnel.IpAddr.groupOctets values).getD 11 0 == 0xff) = isMapped values := by
  match values with
  | [a, b, c, d, e, f, g, h] =>
    simp only [forall_mem_cons] at hlt
    obtain ⟨ha, hb, hc, hd, he, hf, -⟩ := hlt
    rw [Bool.eq_iff_iff]
    simp only [Tunnel.IpAddr.groupOctets, isMapped, flatMap_cons, flatMap_nil,
      cons_append, nil_append, take_succ_cons, take_zero, all_cons,
      all_nil, getD_cons_succ, getD_cons_zero, Bool.and_eq_true, beq_iff_eq,
      List.cons.injEq, ← UInt8.toNat_inj, UInt8.toNat_ofNat', UInt8.toNat_ofNat, and_true]
    omega

/-- `parseIpv6` reads the texts of IPv6 addresses, also with an IPv4 address before `::`. -/
lemma parseIpv6_eq_some :
    parseIpv6 text = some bytes ↔ ∃ values, Ipv6Text true text values ∧ isMapped values = false ∧
      bytes = Tunnel.IpAddr.groupOctets values := by
  constructor
  · intro h
    rw [parseIpv6] at h
    split_ifs at h with hlook hall
    · simp only [bind_eq_bind, bind_eq_some_iff] at h
      obtain ⟨values, hvalues, h⟩ := h
      have htext := (ipv6Groups_eq_some (all_eq_true.mp hall)).mp hvalues
      rw [mapped_groupOctets htext.groups.1 htext.groups.2] at h
      split_ifs at h with hmapped
      cases h
      exact ⟨values, htext, by simpa using hmapped, rfl⟩
  · rintro ⟨values, htext, hmapped, rfl⟩
    obtain ⟨hcount, hchars⟩ := htext.chars
    have hall : ∀ c ∈ text, isAddressChar c = true := by
      intro c hc
      rcases hchars c hc with h | h | h
      · simp [isAddressChar, h]
      · simp [isAddressChar, h]
      · simp [isAddressChar, h]
    have htriple : hasTriple text = false := by
      rcases htext with ⟨p, -⟩ | ⟨head, tail, -, -⟩
      · exact hasTriple_single p.single_text.1
      · obtain ⟨hsingle, -, hlast⟩ := head.single_text
        obtain ⟨hsingle', hhead, -⟩ := tail.single_text
        exact hasTriple_append hsingle hlast hsingle' hhead
    have hlook : ¬ (text = [] ∨ text.count ':' < 2 ∨ hasTriple text) := by
      rintro (rfl | h | h)
      · cases hcount
      · omega
      · rw [htriple] at h
        cases h
    rw [parseIpv6, if_neg hlook, if_neg (not_not.mpr (all_eq_true.mpr hall)),
      (ipv6Groups_eq_some hall).mpr htext]
    simp only [bind_eq_bind, bind_some,
      mapped_groupOctets htext.groups.1 htext.groups.2, hmapped]
    rfl

end BypassEntries

end Ket.Android
