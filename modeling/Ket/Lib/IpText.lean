import Ket.Lib.Text

/-!
# The texts of IP addresses

How the standard library of Rust reads an IPv4 or an IPv6 address.  It reads an IPv6 address group by
group, tries an IPv4 address at each group but the last, and jumps over the zeros at `::`.

`Ipv6Text` is what an IPv6 address looks like, without regard to how it is read.
`parseIpv6_eq_some` says that the library reads exactly these texts, as the groups they stand for.
-/

namespace Ket.Lib.IpText

open Ket.Lib.Text List

/-! ### What an IPv6 address looks like -/

/-- `char::to_digit(16)`. -/
def hexDigit (c : Char) : Option ℕ :=
  if c.isDigit then some (c.toNat - 48)
  else if 97 ≤ c.toNat ∧ c.toNat ≤ 102 then some (c.toNat - 87)
  else if 65 ≤ c.toNat ∧ c.toNat ≤ 70 then some (c.toNat - 55)
  else none

def isHex (c : Char) : Bool := (hexDigit c).isSome

/-- The number that hexadecimal digits stand for. -/
def ofHex (digits : List Char) : ℕ := digits.foldl (fun n c => 16 * n + (hexDigit c).getD 0) 0

/-- One to four hexadecimal digits. -/
structure HexGroup where
  digits : List Char
  nonempty : digits ≠ []
  short : digits.length ≤ 4
  hex : ∀ c ∈ digits, isHex c = true

def HexGroup.value (g : HexGroup) : ℕ := ofHex g.digits

/-- The two groups that an IPv4 address stands for. -/
def quadValues (ip : Ipv4Addr) : List ℕ :=
  [ip.a.toNat * 256 + ip.b.toNat, ip.c.toNat * 256 + ip.d.toNat]

/-- Groups, and an IPv4 address after them that stands for two more. -/
structure Part where
  groups : List HexGroup
  quad : Option Ipv4Addr

namespace Part

def pieces (p : Part) : List (List Char) :=
  p.groups.map HexGroup.digits ++ p.quad.toList.map Ipv4Addr.text

def text (p : Part) : List Char := [':'].intercalate p.pieces

def values (p : Part) : List ℕ := p.groups.map HexGroup.value ++ p.quad.toList.flatMap quadValues

end Part

/-- A text of an IPv6 address, and its groups.  With `dotted`, an IPv4 address may stand before
`::`, too. -/
inductive Ipv6Text (dotted : Bool) : List Char → List ℕ → Prop
  | full (p : Part) (h : p.values.length = 8) : Ipv6Text dotted p.text p.values
  | short (head tail : Part) (hdotted : dotted = false → head.quad = none)
      (h : head.values.length + tail.values.length ≤ 7) :
      Ipv6Text dotted (head.text ++ ':' :: ':' :: tail.text)
        (head.values ++ List.replicate (8 - head.values.length - tail.values.length) 0 ++ tail.values)

/-! ### How the library reads it -/

/-- `read_number(10, Some(3), false)` of an octet: the digits that begin the text. -/
def readOctet (s : List Char) : Option (UInt8 × List Char) :=
  (parseOctet (s.takeWhile Char.isDigit)).map (·, s.dropWhile Char.isDigit)

/-- `read_given_char`. -/
def readGivenChar (c : Char) : List Char → Option (List Char)
  | [] => none
  | c' :: s => if c' = c then some s else none

/-- `read_ipv4_addr`. -/
def readIpv4 (s : List Char) : Option (Ipv4Addr × List Char) := do
  let (a, s) ← readOctet s
  let (b, s) ← readOctet (← readGivenChar '.' s)
  let (c, s) ← readOctet (← readGivenChar '.' s)
  let (d, s) ← readOctet (← readGivenChar '.' s)
  return (⟨a, b, c, d⟩, s)

/-- `read_number(16, Some(4), true)`. -/
def readGroup (s : List Char) : Option (ℕ × List Char) :=
  let digits := s.takeWhile isHex
  if digits = [] ∨ 4 < digits.length then none else some (ofHex digits, s.dropWhile isHex)

/-- `read_separator`: a colon stands before all but the first. -/
def readSeparator {α : Type} (first : Bool) (read : List Char → Option (α × List Char))
    (s : List Char) : Option (α × List Char) :=
  if first then read s else (readGivenChar ':' s).bind read

/-- `read_groups`, for at most so many groups, with whether the last two are an IPv4 address. -/
def readGroups (first : Bool) : ℕ → List Char → List ℕ × Bool × List Char
  | 0, s => ([], false, s)
  | limit + 1, s =>
    match if 1 ≤ limit then readSeparator first readIpv4 s else none with
    | some (ip, s) => (quadValues ip, true, s)
    | none =>
      match readSeparator first readGroup s with
      | some (group, s) =>
        let r := readGroups false limit s
        (group :: r.1, r.2)
      | none => ([], false, s)

/-- `read_ipv6_addr`. -/
def readIpv6 (s : List Char) : Option (List ℕ × List Char) :=
  let (head, ipv4, s) := readGroups true 8 s
  if head.length = 8 then some (head, s)
  else if ipv4 then none
  else
    match s with
    | ':' :: ':' :: s =>
      let (tail, _, s) := readGroups true (8 - (head.length + 1)) s
      some (head ++ List.replicate (8 - head.length - tail.length) 0 ++ tail, s)
    | _ => none

/-- An address, as an IPv4 address or the groups of an IPv6 address. -/
inductive Parsed where
  | v4 (address : Ipv4Addr)
  | v6 (groups : List ℕ)
deriving DecidableEq

/-- `IpAddr::from_str`: what begins with an IPv4 address is not tried as an IPv6 address. -/
def parseIp (s : List Char) : Option Parsed :=
  match readIpv4 s with
  | some (ip, rest) => if rest = [] then some (.v4 ip) else none
  | none => (readIpv6 s).bind fun r => if r.2 = [] then some (.v6 r.1) else none

/-! ### How the library writes it -/

/-- A number in hexadecimal digits, `{:x}`. -/
def hexText (n : ℕ) : List Char := Nat.toDigits 16 n

/-- `fmt_subslice`. -/
def joinGroups (groups : List ℕ) : List Char := [':'].intercalate (groups.map hexText)

/-- A run of zero groups. -/
structure Span where
  start : ℕ
  len : ℕ
deriving DecidableEq

/-- The longest run of zeros, the first one of that length; with the run that ends here. -/
def zeroSpans (zeros : List Bool) : Span × Span :=
  zeros.zipIdx.foldl (fun (longest, current) (zero, i) =>
    if zero then
      let current : Span := ⟨if current.len = 0 then i else current.start, current.len + 1⟩
      (if longest.len < current.len then current else longest, current)
    else (longest, ⟨0, 0⟩)) (⟨0, 0⟩, ⟨0, 0⟩)

/-- `Ipv6Addr::to_ipv4_mapped`. -/
def isMapped (groups : List ℕ) : Bool := groups.take 6 == [0, 0, 0, 0, 0, 0xffff]

/-- `Ipv6Addr::fmt`, for an address that is no IPv4-mapped address. -/
def ipv6Text (groups : List ℕ) : List Char :=
  let zeroes := (zeroSpans (groups.map (· == 0))).1
  if 1 < zeroes.len then
    joinGroups (groups.take zeroes.start) ++ ':' :: ':' :: joinGroups (groups.drop (zeroes.start + zeroes.len))
  else joinGroups groups

/-! ### Digits -/

variable {c : Char} {l s rest piece : List Char} {n limit : ℕ} {o : UInt8} {ip : Ipv4Addr}
  {p : Part} {q : Char → Bool} {α : Type}

lemma isHex_of_isDigit (h : c.isDigit = true) : isHex c = true := by
  rw [isHex, hexDigit, if_pos h]
  rfl

lemma toNat_of_isHex (h : isHex c = true) : 48 ≤ c.toNat ∧ c.toNat ≤ 102 := by
  by_cases hdigit : c.isDigit = true
  · have hbounds := Char.isDigit_iff_toNat.mp hdigit
    rw [show '0'.toNat = 48 from rfl, show '9'.toNat = 57 from rfl] at hbounds
    omega
  · rw [isHex, hexDigit, if_neg hdigit] at h
    by_contra hout
    rw [if_neg (by omega), if_neg (by omega)] at h
    cases h

/-- The text goes on with none of the characters. -/
def Stops (p : Char → Bool) (s : List Char) : Prop := ∀ c ∈ s.head?, p c = false

lemma stops_colon {p : Char → Bool} (h : p ':' = false) (s : List Char) : Stops p (':' :: s) := by
  intro c hc
  cases hc
  exact h

lemma takeWhile_append_of_stops {p : Char → Bool} (hl : ∀ c ∈ l, p c = true) (hs : Stops p s) :
    (l ++ s).takeWhile p = l := by
  rw [takeWhile_append_of_pos hl]
  cases s with
  | nil => simp
  | cons c s =>
    have hc : p c = false := hs c rfl
    simp [hc]

lemma dropWhile_append_of_stops {p : Char → Bool} (hl : ∀ c ∈ l, p c = true) (hs : Stops p s) :
    (l ++ s).dropWhile p = s := by
  rw [dropWhile_append_of_pos hl]
  cases s with
  | nil => rfl
  | cons c s =>
    have hc : p c = false := hs c rfl
    simp [hc]

lemma hexDigit_lt (h : hexDigit c = some n) : n < 16 := by
  have hdigit : c.isDigit = true → c.toNat ≤ 57 := fun h => (Char.isDigit_iff_toNat.mp h).2
  simp only [hexDigit] at h
  split_ifs at h with h₁ h₂ h₃
  · have hle := hdigit h₁
    cases h
    omega
  · cases h
    omega
  · cases h
    omega

lemma ofHex_lt (digits : List Char) : ofHex digits < 16 ^ digits.length := by
  induction digits using List.reverseRecOn with
  | nil => exact Nat.one_pos
  | append_singleton digits c ih =>
    have hc : (hexDigit c).getD 0 < 16 := by
      cases h : hexDigit c with
      | none => decide
      | some n => exact hexDigit_lt h
    have hconcat : ofHex (digits ++ [c]) = 16 * ofHex digits + (hexDigit c).getD 0 := by
      simp [ofHex]
    rw [hconcat, length_append, length_singleton, pow_succ]
    omega

lemma HexGroup.value_lt (g : HexGroup) : g.value < 65536 :=
  lt_of_lt_of_le (ofHex_lt g.digits) (Nat.pow_le_pow_right (by decide) g.short)

/-! ### IPv4 addresses at the beginning of a text -/

lemma readOctet_octetText (hs : Stops Char.isDigit s) :
    readOctet (octetText o ++ s) = some (o, s) := by
  have hdigits : ∀ c ∈ octetText o, c.isDigit = true := fun c hc => isDigit_of_mem_decimal hc
  rw [readOctet, takeWhile_append_of_stops hdigits hs, dropWhile_append_of_stops hdigits hs,
    parseOctet_octetText]
  rfl

lemma eq_of_readOctet (h : readOctet s = some (o, rest)) : s = octetText o ++ rest := by
  obtain ⟨o', ho, heq⟩ := Option.map_eq_some_iff.mp h
  cases heq
  rw [octetText_of_parseOctet ho, takeWhile_append_dropWhile]

lemma eq_of_readGivenChar (h : readGivenChar c s = some rest) : s = c :: rest := by
  match s with
  | c' :: s =>
    rw [readGivenChar, Option.ite_none_right_eq_some] at h
    obtain ⟨rfl, heq⟩ := h
    rw [Option.some.inj heq]

@[simp] lemma readGivenChar_cons (c : Char) (s : List Char) : readGivenChar c (c :: s) = some s :=
  if_pos rfl

lemma text_eq_octets (ip : Ipv4Addr) :
    ip.text = octetText ip.a ++ '.' :: (octetText ip.b ++ '.' :: (octetText ip.c ++ '.' ::
      octetText ip.d)) := by
  simp [Ipv4Addr.text, List.intercalate, List.intersperse]

/-- An address is read where no digit follows it. -/
lemma readIpv4_text (ip : Ipv4Addr) (hs : Stops Char.isDigit s) :
    readIpv4 (ip.text ++ s) = some (ip, s) := by
  have hdot : ∀ s : List Char, Stops Char.isDigit ('.' :: s) := by
    intro s c hc
    cases hc
    rfl
  rw [text_eq_octets]
  simp only [readIpv4, append_assoc, cons_append, readOctet_octetText (hdot _),
    readOctet_octetText hs, readGivenChar_cons, Option.bind_eq_bind, Option.bind_some]
  rfl

lemma eq_of_readIpv4 (h : readIpv4 s = some (ip, rest)) : s = ip.text ++ rest := by
  simp only [readIpv4, Option.bind_eq_bind, Option.bind_eq_some_iff] at h
  obtain ⟨⟨a, s₁⟩, ha, t₁, ht₁, ⟨b, s₂⟩, hb, t₂, ht₂, ⟨c, s₃⟩, hc, t₃, ht₃, ⟨d, s₄⟩, hd, h⟩ := h
  cases h
  simp only at ht₁ ht₂ ht₃
  rw [eq_of_readOctet ha, eq_of_readGivenChar ht₁, eq_of_readOctet hb, eq_of_readGivenChar ht₂,
    eq_of_readOctet hc, eq_of_readGivenChar ht₃, eq_of_readOctet hd, text_eq_octets]
  simp

lemma readIpv4_of_stops (hs : Stops Char.isDigit s) : readIpv4 s = none := by
  have htake : s.takeWhile Char.isDigit = [] := takeWhile_append_of_stops (by simp : ∀ c ∈ ([] : List Char), _) hs
  have hnone : parseOctet [] = none := by decide
  rw [readIpv4, readOctet, htake, hnone]
  rfl

/-- A text that begins with a group which no point follows does not begin with an IPv4 address. -/
lemma readIpv4_group (g : HexGroup) (hs : Stops isHex s) (hdot : '.' ∉ s.head?) :
    readIpv4 (g.digits ++ s) = none := by
  by_contra hne
  obtain ⟨⟨ip, rest⟩, h⟩ := Option.ne_none_iff_exists'.mp hne
  have heq := eq_of_readIpv4 h
  rw [text_eq_octets, append_assoc] at heq
  -- the digits that begin the text are both the group and the first octet
  have hoctet : ∀ c ∈ octetText ip.a, isHex c = true := fun c hc =>
    isHex_of_isDigit (isDigit_of_mem_decimal hc)
  have hpoint : ∀ s : List Char, Stops isHex ('.' :: s) := by
    intro s c hc
    cases hc
    rfl
  have hdrop := congrArg (List.dropWhile isHex) heq
  rw [dropWhile_append_of_stops g.hex hs, cons_append,
    dropWhile_append_of_stops hoctet (hpoint _)] at hdrop
  exact hdot (by rw [hdrop]; rfl)

/-! ### Parts -/

namespace Part

/-- What a part looks like after another group. -/
def after (p : Part) : List Char := p.pieces.flatMap (':' :: ·)

/-- The part with a group before it. -/
def cons (g : HexGroup) (p : Part) : Part := ⟨g :: p.groups, p.quad⟩

@[simp] lemma pieces_cons (g : HexGroup) (p : Part) : (cons g p).pieces = g.digits :: p.pieces := rfl

@[simp] lemma values_cons (g : HexGroup) (p : Part) : (cons g p).values = g.value :: p.values := rfl

lemma text_of_pieces {p : Part} {piece : List Char} {rest : List (List Char)}
    (h : p.pieces = piece :: rest) : p.text = piece ++ rest.flatMap (':' :: ·) := by
  have hjoin : ∀ (x : List Char) (l : List (List Char)),
      [':'].intercalate (x :: l) = x ++ l.flatMap (':' :: ·) := by
    intro x l
    induction l generalizing x with
    | nil => simp [List.intercalate]
    | cons y l ih =>
      have hcons : [':'].intercalate (x :: y :: l) = x ++ ':' :: [':'].intercalate (y :: l) := by
        simp [List.intercalate, List.intersperse]
      rw [hcons, ih, flatMap_cons]
      rfl
  rw [text, h, hjoin]

lemma text_cons (g : HexGroup) (p : Part) : (cons g p).text = g.digits ++ p.after :=
  text_of_pieces rfl

lemma after_cons (g : HexGroup) (p : Part) : (cons g p).after = ':' :: (g.digits ++ p.after) := rfl

/-- The text of a part, or what it looks like after another group. -/
def textFrom (first : Bool) (p : Part) : List Char := if first then p.text else p.after

lemma textFrom_quad (first : Bool) (ip : Ipv4Addr) :
    textFrom first ⟨[], some ip⟩ = if first then ip.text else ':' :: ip.text := by
  cases first <;> simp [textFrom, after, text, pieces, List.intercalate]

@[simp] lemma textFrom_true (p : Part) : textFrom true p = p.text := rfl

@[simp] lemma textFrom_false (p : Part) : textFrom false p = p.after := rfl

@[simp] lemma textFrom_nil (first : Bool) : textFrom first ⟨[], none⟩ = [] := by
  cases first <;> rfl

end Part

/-- What a piece of an address is made of. -/
lemma Part.mem_pieces (h : piece ∈ p.pieces) :
    piece ≠ [] ∧ ∀ c ∈ piece, isHex c = true ∨ c = '.' := by
  simp only [Part.pieces, mem_append, mem_map, Option.mem_toList] at h
  rcases h with ⟨g, -, rfl⟩ | ⟨ip, -, rfl⟩
  · exact ⟨g.nonempty, fun c hc => .inl (g.hex c hc)⟩
  · refine ⟨?_, fun c hc => (Ipv4Addr.mem_text hc).imp_left isHex_of_isDigit⟩
    rw [text_eq_octets]
    simp

lemma Part.colon_not_mem (h : piece ∈ p.pieces) : ':' ∉ piece := by
  intro hcolon
  rcases (Part.mem_pieces h).2 _ hcolon with hhex | hdot
  · cases hhex
  · cases hdot

/-- No two colons stand side by side. -/
def Single (s : List Char) : Prop := s.IsChain fun x y => ¬ (x = ':' ∧ y = ':')

namespace Single

variable {c : Char} {s : List Char}

lemma tail (h : Single (c :: s)) : Single s := List.IsChain.tail h

/-- A colon that begins a text is not the first of two. -/
lemma not_head (h : Single (c :: s)) : ¬ (c = ':' ∧ ':' ∈ s.head?) := by
  rintro ⟨rfl, hs⟩
  cases s with
  | nil => cases hs
  | cons d s =>
    cases hs
    exact (isChain_cons_cons.mp h).1 ⟨rfl, rfl⟩

/-- Nor is it in front of another text, if it does not end its own. -/
lemma not_head_append (h : Single (c :: s)) (hlast : ':' ∉ (c :: s).getLast?) (t : List Char) :
    ¬ (c = ':' ∧ ':' ∈ (s ++ t).head?) ∧ ':' ∉ s.getLast? := by
  cases s with
  | nil =>
    refine ⟨?_, nofun⟩
    rintro ⟨rfl, -⟩
    exact hlast rfl
  | cons d s =>
    rw [getLast?_cons_cons] at hlast
    exact ⟨h.not_head, hlast⟩

end Single

lemma single_of_not_mem (h : ':' ∉ s) : Single s := by
  induction s with
  | nil => exact List.IsChain.nil
  | cons x s ih =>
    rw [mem_cons, not_or] at h
    cases s with
    | nil => exact List.IsChain.singleton x
    | cons y s => exact isChain_cons_cons.mpr ⟨fun hxy => h.1 hxy.1.symm, ih h.2⟩

/-- Pieces with colons between them. -/
lemma single_join {rest : List (List Char)} (hne : piece ≠ []) (hpiece : ':' ∉ piece)
    (hrest : ∀ piece ∈ rest, piece ≠ [] ∧ ':' ∉ piece) : Single (piece ++ rest.flatMap (':' :: ·)) ∧
      ':' ∉ (piece ++ rest.flatMap (':' :: ·)).getLast? := by
  induction rest generalizing piece with
  | nil =>
    rw [flatMap_nil, append_nil]
    exact ⟨single_of_not_mem hpiece, fun h => hpiece (mem_of_getLast? h)⟩
  | cons next rest ih =>
    obtain ⟨hnext, hcolon⟩ := hrest next mem_cons_self
    obtain ⟨hsingle, hlast⟩ := ih hnext hcolon fun p hp => hrest p (mem_cons_of_mem _ hp)
    have hflat : (next :: rest).flatMap (':' :: ·) = ':' :: (next ++ rest.flatMap (':' :: ·)) := rfl
    rw [hflat]
    generalize htext : next ++ rest.flatMap (':' :: ·) = text at hsingle hlast
    have hhead : ':' ∉ text.head? := by
      rw [← htext, head?_append_of_ne_nil _ hnext]
      exact fun h => hcolon (mem_of_head? h)
    cases text with
    | nil => exact absurd htext (append_ne_nil_of_left_ne_nil hnext _)
    | cons x text =>
      have hx : x ≠ ':' := fun h => hhead (by rw [h]; rfl)
      refine ⟨isChain_append.mpr ⟨single_of_not_mem hpiece, ?_, ?_⟩, ?_⟩
      · exact isChain_cons_cons.mpr ⟨fun h => hx h.2, hsingle⟩
      · exact fun y hy _ _ h => hpiece (h.1 ▸ mem_of_getLast? hy)
      · rw [getLast?_append, getLast?_cons_cons]
        rw [getLast?_cons] at hlast ⊢
        simpa using hlast

/-- The text of a part neither begins nor ends with a colon. -/
lemma Part.single_text (p : Part) : Single p.text ∧ ':' ∉ p.text.head? ∧ ':' ∉ p.text.getLast? := by
  cases hp : p.pieces with
  | nil =>
    rw [Part.text, hp]
    exact ⟨List.IsChain.nil, nofun, nofun⟩
  | cons piece rest =>
    have hall : ∀ x ∈ p.pieces, x ≠ [] ∧ ':' ∉ x := fun x hx =>
      ⟨(Part.mem_pieces hx).1, Part.colon_not_mem hx⟩
    rw [hp] at hall
    obtain ⟨hne, hpiece⟩ := hall piece mem_cons_self
    obtain ⟨hsingle, hlast⟩ := single_join hne hpiece fun x hx => hall x (mem_cons_of_mem _ hx)
    rw [Part.text_of_pieces hp]
    refine ⟨hsingle, ?_, hlast⟩
    rw [head?_append_of_ne_nil _ hne]
    exact fun h => hpiece (mem_of_head? h)

lemma Part.values_lt (p : Part) : ∀ n ∈ p.values, n < 65536 := by
  obtain ⟨groups, quad⟩ := p
  intro n hn
  simp only [Part.values, mem_append, mem_map, mem_flatMap, Option.mem_toList] at hn
  rcases hn with ⟨g, -, rfl⟩ | ⟨ip, -, hn⟩
  · exact g.value_lt
  · have ha := ip.a.toNat_lt
    have hb := ip.b.toNat_lt
    have hc := ip.c.toNat_lt
    have hd := ip.d.toNat_lt
    simp only [quadValues, mem_cons, not_mem_nil, or_false] at hn
    omega

variable {values : List ℕ}

/-- An address has eight groups of 16 bits. -/
lemma Ipv6Text.groups {dotted : Bool} (h : Ipv6Text dotted s values) :
    values.length = 8 ∧ ∀ n ∈ values, n < 65536 := by
  rcases h with ⟨p, hlength⟩ | ⟨head, tail, -, hlength⟩
  · exact ⟨hlength, p.values_lt⟩
  · constructor
    · simp only [length_append, length_replicate]
      omega
    · intro n hn
      simp only [mem_append, mem_replicate] at hn
      rcases hn with (hn | ⟨-, rfl⟩) | hn
      · exact head.values_lt n hn
      · decide
      · exact tail.values_lt n hn

lemma Part.mem_text (h : c ∈ p.text) : isHex c = true ∨ c = ':' ∨ c = '.' := by
  rcases mem_intercalate h with h | ⟨piece, hpiece, hc⟩
  · exact .inr (.inl (mem_singleton.mp h))
  · exact ((Part.mem_pieces hpiece).2 c hc).imp_right .inr

/-- The colons of an address are at least two, and its other characters are digits and points. -/
lemma Ipv6Text.chars {dotted : Bool} (h : Ipv6Text dotted s values) :
    2 ≤ s.count ':' ∧ ∀ c ∈ s, isHex c = true ∨ c = ':' ∨ c = '.' := by
  rcases h with ⟨p, hlength⟩ | ⟨head, tail, -, hlength⟩
  · refine ⟨?_, fun c hc => Part.mem_text hc⟩
    have hcount : ∀ l : List (List Char), l.length ≤ (l.flatMap (':' :: ·)).count ':' := by
      intro l
      induction l with
      | nil => exact Nat.le_refl _
      | cons x l ih =>
        rw [flatMap_cons, cons_append, count_cons_self, count_append,
          length_cons]
        omega
    have hpieces : 7 ≤ p.pieces.length := by
      obtain ⟨groups, quad⟩ := p
      cases quad <;> simp [Part.values, Part.pieces, quadValues] at hlength ⊢ <;> omega
    cases hp : p.pieces with
    | nil =>
      rw [hp] at hpieces
      cases hpieces
    | cons piece rest =>
      have hrest := hcount rest
      rw [Part.text_of_pieces hp, count_append]
      rw [hp, length_cons] at hpieces
      omega
  · constructor
    · rw [count_append, count_cons_self, count_cons_self]
      omega
    · intro c hc
      simp only [mem_append, mem_cons] at hc
      rcases hc with hc | hc | hc | hc
      · exact Part.mem_text hc
      · exact .inr (.inl hc)
      · exact .inr (.inl hc)
      · exact Part.mem_text hc

/-- Fewer addresses are read without `dotted`. -/
lemma Ipv6Text.dotted (h : Ipv6Text false s values) : Ipv6Text true s values := by
  rcases h with ⟨p, hlength⟩ | ⟨head, tail, -, hlength⟩
  · exact .full p hlength
  · exact .short head tail nofun hlength

/-! ### Groups -/

/-- Where a part of an address ends. -/
def Ends (s : List Char) : Prop := s = [] ∨ ∃ rest, s = ':' :: ':' :: rest

/-- A part that follows another group, or the end of an address, begins with a colon. -/
lemma colon_of_after (hs : Ends s) : ∀ c ∈ (p.after ++ s).head?, c = ':' := by
  intro c hc
  cases hpieces : p.pieces with
  | nil =>
    rw [Part.after, hpieces, flatMap_nil, nil_append] at hc
    rcases hs with rfl | ⟨rest, rfl⟩
    · cases hc
    · cases hc
      rfl
  | cons piece rest =>
    rw [Part.after, hpieces, flatMap_cons] at hc
    cases hc
    rfl

lemma stops_after (hs : Ends s) (hq : q ':' = false) : Stops q (p.after ++ s) := by
  intro c hc
  rw [colon_of_after hs c hc, hq]

lemma stops_of_ends (hs : Ends s) (hq : q ':' = false) : Stops q s :=
  stops_after (p := ⟨[], none⟩) hs hq

lemma readGroup_digits (g : HexGroup) (hs : Stops isHex s) :
    readGroup (g.digits ++ s) = some (g.value, s) := by
  have hlength : ¬ (g.digits = [] ∨ 4 < g.digits.length) := by
    rintro (h | h)
    · exact g.nonempty h
    · exact absurd g.short (by omega)
  rw [readGroup, takeWhile_append_of_stops g.hex hs, dropWhile_append_of_stops g.hex hs,
    if_neg hlength]
  rfl

lemma exists_of_readGroup (h : readGroup s = some (n, rest)) :
    ∃ g : HexGroup, s = g.digits ++ rest ∧ g.value = n := by
  simp only [readGroup, Option.ite_none_left_eq_some, not_or, not_lt] at h
  obtain ⟨⟨hne, hshort⟩, heq⟩ := h
  cases heq
  refine ⟨⟨_, hne, hshort, ?_⟩, takeWhile_append_dropWhile.symm, rfl⟩
  exact all_eq_true.mp all_takeWhile

/-- Nothing is read at the end of a part. -/
lemma readSeparator_ends (first : Bool) {read : List Char → Option (α × List Char)} (hs : Ends s)
    (hnil : read [] = none) (hcolon : ∀ s, read (':' :: s) = none) :
    readSeparator first read s = none := by
  rcases hs with rfl | ⟨rest, rfl⟩
  · cases first
    · rfl
    · exact hnil
  · cases first
    · exact hcolon rest
    · exact hcolon _

/-- A group, with its colon if one stands before it. -/
lemma readSeparator_cons (first : Bool) (read : List Char → Option (α × List Char)) (g : HexGroup)
    (p : Part) (s : List Char) : readSeparator first read ((Part.cons g p).textFrom first ++ s)
      = read (g.digits ++ (p.after ++ s)) := by
  cases first with
  | true => rw [Part.textFrom_true, Part.text_cons, append_assoc, readSeparator, if_pos rfl]
  | false =>
    rw [Part.textFrom_false, Part.after_cons, cons_append, append_assoc, readSeparator,
      if_neg Bool.false_ne_true, readGivenChar_cons, Option.bind_some]

/-- The groups of a part are read where an address goes on with `::` or ends. -/
lemma readGroups_textFrom (first : Bool) (p : Part) (hs : Ends s) (hlimit : p.values.length ≤ limit)
    : readGroups first limit (p.textFrom first ++ s) = (p.values, p.quad.isSome, s) := by
  obtain ⟨groups, quad⟩ := p
  induction groups generalizing first limit with
  | nil =>
    cases quad with
    | none =>
      rw [Part.textFrom_nil, nil_append]
      cases limit with
      | zero => rfl
      | succ limit =>
        have hip : readSeparator first readIpv4 s = none :=
          readSeparator_ends first hs (readIpv4_of_stops nofun)
            fun s => readIpv4_of_stops (stops_colon rfl s)
        have hgroup : readSeparator first readGroup s = none :=
          readSeparator_ends first hs rfl fun _ => rfl
        simp only [readGroups, hip, hgroup, ite_self]
        rfl
    | some ip =>
      obtain ⟨limit, rfl⟩ : ∃ n, limit = n + 2 := Nat.exists_eq_add_of_le' hlimit
      have hip : readSeparator first readIpv4 (Part.textFrom first ⟨[], some ip⟩ ++ s)
          = some (ip, s) := by
        rw [Part.textFrom_quad]
        cases first
        · exact readIpv4_text ip (stops_of_ends hs rfl)
        · exact readIpv4_text ip (stops_of_ends hs rfl)
      have hmore : 1 ≤ limit + 1 := Nat.le_add_left 1 limit
      simp only [readGroups, if_pos hmore, hip]
      rfl
  | cons g groups ih =>
    obtain ⟨limit, rfl⟩ : ∃ n, limit = n + 1 := Nat.exists_eq_add_of_le' (by
      exact Nat.le_trans (Nat.le_add_left 1 _) hlimit)
    set p : Part := ⟨groups, quad⟩
    have hhex : Stops isHex (p.after ++ s) := stops_after hs rfl
    have hip : readSeparator first readIpv4 ((Part.cons g p).textFrom first ++ s) = none := by
      have hdot : '.' ∉ (p.after ++ s).head? := by
        intro hmem
        cases colon_of_after hs _ hmem
      rw [readSeparator_cons]
      exact readIpv4_group g hhex hdot
    have hgroup : readSeparator first readGroup ((Part.cons g p).textFrom first ++ s)
        = some (g.value, p.textFrom false ++ s) := by
      rw [readSeparator_cons]
      exact readGroup_digits g hhex
    have hrest : readGroups false limit (p.textFrom false ++ s) = _ :=
      ih false (Nat.le_of_succ_le_succ hlimit)
    show readGroups first (limit + 1) ((Part.cons g p).textFrom first ++ s) = _
    simp only [readGroups, hip, ite_self, hgroup, hrest]
    rfl

/-- What is read are the groups of a part. -/
lemma exists_of_readGroups (first : Bool) {ipv4 : Bool}
    (h : readGroups first limit s = (values, ipv4, rest)) :
    ∃ p : Part, s = p.textFrom first ++ rest ∧ p.values = values ∧ p.quad.isSome = ipv4 ∧
      values.length ≤ limit := by
  induction limit generalizing first s values with
  | zero =>
    cases h
    exact ⟨⟨[], none⟩, by simp, rfl, rfl, Nat.le_refl _⟩
  | succ limit ih =>
    simp only [readGroups] at h
    split at h
    · rename_i ip s' hip
      cases h
      rw [Option.ite_none_right_eq_some] at hip
      obtain ⟨hlimit, hip⟩ := hip
      refine ⟨⟨[], some ip⟩, ?_, rfl, rfl, Nat.succ_le_succ hlimit⟩
      rw [Part.textFrom_quad]
      cases first with
      | true => exact eq_of_readIpv4 hip
      | false =>
        obtain ⟨t, ht, hip⟩ := Option.bind_eq_some_iff.mp hip
        rw [eq_of_readGivenChar ht, eq_of_readIpv4 hip]
        rfl
    · split at h
      · rename_i group s' hgroup
        obtain ⟨⟨values', ipv4', rest'⟩, hread⟩ : ∃ r, readGroups false limit s' = r := ⟨_, rfl⟩
        rw [hread] at h
        cases h
        obtain ⟨p, hs', hvalues, hquad, hlength⟩ := ih false hread
        have hcons : ∃ g : HexGroup, s = (Part.cons g p).textFrom first ++ rest ∧
            g.value = group := by
          cases first with
          | true =>
            obtain ⟨g, hg, hvalue⟩ := exists_of_readGroup hgroup
            refine ⟨g, ?_, hvalue⟩
            rw [hg, hs', Part.textFrom_true, Part.textFrom_false, Part.text_cons,
              append_assoc]
          | false =>
            obtain ⟨t, ht, hgroup⟩ := Option.bind_eq_some_iff.mp hgroup
            obtain ⟨g, hg, hvalue⟩ := exists_of_readGroup hgroup
            refine ⟨g, ?_, hvalue⟩
            rw [eq_of_readGivenChar ht, hg, hs', Part.textFrom_false, Part.textFrom_false,
              Part.after_cons, cons_append, append_assoc]
        obtain ⟨g, hg, hvalue⟩ := hcons
        refine ⟨Part.cons g p, hg, ?_, hquad, Nat.succ_le_succ hlength⟩
        rw [Part.values_cons, hvalue, hvalues]
      · cases h
        exact ⟨⟨[], none⟩, by simp, rfl, rfl, Nat.zero_le _⟩

/-! ### Addresses -/

/-- **Reading an IPv6 address.**  The library reads a whole text as an IPv6 address if and only if it
is the text of one, without an IPv4 address before `::`. -/
theorem readIpv6_eq_some :
    readIpv6 s = some (values, []) ↔ Ipv6Text false s values := by
  constructor
  · intro h
    obtain ⟨⟨head, ipv4, s₁⟩, hread⟩ : ∃ r, readGroups true 8 s = r := ⟨_, rfl⟩
    obtain ⟨p, rfl, rfl, hquad, hlength⟩ := exists_of_readGroups true hread
    simp only [readIpv6, hread] at h
    split at h
    · rename_i height
      cases h
      rw [append_nil]
      exact .full p height
    · split at h
      · cases h
      · rename_i hne hipv4
        split at h
        · rename_i s₂
          obtain ⟨⟨tail, _, s₃⟩, hread'⟩ :
            ∃ r, readGroups true (8 - (p.values.length + 1)) s₂ = r := ⟨_, rfl⟩
          obtain ⟨q, rfl, rfl, -, hlength'⟩ := exists_of_readGroups true hread'
          simp only [hread'] at h
          cases h
          have hnone : p.quad = none := by
            rw [← Option.not_isSome_iff_eq_none, hquad]
            exact hipv4
          rw [append_nil]
          exact .short p q (fun _ => hnone) (by omega)
        · cases h
  · rintro (⟨p, hlength⟩ | ⟨head, tail, hdotted, hlength⟩)
    · have hread : readGroups true 8 (p.text ++ []) = _ :=
        readGroups_textFrom true p (.inl rfl) (Nat.le_of_eq hlength)
      rw [append_nil] at hread
      simp only [readIpv6, hread, if_pos hlength]
    · have hread : readGroups true 8 (head.text ++ ':' :: ':' :: tail.text) = _ :=
        readGroups_textFrom true head (.inr ⟨_, rfl⟩) (by omega)
      have hread' : readGroups true (8 - (head.values.length + 1)) (tail.text ++ []) = _ :=
        readGroups_textFrom true tail (.inl rfl) (by omega)
      rw [append_nil] at hread'
      have hne : head.values.length ≠ 8 := by omega
      have hquad : head.quad.isSome = false := by simp [hdotted rfl]
      simp only [readIpv6, hread, if_neg hne, hquad, Bool.false_eq_true, if_false, hread']

/-- An IPv6 address does not begin with an IPv4 address. -/
lemma readIpv4_of_ipv6Text (h : Ipv6Text false s values) : readIpv4 s = none := by
  have hgroup : ∀ (g : HexGroup) (p : Part) (t : List Char), Ends t →
      readIpv4 ((Part.cons g p).text ++ t) = none := by
    intro g p t ht
    rw [Part.text_cons, append_assoc]
    refine readIpv4_group g (stops_after ht rfl) fun hmem => ?_
    cases colon_of_after ht _ hmem
  rcases h with ⟨⟨groups, quad⟩, hlength⟩ | ⟨⟨groups, quad⟩, tail, hdotted, hlength⟩
  · cases groups with
    | nil => cases quad <;> cases hlength
    | cons g groups =>
      have hnone := hgroup g ⟨groups, quad⟩ [] (.inl rfl)
      rwa [append_nil] at hnone
  · cases groups with
    | nil =>
      cases hdotted rfl
      exact readIpv4_of_stops (stops_colon rfl _)
    | cons g groups => exact hgroup g ⟨groups, quad⟩ _ (.inr ⟨_, rfl⟩)

lemma parseIp_eq_v4 : parseIp s = some (.v4 ip) ↔ s = ip.text := by
  constructor
  · intro h
    simp only [parseIp] at h
    split at h
    · rename_i ip' rest hread
      rw [Option.ite_none_right_eq_some] at h
      obtain ⟨rfl, heq⟩ := h
      cases heq
      simpa using eq_of_readIpv4 hread
    · obtain ⟨r, -, h⟩ := Option.bind_eq_some_iff.mp h
      split at h <;> cases h
  · rintro rfl
    have hread : readIpv4 (ip.text ++ []) = _ := readIpv4_text ip nofun
    rw [append_nil] at hread
    simp [parseIp, hread]

/-- **The library reads the texts of addresses.** -/
theorem parseIp_eq_v6 :
    parseIp s = some (.v6 values) ↔ Ipv6Text false s values := by
  constructor
  · intro h
    simp only [parseIp] at h
    split at h
    · split at h <;> cases h
    · obtain ⟨⟨values', rest⟩, hread, h⟩ := Option.bind_eq_some_iff.mp h
      rw [Option.ite_none_right_eq_some] at h
      obtain ⟨rfl, heq⟩ := h
      cases heq
      exact readIpv6_eq_some.mp hread
  · intro h
    rw [parseIp, readIpv4_of_ipv6Text h, readIpv6_eq_some.mpr h]
    rfl

end Ket.Lib.IpText
