import Ket.Android.BypassEntries

/-!
# One set of bypass rules

The Rust rules for the bypass list and their Kotlin port, compared on every text.

Both read a text of a network, mask its host bits, and answer with the same error or the same text.
They differ in what they read: the port lets an IPv4 address stand before `::`, and the two do not trim
the same characters.  `answers_agree_iff` says for which texts this shows.
-/

namespace Ket.Android

open Ket.Lib Ket.Lib.IpText Ket.Tunnel List Option
open Ket.Lib.Text (Ipv4Addr)

namespace BypassEntries

/-! ### What the port reads -/

lemma octets_ipv4 (ip : Ipv4Addr) : (IpAddr.ofParsed (.v4 ip)).octets = ipv4Octets ip :=
  IpAddr.octets_ofOctets rfl

/-- The port reads the texts of addresses, also with an IPv4 address before `::`. -/
lemma address_eq_some {s : List Char} {bytes : List UInt8} :
    (parseIpv4 s).or (parseIpv6 s) = some bytes ↔ ∃ a, AddressText true s a ∧ bytes = a.octets := by
  constructor
  · intro h
    rcases or_eq_some_iff.mp h with h | ⟨-, h⟩
    · obtain ⟨ip, rfl, rfl⟩ := parseIpv4_eq_some.mp h
      exact ⟨_, .v4 ip, (octets_ipv4 ip).symm⟩
    · obtain ⟨values, htext, hmapped, rfl⟩ := parseIpv6_eq_some.mp h
      exact ⟨_, .v6 htext hmapped, (IpAddr.octets_ofParsed htext.groups.1).symm⟩
  · rintro ⟨a, htext, rfl⟩
    cases htext with
    | v4 ip =>
      rw [octets_ipv4]
      exact or_eq_some_iff.mpr (.inl (parseIpv4_eq_some.mpr ⟨ip, rfl, rfl⟩))
    | v6 htext hmapped =>
      rw [IpAddr.octets_ofParsed htext.groups.1]
      refine or_eq_some_iff.mpr (.inr ⟨?_, parseIpv6_eq_some.mpr ⟨_, htext, hmapped, rfl⟩⟩)
      -- an IPv4 address has no colon
      by_contra hne
      obtain ⟨bytes, hbytes⟩ := ne_none_iff_exists'.mp hne
      obtain ⟨ip, rfl, -⟩ := parseIpv4_eq_some.mp hbytes
      have hcolon : ':' ∈ ip.text := count_pos_iff.mp
        (Nat.lt_of_lt_of_le Nat.two_pos htext.chars.1)
      rcases Ipv4Addr.mem_text hcolon with h | h <;> cases h

lemma length_eq_some {full length : ℕ} {s : List Char} (hfull : full < 2 ^ 31) :
    parseLength full s = some length ↔ LengthText full s length := by
  match s with
  | [] =>
    constructor
    · intro h
      cases h
      exact .host
    · intro h
      cases h
      rfl
  | c :: digits =>
    constructor
    · intro h
      rw [parseLength, ite_none_left_eq_some] at h
      obtain ⟨hdigits, h⟩ := h
      obtain ⟨h, hle⟩ := filter_eq_some_iff.mp h
      rw [toIntOrNull, ite_none_right_eq_some] at h
      cases h.2
      rw [not_or, not_not] at hdigits
      exact .digits hdigits.1 hdigits.2 (of_decide_eq_true hle)
    · intro h
      cases h with
      | digits hne hdigits hle =>
        have hnot : ¬ (digits = [] ∨ ¬ digits.all Char.isDigit = true) := by
          rw [not_or, not_not]
          exact ⟨hne, hdigits⟩
        rw [parseLength, if_neg hnot, toIntOrNull, if_pos (Nat.lt_of_le_of_lt hle hfull)]
        exact filter_eq_some_iff.mpr ⟨rfl, decide_eq_true hle⟩

/-! ### Host bits -/

lemma length_clearBits (masked : List UInt8) (bits : List ℕ) :
    (bits.foldl BypassPrefix.clearBit masked).length = masked.length := by
  induction bits generalizing masked with
  | nil => rfl
  | cons bit bits ih =>
    rw [foldl_cons, ih, BypassPrefix.clearBit, length_modify]

lemma testBit_clear (b : UInt8) {i j : ℕ} (hi : i < 8) (hj : j < 8) :
    (b &&& ~~~ ((0x80 : UInt8) >>> UInt8.ofNat j)).toNat.testBit (7 - i)
      = (b.toNat.testBit (7 - i) && decide (i ≠ j)) := by
  have hall : ∀ i j : Fin 8, (~~~ ((0x80 : UInt8) >>> UInt8.ofNat j.val)).toNat.testBit (7 - i.val)
      = decide (i.val ≠ j.val) := by decide
  rw [UInt8.toNat_and, Nat.testBit_and, hall ⟨i, hi⟩ ⟨j, hj⟩]

lemma bitAt_clearBit {masked : List UInt8} {bit : ℕ} (hbit : bit < 8 * masked.length) (k : ℕ) :
    bitAt (BypassPrefix.clearBit masked bit) k = (bitAt masked k && decide (k ≠ bit)) := by
  rw [bitAt, bitAt, BypassPrefix.clearBit, getD_eq_getElem?_getD, getElem?_modify]
  by_cases hbyte : bit / 8 = k / 8
  · have hlt : k / 8 < masked.length := by omega
    simp only [if_pos hbyte]
    rw [getElem?_eq_getElem hlt, getD_eq_getElem _ _ hlt]
    show (masked[k / 8] &&& _).toNat.testBit _ = _
    rw [testBit_clear _ (Nat.mod_lt k (by decide)) (Nat.mod_lt bit (by decide))]
    congr 2
    refine propext ⟨fun h heq => h (by rw [heq]), fun h heq => h ?_⟩
    omega
  · have hne : k ≠ bit := fun h => hbyte (by rw [h])
    simp only [if_neg hbyte]
    rw [decide_eq_true hne, Bool.and_true, getD_eq_getElem?_getD, id_map']

lemma bitAt_clearBits {masked : List UInt8} {start n : ℕ} (hn : start + n ≤ 8 * masked.length)
    (k : ℕ) : bitAt ((List.range' start n).foldl BypassPrefix.clearBit masked) k
      = (bitAt masked k && !(decide (start ≤ k) && decide (k < start + n))) := by
  induction n with
  | zero =>
    have hnot : ¬ (start ≤ k ∧ k < start + 0) := by omega
    rw [← Bool.decide_and, decide_eq_false hnot]
    simp
  | succ n ih =>
    have hlt : start + n < 8 * ((List.range' start n).foldl BypassPrefix.clearBit masked).length := by
      rw [length_clearBits]
      omega
    rw [range'_1_concat, foldl_append, foldl_cons, foldl_nil,
      bitAt_clearBit hlt, ih (by omega), Bool.and_assoc]
    congr 1
    by_cases h₁ : start ≤ k <;> by_cases h₂ : k < start + n <;> by_cases h₃ : k = start + n <;>
      simp [h₁, h₂, h₃] <;> omega

/-- The port clears the host bits that the source masks. -/
lemma address_of {a : IpAddr} {length : ℕ} (h : length ≤ a.family.fullLength) :
    (BypassPrefix.of a.octets length).address = (a.mask length).octets := by
  have hsize : a.octets.length = a.family.size := a.length_octets
  have hfull : a.family.fullLength = 8 * a.family.size := rfl
  refine ext_bitAt ?_ fun k hk => ?_
  · rw [BypassPrefix.of, length_clearBits, hsize, IpAddr.length_octets]
    rfl
  · rw [BypassPrefix.of, length_clearBits, hsize] at hk
    rw [BypassPrefix.of, bitAt_clearBits (by omega), IpAddr.octets, IpAddr.octets,
      bitAt_toBigEndian hk, bitAt_toBigEndian (by exact hk), IpAddr.toNat_mask,
      Nat.testBit_mul_two_pow, Nat.testBit_div_two_pow]
    show (a.bits.toNat.testBit _ && _) = (_ && a.bits.toNat.testBit _)
    by_cases hlt : k < length
    · have hle : a.family.fullLength - length ≤ 8 * a.family.size - 1 - k := by omega
      have hnot : ¬ length ≤ k := by omega
      have hadd : 8 * a.family.size - 1 - k - (a.family.fullLength - length)
          + (a.family.fullLength - length) = 8 * a.family.size - 1 - k := by omega
      simp [hle, hnot, hadd]
    · have hle : ¬ a.family.fullLength - length ≤ 8 * a.family.size - 1 - k := by omega
      have hlow : length ≤ k := by omega
      have hhigh : k < length + (a.family.size * 8 - length) := by omega
      simp [hle, hlow, hhigh]

/-! ### Special addresses -/

/-- The octets of a number are all the same if and only if it is the number of such octets. -/
lemma all_toBigEndian {width n : ℕ} (hn : n < 256 ^ width) (b : UInt8) :
    (toBigEndian width n).all (· == b) = (n == ofBigEndian (List.replicate width b)) := by
  have hreplicate : (toBigEndian width n).all (· == b) = true ↔
      toBigEndian width n = List.replicate width b := by
    rw [eq_replicate_iff, length_toBigEndian]
    simp
  rw [Bool.eq_iff_iff, hreplicate, beq_iff_eq]
  constructor
  · intro h
    rw [← h, ofBigEndian_toBigEndian hn]
  · rintro rfl
    have hback := toBigEndian_ofBigEndian (List.replicate width b)
    rwa [length_replicate] at hback

/-- The port refuses the same special addresses. -/
lemma isSpecial_octets (a : IpAddr) : isSpecial a.octets = a.isSpecial := by
  obtain ⟨family, bits⟩ := a
  cases family with
  | v4 =>
    have hlt : bits.toNat < 256 ^ 4 := IpAddr.toNat_lt ⟨.v4, bits⟩
    have hzero : (toBigEndian 4 bits.toNat).all (· == 0) = (bits.toNat == 0) :=
      all_toBigEndian hlt _
    have hones : (toBigEndian 4 bits.toNat).all (· == 255) = (bits.toNat == 0xffffffff) :=
      all_toBigEndian hlt _
    have hoctets : IpAddr.octets ⟨.v4, bits⟩ = toBigEndian 4 bits.toNat := rfl
    rw [isSpecial, hoctets, if_pos (length_toBigEndian _ _), hzero, hones]
    rfl
  | v6 =>
    have hlt : bits.toNat < 256 ^ 16 := IpAddr.toNat_lt ⟨.v6, bits⟩
    have hzero : (toBigEndian 16 bits.toNat).all (· == 0) = (bits.toNat == 0) :=
      all_toBigEndian hlt _
    have hone : (((toBigEndian 16 bits.toNat).take 15).all (· == 0)
        && (toBigEndian 16 bits.toNat).getD 15 0 == 1) = (bits.toNat == 1) := by
      have hsplit : toBigEndian 16 bits.toNat
          = toBigEndian 15 (bits.toNat / 256) ++ [UInt8.ofNat bits.toNat] := rfl
      have htake : (toBigEndian 16 bits.toNat).take 15 = toBigEndian 15 (bits.toNat / 256) := by
        rw [hsplit]
        exact take_left' (length_toBigEndian _ _)
      have hlast : (toBigEndian 16 bits.toNat).getD 15 0 = UInt8.ofNat bits.toNat := by
        rw [getD_eq_getElem?_getD, getElem?_toBigEndian (by decide), getD_some]
        norm_num
      have hhigh : bits.toNat / 256 < 256 ^ 15 := Nat.div_lt_of_lt_mul hlt
      have hzeros : ofBigEndian (List.replicate 15 0) = 0 := rfl
      rw [htake, hlast, all_toBigEndian hhigh, hzeros, Bool.eq_iff_iff, Bool.and_eq_true,
        beq_iff_eq, beq_iff_eq, beq_iff_eq, ← UInt8.toNat_inj, UInt8.toNat_ofNat']
      show _ ∧ _ = 1 ↔ _
      omega
    have hfirst : ((toBigEndian 16 bits.toNat).headD 0 == 0xff)
        = (IpAddr.segment ⟨.v6, bits⟩ 0 / 256 == 0xff) := by
      have hhead : (toBigEndian 16 bits.toNat).headD 0 = UInt8.ofNat (bits.toNat / 256 ^ 15) := by
        rw [headD_eq_head?_getD, head?_eq_getElem?, getElem?_toBigEndian (by decide)]
        rfl
      have hsegment : IpAddr.segment ⟨.v6, bits⟩ 0 = bits.toNat / 65536 ^ 7 % 65536 := rfl
      rw [hhead, hsegment, Bool.eq_iff_iff, beq_iff_eq, beq_iff_eq, ← UInt8.toNat_inj,
        UInt8.toNat_ofNat']
      show _ = 255 ↔ _
      omega
    have hoctets : IpAddr.octets ⟨.v6, bits⟩ = toBigEndian 16 bits.toNat := rfl
    have hne : (toBigEndian 16 bits.toNat).length ≠ 4 := by
      rw [length_toBigEndian]
      decide
    rw [isSpecial, hoctets, if_neg hne, hzero, hone, hfirst]
    show _ = (bits.toNat == 1 || _ || bits.toNat == 0)
    cases bits.toNat == 0 <;> cases bits.toNat == 1 <;> simp

end BypassEntries

/-! ### The texts of prefixes -/

/-- The two ways to find the longest run of zeros agree. -/
lemma longestZeros_eq (a b c d e f g h : Bool) : longestZeros [a, b, c, d, e, f, g, h] 9 0 none
      = (let span := (zeroSpans [a, b, c, d, e, f, g, h]).1
        if 1 < span.len then some (span.start, span.len) else none) := by
  revert a b c d e f g h
  decide +kernel

lemma groupsOf_octets {a : IpAddr} (hv6 : a.family = .v6) : groupsOf a.octets = a.segments := by
  refine map_congr_left fun i hi => ?_
  exact (IpAddr.segment_eq hv6 (mem_range.mp hi)).symm

/-- The port writes an IPv6 address that is not IPv4-mapped as the source does. -/
lemma ipv6Text_octets {a : IpAddr} (hv6 : a.family = .v6) :
    ipv6Text a.octets = IpText.ipv6Text a.segments := by
  have hzeros : longestZeros (a.segments.map (· == 0)) 9 0 none = _ :=
    longestZeros_eq (a.segment 0 == 0) (a.segment 1 == 0) (a.segment 2 == 0) (a.segment 3 == 0)
      (a.segment 4 == 0) (a.segment 5 == 0) (a.segment 6 == 0) (a.segment 7 == 0)
  have hlist : [a.segment 0 == 0, a.segment 1 == 0, a.segment 2 == 0, a.segment 3 == 0,
      a.segment 4 == 0, a.segment 5 == 0, a.segment 6 == 0, a.segment 7 == 0]
        = a.segments.map (· == 0) := rfl
  rw [hlist] at hzeros
  simp only [ipv6Text, groupsOf_octets hv6, hzeros, IpText.ipv6Text]
  split_ifs <;> rfl

/-- The port writes a prefix as the source does. -/
lemma text_octets {p : IpPrefix} (hmapped : p.address.isIpv4Mapped = false) :
    BypassPrefix.text ⟨p.address.octets, p.length⟩ = p.text := by
  have hlength : p.address.octets.length = p.address.family.size := p.address.length_octets
  have hfull : p.address.octets.length * 8 = p.address.family.fullLength := by
    rw [hlength]
    exact Nat.mul_comm _ _
  have htext : (if (⟨p.address.octets, p.length⟩ : BypassPrefix).isIpv4 then
      ['.'].intercalate (p.address.octets.map Text.octetText) else ipv6Text p.address.octets)
        = p.address.text := by
    rw [BypassPrefix.isIpv4, hlength, IpAddr.text]
    cases hfamily : p.address.family with
    | v4 => rfl
    | v6 =>
      have hnot : isMapped p.address.segments = false := by
        simpa [IpAddr.isIpv4Mapped, hfamily] using hmapped
      simp only [hnot, ipv6Text_octets hfamily]
      rfl
  simp only [BypassPrefix.text, htext, hfull, IpPrefix.text]

namespace BypassEntries

/-! ### Trimmed texts -/

/-- The code of the refusal, or the text of the prefix. -/
def outcome : Except BypassRefusal BypassPrefix → Except String (List Char)
  | .error e => .error e.code
  | .ok p => .ok p.text

variable {a : IpAddr} {dotted : Bool} {s : List Char} {length : ℕ} {c : Char}

/-- No prefix that is entered stands for an IPv4-mapped address. -/
lemma isIpv4Mapped_mask (h : AddressText dotted s a) (length : ℕ) :
    (a.mask length).isIpv4Mapped = false := by
  cases h with
  | v4 ip => rfl
  | v6 htext hmapped =>
    refine Bool.eq_false_iff.mpr fun h => ?_
    have hback := IpAddr.isMapped_of_mask rfl h
    rw [IpAddr.segments_ofParsed htext.groups.1 htext.groups.2, hmapped] at hback
    cases hback

/-- What `check` does with an address and a length that it has read. -/
lemma checkTrimmed_of_read {address : List UInt8} {p : BypassPrefix}
    (haddress : (parseIpv4 (s.takeWhile (· != '/'))).or (parseIpv6 (s.takeWhile (· != '/')))
      = some address)
    (hlength : parseLength (address.length * 8) (s.drop (s.takeWhile (· != '/')).length)
      = some length) (hp : BypassPrefix.of address length = p) :
    checkTrimmed s = if length < (if p.isIpv4 then minIpv4Prefix else minIpv6Prefix) then .error .tooWide
      else if isSpecial p.address then .error .special else .ok p := by
  subst hp
  have hread : checkTrimmed s = (okOr (some address) BypassRefusal.invalid >>= fun address =>
      okOr (parseLength (address.length * 8) (s.drop (s.takeWhile (· != '/')).length)) .invalid
        >>= fun length =>
      require (decide ((if (BypassPrefix.of address length).isIpv4 then minIpv4Prefix
        else minIpv6Prefix) ≤ length)) .tooWide >>= fun _ =>
      require (!isSpecial (BypassPrefix.of address length).address) .special >>= fun _ =>
      pure (BypassPrefix.of address length)) := by
    rw [← haddress]
    rfl
  rw [hread, okOr_some]
  show (okOr (parseLength (address.length * 8) _) _ >>= _) = _
  rw [hlength]
  show (require (decide (_ ≤ length)) _ >>= _) = _
  by_cases hwide : length < (if (BypassPrefix.of address length).isIpv4 then minIpv4Prefix
      else minIpv6Prefix)
  · rw [if_pos hwide, decide_eq_false (Nat.not_le.mpr hwide)]
    rfl
  · rw [if_neg hwide, decide_eq_true (Nat.not_lt.mp hwide)]
    show (require (!isSpecial _) _ >>= _) = _
    cases isSpecial (BypassPrefix.of address length).address <;> rfl

/-- A text of a network is answered as the source checks the prefix. -/
lemma outcome_of_networkText (h : NetworkText true s a length) : outcome (checkTrimmed s)
      = IpPrefix.outcome (IpPrefix.ofAddress a length h.length.le).checked := by
  have haddress := address_eq_some.mpr ⟨a, h.address, rfl⟩
  have hfull : a.octets.length * 8 = a.family.fullLength := by
    rw [a.length_octets]
    exact Nat.mul_comm _ _
  have hsmall : a.family.fullLength < 2 ^ 31 := by cases a.family <;> decide
  have hlength := (length_eq_some hsmall).mpr h.length
  rw [← hfull] at hlength
  have hof : BypassPrefix.of a.octets length = ⟨(a.mask length).octets, length⟩ :=
    congrArg (BypassPrefix.mk · length) (address_of h.length.le)
  have hminimum : (if (⟨(a.mask length).octets, length⟩ : BypassPrefix).isIpv4 then minIpv4Prefix
      else minIpv6Prefix) = a.family.minPrefix := by
    rw [BypassPrefix.isIpv4, (a.mask length).length_octets]
    show (if (a.family.size == 4) = true then _ else _) = _
    cases a.family <;> rfl
  have htext := text_octets (p := IpPrefix.ofAddress a length h.length.le)
    (isIpv4Mapped_mask h.address length)
  rw [checkTrimmed_of_read haddress hlength hof, hminimum, isSpecial_octets, IpPrefix.checked_eq]
  show outcome (if length < a.family.minPrefix then _ else _)
    = IpPrefix.outcome (if length < a.family.minPrefix then _ else _)
  by_cases hwide : length < a.family.minPrefix
  · rw [if_pos hwide, if_pos hwide]
    rfl
  · rw [if_neg hwide, if_neg hwide]
    show outcome (if (a.mask length).isSpecial = true then _ else _)
      = IpPrefix.outcome (if (a.mask length).isSpecial = true then _ else _)
    by_cases hspecial : (a.mask length).isSpecial = true
    · rw [if_pos hspecial, if_pos hspecial]
      rfl
    · rw [if_neg hspecial, if_neg hspecial]
      exact congrArg Except.ok htext

lemma outcome_of_not_networkText (h : ∀ a length, ¬ NetworkText true s a length) :
    outcome (checkTrimmed s) = .error "invalid" := by
  have hinvalid : ∀ {α : Type} (f : α → Except BypassRefusal BypassPrefix),
      outcome (okOr none .invalid >>= f) = .error "invalid" := fun _ => rfl
  rw [checkTrimmed]
  cases haddress : (parseIpv4 (s.takeWhile (· != '/'))).or (parseIpv6 (s.takeWhile (· != '/'))) with
  | none => exact hinvalid _
  | some address =>
    obtain ⟨a, htext, rfl⟩ := address_eq_some.mp haddress
    have hfull : a.octets.length * 8 = a.family.fullLength := by
      rw [a.length_octets]
      exact Nat.mul_comm _ _
    have hsmall : a.family.fullLength < 2 ^ 31 := by cases a.family <;> decide
    have hlength : parseLength (a.octets.length * 8)
        (s.drop (s.takeWhile (· != '/')).length) = none := by
      rw [hfull, eq_none_iff_forall_ne_some]
      intro length hlength
      exact h a length ⟨htext, (length_eq_some hsmall).mp hlength⟩
    show outcome (okOr (parseLength (a.octets.length * 8) _) _ >>= _) = _
    rw [hlength]
    exact hinvalid _

/-! ### Trimming -/

/-- A character that one of the two trims. -/
def isBlank (c : Char) : Bool := Str.isWhitespace c || isWhitespace c

variable (text : String)

/-- The text between the blanks at its ends. -/
def core : List Char := Str.trimBy isBlank text.toList

/-- One of the blanks at the ends is U+0085, which only the source trims. -/
def HasNextLine : Prop := ∃ c ∈ Str.margins isBlank text.toList, c.toNat = 0x85

/-- One of the blanks at the ends is an information separator, which only the port trims. -/
def HasSeparator : Prop :=
  ∃ c ∈ Str.margins isBlank text.toList, 0x1c ≤ c.toNat ∧ c.toNat ≤ 0x1f

lemma isWhitespace_eq (h : isBlank c = true) :
    (Str.isWhitespace c = false ↔ 0x1c ≤ c.toNat ∧ c.toNat ≤ 0x1f) ∧
      (isWhitespace c = false ↔ c.toNat = 0x85) := by
  simp only [isBlank, Str.isWhitespace, isWhitespace, Bool.or_eq_true, Bool.and_eq_true,
    decide_eq_true_eq, beq_iff_eq, Bool.or_eq_false_iff, Bool.and_eq_false_iff,
    decide_eq_false_iff_not, beq_eq_false_iff_ne] at h ⊢
  omega

/-- No blank stands in the text of a network. -/
lemma not_mem_networkText (h : NetworkText dotted s a length) (hc : isBlank c = true) : c ∉ s := by
  intro hmem
  have hbounds : 46 ≤ c.toNat ∧ c.toNat ≤ 102 := by
    rcases h.chars c hmem with hhex | rfl | rfl | rfl
    · have hle := toNat_of_isHex hhex
      omega
    · decide
    · decide
    · decide
  simp only [isBlank, Str.isWhitespace, isWhitespace, Bool.or_eq_true, Bool.and_eq_true,
    decide_eq_true_eq, beq_iff_eq] at hc
  omega

section Trim

variable {text} {p : Char → Bool} {q : Char → Prop}
  (hpq : ∀ c, isBlank c = true → (p c = false ↔ q c))

include hpq

lemma exists_blank (h : ∃ c ∈ Str.margins isBlank text.toList, q c) :
    ∃ c ∈ Str.trimBy p text.toList, isBlank c = true := by
  obtain ⟨c, hc, hq⟩ := h
  obtain ⟨hmem, hblank⟩ := Str.mem_of_mem_margins hc
  exact ⟨c, Str.mem_trimBy_of_not hmem ((hpq c hblank).mpr hq), hblank⟩

lemma trimBy_eq_core (hp : ∀ c, p c = true → isBlank c = true)
    (h : ¬ ∃ c ∈ Str.margins isBlank text.toList, q c) : Str.trimBy p text.toList = core text := by
  refine Str.trimBy_eq_of_margins hp fun c hc => ?_
  by_contra hnot
  obtain ⟨-, hblank⟩ := Str.mem_of_mem_margins hc
  exact h ⟨c, hc, (hpq c hblank).mp (Bool.eq_false_iff.mpr hnot)⟩

end Trim

/-- The source reads the text between the blanks, or finds a blank in it. -/
lemma parseBypass_outcome :
    (HasSeparator text → IpPrefix.outcome (IpPrefix.parseBypass text) = .error "invalid") ∧
      (¬ HasSeparator text → IpPrefix.outcome (IpPrefix.parseBypass text)
        = IpPrefix.outcome (IpPrefix.fromStr (core text) >>= IpPrefix.checked)) := by
  have hparse : IpPrefix.parseBypass text
      = IpPrefix.fromStr (Str.trimBy Str.isWhitespace text.toList) >>= IpPrefix.checked := by
    rw [← Str.toList_trim]
    rfl
  rw [hparse]
  constructor
  · intro hseparator
    obtain ⟨c, hc, hblank⟩ := exists_blank (fun _ h => (isWhitespace_eq h).1) hseparator
    exact IpPrefix.outcome_of_not_networkText fun a length h => not_mem_networkText h hblank hc
  · intro hnone
    rw [trimBy_eq_core (fun _ h => (isWhitespace_eq h).1) (fun c hc => by simp [isBlank, hc]) hnone]

lemma check_outcome : (HasNextLine text → outcome (check text) = .error "invalid") ∧
      (¬ HasNextLine text → outcome (check text) = outcome (checkTrimmed (core text))) := by
  have hcheck : check text = checkTrimmed (Str.trimBy isWhitespace text.toList) := rfl
  rw [hcheck]
  constructor
  · intro hnext
    obtain ⟨c, hc, hblank⟩ := exists_blank (fun _ h => (isWhitespace_eq h).2) hnext
    exact outcome_of_not_networkText fun a length h => not_mem_networkText h hblank hc
  · intro hnone
    rw [trimBy_eq_core (fun _ h => (isWhitespace_eq h).2) (fun c hc => by simp [isBlank, hc]) hnone]

/-! ### Where the answers agree -/

/-- **The source and the port answer a text alike unless they trim it differently or it has an
IPv4 address before `::`.**  For a text of a network they agree if and only if both or neither
meet a blank that they do not trim; for one that is such a text only with an IPv4 address before
`::`, if and only if the port meets one. -/
theorem answers_agree_iff (text : String) :
    IpPrefix.outcome (IpPrefix.parseBypass text) = outcome (check text) ↔
      ((∃ a length, NetworkText false (core text) a length) →
        (HasNextLine text ↔ HasSeparator text)) ∧
      ((∃ a length, NetworkText true (core text) a length) →
        (¬ ∃ a length, NetworkText false (core text) a length) → HasNextLine text) := by
  obtain ⟨hsource, hsource'⟩ := parseBypass_outcome text
  obtain ⟨hport, hport'⟩ := check_outcome text
  by_cases hplain : ∃ a length, NetworkText false (core text) a length
  · -- both read the text between the blanks
    have hright : ((∃ a length, NetworkText true (core text) a length) →
        (¬ ∃ a length, NetworkText false (core text) a length) → HasNextLine text) :=
      fun _ hnot => absurd hplain hnot
    rw [and_iff_left hright, imp_iff_right hplain]
    obtain ⟨a, length, h⟩ := hplain
    have hread := IpPrefix.outcome_of_networkText h
    have hread' := outcome_of_networkText h.dotted
    have hne := IpPrefix.outcome_checked_ne (IpPrefix.ofAddress a length h.length.le)
    by_cases hnext : HasNextLine text <;> by_cases hseparator : HasSeparator text
    · simp only [hsource hseparator, hport hnext, hnext, hseparator]
    · rw [hsource' hseparator, hport hnext, hread]
      simp only [hne, hnext, hseparator, true_iff]
    · rw [hsource hseparator, hport' hnext, hread']
      simp only [hne.symm, hnext, hseparator, iff_true]
    · rw [hsource' hseparator, hport' hnext, hread, hread']
      simp only [hnext, hseparator]
  · have hleft : ((∃ a length, NetworkText false (core text) a length) →
        (HasNextLine text ↔ HasSeparator text)) := fun h => absurd h hplain
    rw [and_iff_right hleft]
    -- the source refuses the text, however it is trimmed
    have hrefused : IpPrefix.outcome (IpPrefix.parseBypass text) = .error "invalid" := by
      by_cases hseparator : HasSeparator text
      · exact hsource hseparator
      · rw [hsource' hseparator]
        exact IpPrefix.outcome_of_not_networkText fun a length h => hplain ⟨a, length, h⟩
    rw [hrefused]
    by_cases hdotted : ∃ a length, NetworkText true (core text) a length
    · rw [imp_iff_right hdotted, imp_iff_right hplain]
      by_cases hnext : HasNextLine text
      · simp only [hport hnext, hnext]
      · obtain ⟨a, length, h⟩ := hdotted
        rw [hport' hnext, outcome_of_networkText h]
        simp only [hnext, iff_false]
        exact (IpPrefix.outcome_checked_ne _).symm
    · have hinvalid : outcome (check text) = .error "invalid" := by
        by_cases hnext : HasNextLine text
        · exact hport hnext
        · rw [hport' hnext]
          exact outcome_of_not_networkText fun a length h => hdotted ⟨a, length, h⟩
      rw [hinvalid]
      exact iff_of_true rfl fun h => absurd h hdotted

/-- An IPv4 address before `::` is refused by the source and entered by the port. -/
theorem dotted_head_answers :
    IpPrefix.outcome (IpPrefix.parseBypass "1.2.3.4::") = .error "invalid" ∧
      outcome (check "1.2.3.4::") = .ok "102:304::".toList := by
  decide +kernel

end BypassEntries

end Ket.Android
