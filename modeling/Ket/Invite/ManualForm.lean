import Ket.Invite.Manual
import Ket.Lib.Regroup
import Mathlib.Data.List.GetD

/-!
# What the hand-typeable form preserves

The two loops of `crockford_encode` and `crockford_decode` regroup the bits of a byte string
(`encodeBits_eq`, `decodeBits_eq_ok`).  The encoder pads with fewer than five zero bits; the
decoder accepts up to seven.  Both ends of the form follow from this: which byte strings are read
back from their text, and which texts of one byte string are the same text.
-/

namespace Ket.Invite

open List hiding Vector
open Ket.Lib

namespace Manual

/-! ### Symbols -/

variable {n bits buffer v left : ℕ} {ds vs : List ℕ} {ys out cs xs binary : List UInt8}

lemma crockfordValue_symbol (h : n < 32) : crockfordValue (symbol n) = some n := by
  have hall : ∀ n : Fin 32, crockfordValue (symbol n) = some n.val := by decide
  exact hall ⟨n, h⟩

lemma mapM_symbol (h : ∀ d ∈ ds, d < 32) : (ds.map symbol).mapM crockfordValue = some ds := by
  induction ds with
  | nil => rfl
  | cons d ds ih =>
    have hds := ih fun e he => h e (mem_cons_of_mem d he)
    rw [map_cons, mapM_cons, crockfordValue_symbol (h d mem_cons_self), hds]
    rfl

/-- The symbol that a letter is an alias of. -/
def dealias (b : UInt8) : UInt8 :=
  if b = 0x4f then 0x30 else if b = 0x49 ∨ b = 0x4c then 0x31 else b

lemma of_crockfordValue {b : UInt8} (h : crockfordValue b = some n) :
    n < 32 ∧ dealias (toAsciiUppercase b) = symbol n := by
  have haliased : symbol 0 = 0x30 ∧ symbol 1 = 0x31 := by decide
  simp only [crockfordValue] at h
  rw [dealias]
  split_ifs at h ⊢
  · cases h
    exact ⟨by omega, haliased.1.symm⟩
  · cases h
    exact ⟨by omega, haliased.2.symm⟩
  · obtain ⟨hlt, heq, -⟩ := findIdx?_eq_some_iff_getElem.mp h
    rw [symbol, getD_eq_getElem _ _ hlt]
    exact ⟨hlt, (beq_iff_eq.mp heq).symm⟩

/-- The values of a text give its symbols in upper case and without aliases. -/
lemma of_mapM_crockfordValue (h : ys.mapM crockfordValue = some vs) :
    (∀ v ∈ vs, v < 32) ∧ vs.length = ys.length ∧
      ys.map (fun y => dealias (toAsciiUppercase y)) = vs.map symbol := by
  induction ys generalizing vs with
  | nil =>
    cases h
    simp
  | cons y ys ih =>
    rw [mapM_cons, Option.bind_eq_bind, Option.bind_eq_some_iff] at h
    obtain ⟨v, hv, h⟩ := h
    rw [Option.bind_eq_bind, Option.bind_eq_some_iff] at h
    obtain ⟨vs', hvs, h⟩ := h
    cases h
    obtain ⟨hlt, hsymbol⟩ := of_crockfordValue hv
    obtain ⟨hdigits, hlength, hsymbols⟩ := ih hvs
    refine ⟨?_, by simp [hlength], by simp [hsymbol, hsymbols]⟩
    intro w hw
    rcases mem_cons.mp hw with rfl | hw
    · exact hlt
    · exact hdigits w hw

/-- The digits of a byte string, eight bits each. -/
abbrev octets (bs : List UInt8) : List ℕ := bs.map UInt8.toNat

lemma octets_lt (bs : List UInt8) : ∀ d ∈ octets bs, d < 2 ^ 8 := by
  intro d hd
  obtain ⟨b, -, rfl⟩ := mem_map.mp hd
  exact b.toNat_lt

lemma number_octets_cons (b : UInt8) (bs : List UInt8) :
    number 8 (octets (b :: bs)) = b.toNat * 2 ^ (8 * bs.length) + number 8 (octets bs) := by
  rw [octets, map_cons, number_cons, length_map]

/-! ### The encoder -/

/-- What is drained off the buffer are its upper bits, in groups of five. -/
lemma drain_eq (buffer bits : ℕ) (h : buffer < 2 ^ bits) :
    ∃ ds buffer' bits', drain buffer bits = (ds.map symbol, buffer', bits') ∧
      (∀ d ∈ ds, d < 2 ^ 5) ∧ bits' < 5 ∧ buffer' < 2 ^ bits' ∧ bits = 5 * ds.length + bits' ∧
      buffer = number 5 ds * 2 ^ bits' + buffer' := by
  induction bits using Nat.strong_induction_on generalizing buffer with
  | _ bits ih =>
    rcases Nat.lt_or_ge bits 5 with hlt | hge
    · refine ⟨[], buffer, bits, ?_, by simp, hlt, h, by simp, by simp⟩
      interval_cases bits <;> rfl
    · obtain ⟨rest, rfl⟩ := Nat.exists_eq_add_of_le' hge
      -- the first symbol, and the rest of the buffer below it
      have hquotient : buffer / 2 ^ rest < 2 ^ 5 := by
        rw [Nat.div_lt_iff_lt_mul (Nat.two_pow_pos rest), ← pow_add, add_comm]
        exact h
      obtain ⟨ds, buffer', bits', hdrain, hds, hbits', hbuffer', hrest, hnumber⟩ :=
        ih rest (by omega) (buffer % 2 ^ rest) (Nat.mod_lt _ (Nat.two_pow_pos rest))
      refine ⟨buffer / 2 ^ rest :: ds, buffer', bits', ?_, ?_, hbits', hbuffer', ?_, ?_⟩
      · rw [drain, hdrain, Nat.mod_eq_of_lt (show _ < 32 from hquotient)]
        rfl
      · intro d hd
        rcases mem_cons.mp hd with rfl | hd
        · exact hquotient
        · exact hds d hd
      · rw [length_cons, hrest]
        ring
      · calc buffer = buffer / 2 ^ rest * 2 ^ rest + buffer % 2 ^ rest :=
              (Nat.div_add_mod' buffer (2 ^ rest)).symm
          _ = buffer / 2 ^ rest * (2 ^ (5 * ds.length) * 2 ^ bits') +
                (number 5 ds * 2 ^ bits' + buffer') := by rw [← pow_add, ← hrest, ← hnumber]
          _ = number 5 (buffer / 2 ^ rest :: ds) * 2 ^ bits' + buffer' := by
              rw [number_cons]
              ring

/-- The encoder writes the bits of the buffer and the bytes in groups of five, the last one
padded with zeros. -/
lemma encodeBits_eq (buffer bits : ℕ) (bs : List UInt8) (hbits : bits < 5)
    (hbuffer : buffer < 2 ^ bits) :
    ∃ ds left, encodeBits buffer bits bs = ds.map symbol ∧ (∀ d ∈ ds, d < 2 ^ 5) ∧ left < 5 ∧
      5 * ds.length = bits + 8 * bs.length + left ∧
      number 5 ds = (buffer * 2 ^ (8 * bs.length) + number 8 (octets bs)) * 2 ^ left := by
  induction bs generalizing buffer bits with
  | nil =>
    rcases Nat.eq_zero_or_pos bits with rfl | hpos
    · have hzero : buffer = 0 := by simpa using hbuffer
      exact ⟨[], 0, rfl, by simp, by simp, by simp, by simp [hzero]⟩
    · have hpad : buffer * 2 ^ (5 - bits) < 2 ^ 5 := by
        calc buffer * 2 ^ (5 - bits) < 2 ^ bits * 2 ^ (5 - bits) :=
              Nat.mul_lt_mul_of_pos_right hbuffer (Nat.two_pow_pos _)
          _ = 2 ^ 5 := by rw [← pow_add, Nat.add_sub_cancel' hbits.le]
      refine ⟨[buffer * 2 ^ (5 - bits)], 5 - bits, ?_, by simpa using hpad, by omega, ?_, ?_⟩
      · rw [encodeBits, if_pos hpos, Nat.mod_eq_of_lt (show _ < 32 from hpad)]
        rfl
      · simp only [length_singleton, length_nil]
        omega
      · simp [number_cons]
  | cons b bs ih =>
    have hb := b.toNat_lt
    have hsmall : 2 ^ bits ≤ 2 ^ 4 := Nat.pow_le_pow_right (by decide) (by omega)
    have hnext : buffer * 256 + b.toNat < 2 ^ (bits + 8) := by
      rw [pow_add]
      omega
    have hfits : (buffer * 256 + b.toNat) % 2 ^ 16 = buffer * 256 + b.toNat :=
      Nat.mod_eq_of_lt (by omega)
    obtain ⟨ds, buffer', bits', hdrain, hds, hbits', hbuffer', hcount, hnumber⟩ :=
      drain_eq _ _ hnext
    obtain ⟨es, left, hencode, hes, hleft, hlength, hvalue⟩ := ih buffer' bits' hbits' hbuffer'
    refine ⟨ds ++ es, left, ?_, ?_, hleft, ?_, ?_⟩
    · simp only [encodeBits, hfits, hdrain, hencode, map_append]
    · intro d hd
      rcases mem_append.mp hd with hd | hd
      · exact hds d hd
      · exact hes d hd
    · rw [length_append, Nat.mul_add, hlength, length_cons]
      omega
    · calc number 5 (ds ++ es)
          = number 5 ds * 2 ^ (bits' + 8 * bs.length + left) + number 5 es := by
            rw [number_append, hlength]
        _ = ((number 5 ds * 2 ^ bits' + buffer') * 2 ^ (8 * bs.length) +
              number 8 (octets bs)) * 2 ^ left := by
            rw [hvalue, pow_add, pow_add]
            ring
        _ = (buffer * 2 ^ (8 * (b :: bs).length) + number 8 (octets (b :: bs))) * 2 ^ left := by
            rw [← hnumber, number_octets_cons, length_cons]
            ring

/-- **The encoder regroups bytes into symbols**, with fewer than five zero bits after them. -/
theorem crockfordEncode_eq (bs : List UInt8) :
    ∃ ds left, crockfordEncode bs = ds.map symbol ∧ (∀ d ∈ ds, d < 2 ^ 5) ∧ left < 5 ∧
      Regroups 8 5 (octets bs) ds left := by
  obtain ⟨ds, left, hencode, hds, hleft, hlength, hvalue⟩ :=
    encodeBits_eq 0 0 bs (by decide) (by decide)
  refine ⟨ds, left, hencode, hds, hleft, ⟨?_, ?_⟩⟩
  · rw [hlength, length_map]
    omega
  · rw [hvalue]
    ring

/-! ### The decoder -/

/-- One step of the decoder leaves the buffer within its bits. -/
lemma next_buffer (hbits : bits < 8) (hbuffer : buffer < 2 ^ bits) (hv : v < 2 ^ 5) :
    (buffer * 32 + v) % 2 ^ 16 = buffer * 32 + v ∧ buffer * 32 + v < 2 ^ (bits + 5) := by
  have hsmall : 2 ^ bits ≤ 2 ^ 7 := Nat.pow_le_pow_right (by decide) (by omega)
  have hnext : buffer * 32 + v < 2 ^ (bits + 5) := by
    rw [pow_add]
    omega
  exact ⟨Nat.mod_eq_of_lt (by omega), hnext⟩

lemma number_lt_of_mapM (hbuffer : buffer < 2 ^ bits) (hvs : ∀ v ∈ vs, v < 2 ^ 5) :
    buffer * 2 ^ (5 * vs.length) + number 5 vs < 2 ^ (bits + 5 * vs.length) := by
  have hlow := number_lt hvs
  calc buffer * 2 ^ (5 * vs.length) + number 5 vs
      < (buffer + 1) * 2 ^ (5 * vs.length) := by
        rw [Nat.add_mul, one_mul]
        omega
    _ ≤ 2 ^ bits * 2 ^ (5 * vs.length) := Nat.mul_le_mul_right _ hbuffer
    _ = 2 ^ (bits + 5 * vs.length) := (pow_add _ _ _).symm

/-- What the loop of the decoder has to return: the bits of the buffer and of the values in
groups of eight, when the bits that are left over are zeros. -/
structure Decodes (buffer bits : ℕ) (vs : List ℕ) (out : List UInt8) (left : ℕ) : Prop where
  left_lt : left < 8
  length_eq : 8 * out.length + left = bits + 5 * vs.length
  number_eq : number 8 (octets out) * 2 ^ left = buffer * 2 ^ (5 * vs.length) + number 5 vs

/-- A value that does not fill the buffer is put into it. -/
lemma decodes_cons :
    Decodes buffer bits (v :: vs) out left ↔ Decodes (buffer * 32 + v) (bits + 5) vs out left := by
  have hvalue : buffer * 2 ^ (5 * (v :: vs).length) + number 5 (v :: vs) =
      (buffer * 32 + v) * 2 ^ (5 * vs.length) + number 5 vs := by
    rw [number_cons, length_cons, Nat.mul_succ, pow_add]
    ring
  constructor
  · rintro ⟨hleft, hlength, hnumber⟩
    refine ⟨hleft, ?_, hnumber.trans hvalue⟩
    rw [hlength, length_cons]
    ring
  · rintro ⟨hleft, hlength, hnumber⟩
    refine ⟨hleft, ?_, hnumber.trans hvalue.symm⟩
    rw [hlength, length_cons]
    ring

/-- A full buffer gives one byte: its upper eight bits. -/
lemma decodes_byte (hbuffer : buffer < 2 ^ (bits + 8)) (hvs : ∀ v ∈ vs, v < 2 ^ 5) :
    Decodes buffer (bits + 8) vs out left ↔ ∃ out', out = UInt8.ofNat (buffer / 2 ^ bits) :: out' ∧
        Decodes (buffer % 2 ^ bits) bits vs out' left := by
  have hquotient : buffer / 2 ^ bits < 2 ^ 8 := by
    rw [Nat.div_lt_iff_lt_mul (Nat.two_pow_pos bits), ← pow_add, add_comm]
    exact hbuffer
  have hbyte : (UInt8.ofNat (buffer / 2 ^ bits)).toNat = buffer / 2 ^ bits :=
    UInt8.toNat_ofNat_of_lt' hquotient
  have hrest : buffer % 2 ^ bits < 2 ^ bits := Nat.mod_lt _ (Nat.two_pow_pos bits)
  -- the number of the buffer and the values, split below the upper eight bits
  have hsplit : buffer * 2 ^ (5 * vs.length) + number 5 vs =
      buffer / 2 ^ bits * 2 ^ (bits + 5 * vs.length) +
        (buffer % 2 ^ bits * 2 ^ (5 * vs.length) + number 5 vs) := by
    conv_lhs => rw [← Nat.div_add_mod' buffer (2 ^ bits)]
    rw [pow_add]
    ring
  have hlow := number_lt_of_mapM hrest hvs
  constructor
  · rintro ⟨hleft, hlength, hnumber⟩
    cases out with
    | nil =>
      simp only [length_nil] at hlength
      omega
    | cons b out =>
      have hshort : 8 * out.length + left = bits + 5 * vs.length := by
        rw [length_cons] at hlength
        omega
      have hout : number 8 (octets out) * 2 ^ left < 2 ^ (bits + 5 * vs.length) := by
        rw [← hshort, pow_add]
        refine Nat.mul_lt_mul_of_pos_right ?_ (Nat.two_pow_pos left)
        simpa using number_lt (octets_lt out)
      have hparts : b.toNat * 2 ^ (bits + 5 * vs.length) + number 8 (octets out) * 2 ^ left =
          buffer / 2 ^ bits * 2 ^ (bits + 5 * vs.length) +
            (buffer % 2 ^ bits * 2 ^ (5 * vs.length) + number 5 vs) := by
        rw [← hsplit, ← hnumber, number_octets_cons, ← hshort, pow_add]
        ring
      obtain ⟨hb, hnumbers⟩ := mul_two_pow_add_inj hout hlow hparts
      refine ⟨out, ?_, ⟨hleft, hshort, hnumbers⟩⟩
      rw [← hb, UInt8.ofNat_toNat]
  · rintro ⟨out, rfl, hleft, hlength, hnumber⟩
    refine ⟨hleft, ?_, ?_⟩
    · rw [length_cons]
      omega
    · rw [hsplit, ← hnumber, ← hlength, number_octets_cons, hbyte, pow_add]
      ring

/-- **The decoder regroups symbols into bytes**, when at most seven bits are left over and all of
them are zeros. -/
lemma decodeBits_eq_ok (hbits : bits < 8) (hbuffer : buffer < 2 ^ bits) :
    decodeBits buffer bits ys = .ok out ↔
      ∃ vs left, ys.mapM crockfordValue = some vs ∧ Decodes buffer bits vs out left := by
  induction ys generalizing buffer bits out with
  | nil =>
    constructor
    · intro h
      unfold decodeBits at h
      split_ifs at h with hzero
      cases h
      refine ⟨[], bits, rfl, hbits, by simp, ?_⟩
      rcases Nat.eq_zero_or_pos bits with rfl | hpos
      · have : buffer = 0 := by simpa using hbuffer
        simp [this]
      · have : buffer = 0 := by
          by_contra hne
          exact hzero ⟨hpos, hne⟩
        simp [this]
    · rintro ⟨vs, left, hvs, hleft, hlength, hnumber⟩
      obtain rfl : [] = vs := by simpa using hvs
      have hout : out = [] := by
        rw [length_nil] at hlength
        exact length_eq_zero_iff.mp (by omega)
      subst hout
      have hzero : buffer = 0 := by simpa using hnumber.symm
      rw [decodeBits, if_neg (by simp [hzero])]
  | cons y ys ih =>
    cases hv : crockfordValue y with
    | none => simp [decodeBits, hv, mapM_cons]
    | some v =>
      obtain ⟨hlt, -⟩ := of_crockfordValue hv
      obtain ⟨hfits, hnext⟩ := next_buffer hbits hbuffer hlt
      have hvalues : ∀ left, (∃ vs, (y :: ys).mapM crockfordValue = some vs ∧
          Decodes buffer bits vs out left) ↔ ∃ vs, ys.mapM crockfordValue = some vs ∧
          Decodes (buffer * 32 + v) (bits + 5) vs out left := by
        intro left
        rw [mapM_cons, hv]
        cases hys : ys.mapM crockfordValue with
        | none => simp
        | some vs => simp [decodes_cons]
      rw [exists_comm]
      simp only [hvalues, decodeBits, hv, hfits]
      split_ifs with hfull
      · obtain ⟨rest, hrest⟩ := Nat.exists_eq_add_of_le' hfull
        rw [hrest] at hnext
        simp only [hrest, Nat.add_sub_cancel]
        have hlow : (buffer * 32 + v) % 2 ^ rest < 2 ^ rest :=
          Nat.mod_lt _ (Nat.two_pow_pos rest)
        constructor
        · intro h
          obtain ⟨out', hout', h⟩ := bind_eq_ok.mp h
          cases h
          obtain ⟨vs, left, hvs, hdecodes⟩ := (ih (by omega) hlow).mp hout'
          have hdigits := (of_mapM_crockfordValue hvs).1
          exact ⟨left, vs, hvs, (decodes_byte hnext hdigits).mpr ⟨out', rfl, hdecodes⟩⟩
        · rintro ⟨left, vs, hvs, hdecodes⟩
          have hdigits := (of_mapM_crockfordValue hvs).1
          obtain ⟨out', rfl, hrest'⟩ := (decodes_byte hnext hdigits).mp hdecodes
          exact bind_eq_ok.mpr ⟨out', (ih (by omega) hlow).mpr ⟨vs, left, hvs, hrest'⟩, rfl⟩
      · rw [ih (Nat.lt_of_not_le hfull) hnext, exists_comm]

theorem crockfordDecode_eq_ok : crockfordDecode ys = .ok out ↔
      (ys.length * 5 + 7) / 8 ≤ maxBinaryInviteBytes + checksumBytes ∧
        ∃ vs left, ys.mapM crockfordValue = some vs ∧ left < 8 ∧
          Regroups 8 5 (octets out) vs left := by
  rw [crockfordDecode, require_bind_eq_ok, decide_eq_true_iff,
    decodeBits_eq_ok (by decide) (by decide)]
  refine and_congr_right fun _ => exists_congr fun vs => exists_congr fun left =>
    and_congr_right fun _ => ?_
  constructor
  · rintro ⟨hleft, hlength, hnumber⟩
    refine ⟨hleft, ?_, ?_⟩
    · rw [octets, length_map, hlength, Nat.zero_add]
    · rw [hnumber, Nat.zero_mul, Nat.zero_add]
  · rintro ⟨hleft, hlength, hnumber⟩
    refine ⟨hleft, ?_, ?_⟩
    · rw [Nat.zero_add, hlength, octets, length_map]
    · rw [Nat.zero_mul, Nat.zero_add, hnumber]

/-! ### Dashes -/

/-- `dashed` where `i` symbols went before. -/
def dashedFrom : ℕ → List UInt8 → List UInt8
  | _, [] => []
  | i, c :: cs => (if 0 < i ∧ i % group = 0 then [dash, c] else [c]) ++ dashedFrom (i + 1) cs

lemma dashed_eq (cs : List UInt8) : dashed cs = dashedFrom 0 cs := by
  suffices h : ∀ i, (cs.zipIdx i).flatMap (fun pair =>
      if 0 < pair.2 ∧ pair.2 % group = 0 then [dash, pair.1] else [pair.1]) =
        dashedFrom i cs from h 0
  induction cs with
  | nil => exact fun _ => rfl
  | cons c cs ih =>
    intro i
    rw [zipIdx_cons, flatMap_cons, ih]
    rfl

lemma filter_dashedFrom (i : ℕ) (h : dash ∉ cs) : (dashedFrom i cs).filter (· != dash) = cs := by
  induction cs generalizing i with
  | nil => rfl
  | cons c cs ih =>
    rw [mem_cons, not_or] at h
    obtain ⟨hc, hcs⟩ := h
    rw [dashedFrom, filter_append, ih (i + 1) hcs]
    split <;> simp [Ne.symm hc]

lemma mem_dashedFrom {i : ℕ} {x : UInt8} (h : x ∈ dashedFrom i cs) : x = dash ∨ x ∈ cs := by
  induction cs generalizing i with
  | nil => cases h
  | cons c cs ih =>
    rcases mem_append.mp h with h | h
    · split at h <;> simp only [mem_cons, not_mem_nil, or_false] at h
      · rcases h with rfl | rfl
        · exact .inl rfl
        · exact .inr mem_cons_self
      · exact .inr (h ▸ mem_cons_self)
    · exact (ih h).imp_right (mem_cons_of_mem c)

lemma getLast?_dashedFrom (i : ℕ) (cs : List UInt8) : (dashedFrom i cs).getLast? = cs.getLast? := by
  induction cs generalizing i with
  | nil => rfl
  | cons c cs ih =>
    rw [dashedFrom, getLast?_append, ih, getLast?_cons]
    cases cs.getLast? <;> split <;> rfl

/-- No two dashes stand side by side: a symbol follows each of them. -/
lemma not_infix_dashedFrom (i : ℕ) (h : dash ∉ cs) : ¬ [dash, dash] <:+: dashedFrom i cs := by
  induction cs generalizing i with
  | nil => simp [dashedFrom]
  | cons c cs ih =>
    rw [mem_cons, not_or] at h
    obtain ⟨hc, hcs⟩ := h
    have hrest := ih (i + 1) hcs
    rw [dashedFrom]
    split <;> simp [infix_cons_iff, hrest, hc]

/-! ### The checksum -/

lemma foldl_or_eq_zero {acc : UInt8} : xs.foldl (· ||| ·) acc = 0 ↔ acc = 0 ∧ ∀ x ∈ xs, x = 0 := by
  induction xs generalizing acc with
  | nil => simp
  | cons x xs ih =>
    rw [foldl_cons, ih, UInt8.or_eq_zero_iff]
    simp [and_assoc]

/-- The accumulated difference of two byte strings of one length is zero if they are equal. -/
lemma difference_eq_zero (hlength : xs.length = ys.length) :
    (xs.zipWith (· ^^^ ·) ys).foldl (· ||| ·) 0 = 0 ↔ xs = ys := by
  rw [foldl_or_eq_zero]
  induction xs generalizing ys with
  | nil =>
    have hys : ys = [] := length_eq_zero_iff.mp hlength.symm
    simp [hys]
  | cons x xs ih =>
    cases ys with
    | nil => simp at hlength
    | cons y ys =>
      have hrest := @ih ys (by simpa using hlength)
      simp only [true_and] at hrest
      simp [hrest]

lemma length_checksum (sha256 : List UInt8 → Vector UInt8 32) (form : ManualText)
    (value : List UInt8) : (checksum sha256 form value).length = checksumBytes := by
  simp [checksum, checksumBytes]

/-! ### Texts -/

/-- The part of a text after its lead. -/
def body (form : ManualText) (input : List UInt8) : List UInt8 :=
  input.drop (Str.bytes form.lead).length

/-- The symbols of a text: its body without the dashes. -/
def symbols (form : ManualText) (input : List UInt8) : List UInt8 :=
  (body form input).filter (· != dash)

/-- The bytes a body may have. -/
def isSymbol (b : UInt8) : Bool :=
  isAsciiDigit b || isAsciiLowercase b || isAsciiUppercase b || b == dash

/-- A body of single dashes between groups of letters and digits. -/
def wellFormed (body : List UInt8) : Bool :=
  decide (body ≠ [] ∧ body.head? ≠ some dash ∧ body.getLast? ≠ some dash ∧
    ¬ [dash, dash] <:+: body) && body.all isSymbol

variable {sha256 : List UInt8 → Vector UInt8 32} {form : ManualText}

lemma isSymbol_symbol (h : n < 32) : isSymbol (symbol n) = true ∧ symbol n ≠ dash := by
  have hall : ∀ n : Fin 32, isSymbol (symbol n) = true ∧ symbol n ≠ dash := by decide
  exact hall ⟨n, h⟩

/-- Grouped symbols are a body. -/
lemma wellFormed_dashed (hds : ∀ d ∈ ds, d < 32) (hne : ds ≠ []) :
    wellFormed (dashed (ds.map symbol)) = true := by
  have hmem : ∀ x ∈ ds.map symbol, isSymbol x = true ∧ x ≠ dash := by
    intro x hx
    obtain ⟨d, hd, rfl⟩ := mem_map.mp hx
    exact isSymbol_symbol (hds d hd)
  have hdash : dash ∉ ds.map symbol := fun h => (hmem dash h).2 rfl
  obtain ⟨d, ds', rfl⟩ := exists_cons_of_ne_nil hne
  have hhead : (dashedFrom 0 ((d :: ds').map symbol)).head? = some (symbol d) := rfl
  rw [dashed_eq, wellFormed, Bool.and_eq_true, decide_eq_true_eq, all_eq_true]
  refine ⟨⟨fun h => ?_, ?_, ?_, not_infix_dashedFrom 0 hdash⟩, ?_⟩
  · rw [h] at hhead
    cases hhead
  · rw [hhead]
    exact fun h => (hmem _ (by simp)).2 (Option.some.inj h)
  · rw [getLast?_dashedFrom]
    exact fun h => hdash (mem_of_getLast? h)
  · intro x hx
    rcases mem_dashedFrom hx with rfl | hx
    · rfl
    · exact (hmem x hx).1

/-- A text is accepted if its symbols stand for a byte string and its checksum. -/
lemma decodeManual_eq_ok {input : List UInt8} : decodeManual sha256 form input = .ok binary ↔
      wellFormed (body form input) = true ∧ binary ≠ [] ∧ binary.length ≤ maxBinaryInviteBytes ∧
        crockfordDecode (symbols form input) = .ok (binary ++ checksum sha256 form binary) := by
  have hlength := length_checksum sha256 form
  constructor
  · intro h
    obtain ⟨hbody, h⟩ := require_bind_eq_ok.mp h
    obtain ⟨decoded, hdecoded, h⟩ := bind_eq_ok.mp h
    obtain ⟨hsize, h⟩ := require_bind_eq_ok.mp h
    obtain ⟨hdifference, h⟩ := require_bind_eq_ok.mp h
    cases h
    obtain ⟨hmin, hmax⟩ := of_decide_eq_true hsize
    have hdrop : decoded.drop (decoded.length - checksumBytes) =
        checksum sha256 form (decoded.take (decoded.length - checksumBytes)) := by
      refine (difference_eq_zero ?_).mp (eq_of_beq hdifference)
      rw [hlength, length_drop]
      omega
    have htake : (decoded.take (decoded.length - checksumBytes)).length =
        decoded.length - checksumBytes := length_take_of_le (Nat.sub_le _ _)
    refine ⟨hbody, fun hnil => ?_, ?_, ?_⟩
    · rw [hnil, length_nil] at htake
      omega
    · omega
    · rw [← hdrop, take_append_drop]
      exact hdecoded
  · rintro ⟨hbody, hne, hmax, hdecode⟩
    have hpos : 0 < binary.length := length_pos_iff.mpr hne
    have hsplit : (binary ++ checksum sha256 form binary).length - checksumBytes =
        binary.length := by
      rw [length_append, hlength, Nat.add_sub_cancel]
    refine require_bind_eq_ok.mpr ⟨hbody, bind_eq_ok.mpr ⟨_, hdecode, ?_⟩⟩
    simp only [hsplit, take_left, drop_left]
    refine require_bind_eq_ok.mpr ⟨decide_eq_true ?_, require_bind_eq_ok.mpr ⟨?_, rfl⟩⟩
    · rw [length_append, hlength]
      omega
    · exact beq_iff_eq.mpr ((difference_eq_zero rfl).mpr rfl)

/-- The text of a byte string: its body and symbols. -/
lemma encodeManual_eq (sha256 : List UInt8 → Vector UInt8 32) (form : ManualText)
    (binary : List UInt8) :
    ∃ ds left, symbols form (encodeManual sha256 form binary) = ds.map symbol ∧
      wellFormed (body form (encodeManual sha256 form binary)) = true ∧ (∀ d ∈ ds, d < 2 ^ 5) ∧
      left < 5 ∧ Regroups 8 5 (octets (binary ++ checksum sha256 form binary)) ds left := by
  obtain ⟨ds, left, hencode, hds, hleft, hregroups⟩ :=
    crockfordEncode_eq (binary ++ checksum sha256 form binary)
  have hbody : body form (encodeManual sha256 form binary) = dashed (ds.map symbol) := by
    rw [body, encodeManual, drop_left, hencode]
  have hne : ds ≠ [] := by
    rintro rfl
    have h := hregroups.length_eq
    simp only [octets, length_map, length_append, length_nil,
      length_checksum] at h
    rw [checksumBytes] at h
    omega
  have hdash : dash ∉ ds.map symbol := by
    intro h
    obtain ⟨d, hd, hsymbol⟩ := mem_map.mp h
    exact (isSymbol_symbol (hds d hd)).2 hsymbol
  refine ⟨ds, left, ?_, ?_, hds, hleft, hregroups⟩
  · rw [symbols, hbody, dashed_eq, filter_dashedFrom 0 hdash]
  · rw [hbody]
    exact wellFormed_dashed hds hne

/-- How many symbols a byte string and its checksum take up. -/
lemma length_of_regroups (h : Regroups 8 5 (octets (binary ++ checksum sha256 form binary)) ds left)
    : 5 * ds.length = 8 * (binary.length + 4) + left := by
  have hlength := h.length_eq
  rwa [octets, length_map, length_append, length_checksum] at hlength

end Manual

open Manual

/-- **Which byte strings are read back from their text.**  The bound of the decoder on the number
of symbols rounds up, so that the longest binary form is refused; all shorter ones are read
back. -/
theorem decodeManual_encodeManual (sha256 : List UInt8 → Vector UInt8 32) (form : ManualText)
    (binary : List UInt8) (hmin : 1 ≤ binary.length) (hmax : binary.length ≤ maxBinaryInviteBytes) :
    decodeManual sha256 form (encodeManual sha256 form binary) = .ok binary ↔
      binary.length < maxBinaryInviteBytes := by
  obtain ⟨ds, left, hsymbols, hbody, hds, hleft, hregroups⟩ := encodeManual_eq sha256 form binary
  have hcount := length_of_regroups hregroups
  rw [decodeManual_eq_ok, crockfordDecode_eq_ok, hsymbols, length_map]
  simp only [maxBinaryInviteBytes, checksumBytes] at hmax ⊢
  constructor
  · rintro ⟨-, -, -, hbound, -⟩
    omega
  · intro hlt
    refine ⟨hbody, length_pos_iff.mp hmin, hmax, by omega, ?_⟩
    exact ⟨ds, left, mapM_symbol hds, by omega, hregroups⟩

theorem decodeManual_encodeManual_byte : decodeManual (fun _ => Vector.replicate 32 0) ⟨"APP1-", []⟩
        (encodeManual (fun _ => Vector.replicate 32 0) ⟨"APP1-", []⟩ [7]) = .ok [7] :=
  (decodeManual_encodeManual _ _ [7] (by decide) (by decide)).mpr (by decide)

/-- A binary form of the full 1,024 bytes is refused, whatever its bytes and the form. -/
theorem decodeManual_encodeManual_longest :
    ∃ binary : List UInt8, binary.length = maxBinaryInviteBytes ∧ ∀ sha256 form,
      decodeManual sha256 form (encodeManual sha256 form binary) = .error .tooLarge := by
  refine ⟨List.replicate maxBinaryInviteBytes 0, length_replicate, fun sha256 form => ?_⟩
  obtain ⟨ds, left, hsymbols, hbody, -, -, hregroups⟩ :=
    encodeManual_eq sha256 form (List.replicate maxBinaryInviteBytes 0)
  have hcount := length_of_regroups hregroups
  rw [length_replicate, maxBinaryInviteBytes] at hcount
  have hdecode : crockfordDecode (ds.map symbol) = .error .tooLarge := by
    have hbound : ¬ (ds.length * 5 + 7) / 8 ≤ maxBinaryInviteBytes + checksumBytes := by
      rw [maxBinaryInviteBytes, checksumBytes]
      omega
    rw [crockfordDecode, length_map, decide_eq_false hbound]
    rfl
  have hrequire : require (wellFormed (body form (encodeManual sha256 form
      (List.replicate maxBinaryInviteBytes 0)))) CapsuleError.invalid = .ok () :=
    require_eq_ok.mpr hbody
  change (require (wellFormed (body form _)) _ >>= fun _ => crockfordDecode (symbols form _) >>= _) = _
  rw [hrequire, hsymbols, hdecode]
  rfl

namespace Manual

/-! ### The text of a byte string -/

/-- A text without dashes, in upper case and with each alias replaced by its symbol. -/
def normalized (input : List UInt8) : List UInt8 :=
  (input.filter (· != dash)).map fun b => dealias (toAsciiUppercase b)

/-- The text begins with the lead of the form, in any case. -/
def BeginsWithLead (form : ManualText) (input : List UInt8) : Prop :=
  (input.take (Str.bytes form.lead).length).map toAsciiUppercase =
    (Str.bytes form.lead).map toAsciiUppercase

lemma toAsciiUppercase_bne_dash (b : UInt8) : (toAsciiUppercase b != dash) = (b != dash) := by
  have hall : ∀ i : Fin 256,
      (toAsciiUppercase (UInt8.ofNat i) != dash) = (UInt8.ofNat i != dash) := by decide +kernel
  have hb := hall ⟨b.toNat, b.toNat_lt⟩
  rwa [UInt8.ofNat_toNat] at hb

lemma normalized_eq (input : List UInt8) :
    normalized input = ((input.map toAsciiUppercase).filter (· != dash)).map dealias := by
  have hfilter : ((· != dash) ∘ toAsciiUppercase) = fun b => b != dash :=
    funext toAsciiUppercase_bne_dash
  rw [filter_map, hfilter, map_map]
  rfl

variable {sha256 : List UInt8 → Vector UInt8 32} {form : ManualText}

/-- The lead is the same in all texts, so that only the symbols tell them apart. -/
lemma normalized_of_beginsWithLead {input : List UInt8} (h : BeginsWithLead form input) :
    normalized input = normalized (Str.bytes form.lead) ++
      (symbols form input).map fun b => dealias (toAsciiUppercase b) := by
  have hlead : normalized (input.take (Str.bytes form.lead).length) =
      normalized (Str.bytes form.lead) := by
    rw [normalized_eq, normalized_eq, h]
  rw [← hlead, symbols, body, normalized, normalized, ← map_append, ← filter_append,
    take_append_drop]

/-- The values of an accepted text regroup the byte string and its checksum. -/
lemma values_of_decodeManual {input binary : List UInt8}
    (h : decodeManual sha256 form input = .ok binary) :
    ∃ vs left, (symbols form input).map (fun b => dealias (toAsciiUppercase b)) = vs.map symbol ∧
      vs.length = (symbols form input).length ∧ (∀ v ∈ vs, v < 2 ^ 5) ∧ left < 8 ∧
      Regroups 8 5 (octets (binary ++ checksum sha256 form binary)) vs left := by
  obtain ⟨-, -, -, hdecode⟩ := decodeManual_eq_ok.mp h
  obtain ⟨-, vs, left, hvs, hleft, hregroups⟩ := crockfordDecode_eq_ok.mp hdecode
  obtain ⟨hdigits, hlength, hsymbols⟩ := of_mapM_crockfordValue hvs
  exact ⟨vs, left, hsymbols, hlength, hdigits, hleft, hregroups⟩

/-- A zero after the last symbol adds five zero bits. -/
lemma regroups_concat_zero {xs ds : List ℕ} {left : ℕ} (h : Regroups 8 5 xs ds left) :
    Regroups 8 5 xs (ds ++ [0]) (left + 5) := by
  refine ⟨?_, ?_⟩
  · rw [length_append, length_singleton, Nat.mul_add, h.length_eq]
    ring
  · rw [number_append, h.number_eq, length_singleton, pow_add]
    simp [number_cons, mul_assoc]

lemma wellFormed_concat {b : List UInt8} {c : UInt8} (hc : isSymbol c = true) (hdash : c ≠ dash)
    (h : wellFormed b = true) : wellFormed (b ++ [c]) = true := by
  rw [wellFormed, Bool.and_eq_true, decide_eq_true_eq, all_eq_true] at h ⊢
  obtain ⟨⟨hne, hhead, -, hdashes⟩, hall⟩ := h
  refine ⟨⟨by simp, ?_, by simpa using hdash, ?_⟩, ?_⟩
  · rwa [head?_append_of_ne_nil _ hne]
  · rw [infix_concat_iff]
    rintro (⟨pre, hsuffix⟩ | hinfix)
    · have hlast := congrArg List.getLast? hsuffix
      simp only [getLast?_append, getLast?_singleton] at hlast
      exact hdash (by simpa using hlast.symm)
    · exact hdashes hinfix
  · intro x hx
    rcases mem_append.mp hx with hx | hx
    · exact hall x hx
    · rwa [mem_singleton.mp hx]

end Manual

/-- **Which texts of one byte string are the same text.**  Two accepted texts of one byte string
agree in their normal form, and neither has more symbols than the encoder writes, exactly when the
symbols of both leave fewer than five bits over: a symbol more is accepted where the bits left
over stay below eight. -/
theorem normalized_eq_iff (sha256 : List UInt8 → Vector UInt8 32) (form : ManualText)
    (s t binary : List UInt8) (hs : BeginsWithLead form s) (ht : BeginsWithLead form t)
    (hdecodes : decodeManual sha256 form s = .ok binary)
    (hdecodet : decodeManual sha256 form t = .ok binary) : (normalized s = normalized t ∧
        (symbols form s).length ≤ (symbols form (encodeManual sha256 form binary)).length ∧
        (symbols form t).length ≤ (symbols form (encodeManual sha256 form binary)).length) ↔
      5 * (symbols form s).length % 8 < 5 ∧ 5 * (symbols form t).length % 8 < 5 := by
  obtain ⟨ds, left, hsymbols, -, -, hleft, hregroups⟩ := encodeManual_eq sha256 form binary
  obtain ⟨vs, lefts, hvs, hslength, hsdigits, hlefts, hsregroups⟩ := values_of_decodeManual hdecodes
  obtain ⟨ws, leftt, hws, htlength, htdigits, hleftt, htregroups⟩ := values_of_decodeManual hdecodet
  have hcount := length_of_regroups hregroups
  have hscount := length_of_regroups hsregroups
  have htcount := length_of_regroups htregroups
  have hsleft : 5 * vs.length % 8 = lefts := by omega
  have htleft : 5 * ws.length % 8 = leftt := by omega
  rw [hsymbols, length_map, ← hslength, ← htlength, hsleft, htleft]
  clear hsleft htleft
  constructor
  · rintro ⟨-, hsle, htle⟩
    omega
  · rintro ⟨hsfew, htfew⟩
    -- fewer than five bits are left over in one way only
    have hsame : lefts = leftt := by omega
    subst hsame
    have hvalues : vs = ws := hsregroups.unique (by decide) hsdigits htdigits htregroups
    refine ⟨?_, by omega, by omega⟩
    rw [normalized_of_beginsWithLead hs, normalized_of_beginsWithLead ht, hvs, hws, hvalues]

theorem normalized_eq_iff_byte :
    normalized (Str.bytes "APP1-0W000-000") = normalized (Str.bytes "app1-ow000000") := by
  have hs : decodeManual (fun _ => Vector.replicate 32 0) ⟨"APP1-", []⟩
      (Str.bytes "APP1-0W000-000") = .ok [7] := by decide
  have ht : decodeManual (fun _ => Vector.replicate 32 0) ⟨"APP1-", []⟩
      (Str.bytes "app1-ow000000") = .ok [7] := by decide
  have hslead : BeginsWithLead ⟨"APP1-", []⟩ (Str.bytes "APP1-0W000-000") := by
    unfold BeginsWithLead
    decide
  have htlead : BeginsWithLead ⟨"APP1-", []⟩ (Str.bytes "app1-ow000000") := by
    unfold BeginsWithLead
    decide
  exact ((normalized_eq_iff _ _ _ _ _ hslead htlead hs ht).mpr (by decide)).1

/-- A zero more at the end of the text of a single byte is accepted, whatever the form. -/
theorem trailing_zero_accepted : ∃ binary : List UInt8, ∀ sha256 form, ∃ s t : List UInt8,
      BeginsWithLead form s ∧ BeginsWithLead form t ∧
        decodeManual sha256 form s = .ok binary ∧ decodeManual sha256 form t = .ok binary ∧
        normalized s ≠ normalized t ∧
        (symbols form (encodeManual sha256 form binary)).length < (symbols form t).length := by
  refine ⟨[7], fun sha256 form => ?_⟩
  obtain ⟨ds, left, hsymbols, hbody, hds, hleft, hregroups⟩ := encodeManual_eq sha256 form [7]
  have hcount := length_of_regroups hregroups
  rw [length_singleton] at hcount
  have hlead : (Str.bytes form.lead).length ≤ (encodeManual sha256 form [7]).length := by
    simp [encodeManual]
  have hbody' : body form (encodeManual sha256 form [7] ++ [symbol 0]) =
      body form (encodeManual sha256 form [7]) ++ [symbol 0] := drop_append_of_le_length hlead
  have hsymbols' : symbols form (encodeManual sha256 form [7] ++ [symbol 0]) =
      (ds ++ [0]).map symbol := by
    rw [symbols, hbody', filter_append, map_append, ← hsymbols]
    rfl
  have hds' : ∀ d ∈ ds ++ [0], d < 2 ^ 5 := by
    intro d hd
    rcases mem_append.mp hd with hd | hd
    · exact hds d hd
    · rw [mem_singleton.mp hd]
      decide
  have hfirst : decodeManual sha256 form (encodeManual sha256 form [7]) = .ok [7] := by
    refine decodeManual_eq_ok.mpr ⟨hbody, by simp, by decide, crockfordDecode_eq_ok.mpr ?_⟩
    rw [hsymbols, length_map, maxBinaryInviteBytes, checksumBytes]
    exact ⟨by omega, ds, left, mapM_symbol hds, by omega, hregroups⟩
  have hsecond : decodeManual sha256 form (encodeManual sha256 form [7] ++ [symbol 0]) =
      .ok [7] := by
    refine decodeManual_eq_ok.mpr ⟨?_, by simp, by decide, crockfordDecode_eq_ok.mpr ?_⟩
    · rw [hbody']
      exact wellFormed_concat (by decide) (by decide) hbody
    · rw [hsymbols', length_map, length_append, length_singleton,
        maxBinaryInviteBytes, checksumBytes]
      exact ⟨by omega, ds ++ [0], left + 5, mapM_symbol hds', by omega,
        regroups_concat_zero hregroups⟩
  have hbegins : BeginsWithLead form (encodeManual sha256 form [7]) := by
    rw [BeginsWithLead, encodeManual, take_left]
  have hbegins' : BeginsWithLead form (encodeManual sha256 form [7] ++ [symbol 0]) := by
    rw [BeginsWithLead, take_append_of_le_length hlead]
    exact hbegins
  refine ⟨_, _, hbegins, hbegins', hfirst, hsecond, fun h => ?_, ?_⟩
  · have hlength := congrArg List.length h
    rw [normalized_of_beginsWithLead hbegins, normalized_of_beginsWithLead hbegins', hsymbols,
      hsymbols'] at hlength
    simp at hlength
  · rw [hsymbols, hsymbols', length_map, length_map, length_append]
    simp

end Ket.Invite
