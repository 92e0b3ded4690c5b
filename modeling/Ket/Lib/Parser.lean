import Ket.Lib.Check
import Mathlib.Data.List.Basic

/-!
# Byte parsers and their encodings

A parser takes values from the front of a byte string, or stops with an error.  `Reads p bs a`
says that `bs` is an encoding of `a` for `p`: in front of any rest, `p` takes exactly `bs` and
returns `a`.  Encodings compose as parsers do (`Reads.bind`), so that the round trip of a
record is put together from those of its fields.

`Takes p encode` is the converse: whatever `p` accepts is what `encode` writes for the value it
returns, in front of what `p` leaves.  A parser with both properties accepts one byte string for
each value.

The second part is the big-endian form of a number in a fixed width.
-/

namespace Ket.Lib

open List

/-- A parser of byte strings. -/
abbrev Parser (ε α : Type) : Type := StateT (List UInt8) (Except ε) α

namespace Parser

variable {ε α β : Type}

/-- The encoding `bs` stands for `a`: the parser takes it off any input it starts. -/
def Reads (p : Parser ε α) (bs : List UInt8) (a : α) : Prop :=
  ∀ rest, p.run (bs ++ rest) = .ok (a, rest)

lemma Reads.pure (a : α) : Reads (Pure.pure a : Parser ε α) [] a := fun _ => rfl

variable {bs input rest : List UInt8}

variable {p : Parser ε α} {f : α → Parser ε β} {a : α}

lemma Reads.bind {bs' : List UInt8} {b : β}
    (hp : Reads p bs a) (hf : Reads (f a) bs' b) : Reads (p >>= f) (bs ++ bs') b := by
  intro rest
  rw [StateT.run_bind, append_assoc, hp (bs' ++ rest)]
  exact hf rest

/-- A step that takes no input comes before the encoding. -/
lemma Reads.bind_nil {b : β} (hp : Reads p [] a) (hf : Reads (f a) bs b) : Reads (p >>= f) bs b :=
  hp.bind hf

/-- A last step that takes no input comes after the encoding. -/
lemma Reads.bind_pure {b : β} (hp : Reads p bs a)
    (hf : Reads (f a) [] b) : Reads (p >>= f) bs b := by
  have h := hp.bind hf
  rwa [append_nil] at h

/-- A computation that does not look at the input. -/
def lift (x : Except ε α) : Parser ε α := fun input => x.map fun a => (a, input)

variable {x : Except ε α}

lemma Reads.lift (h : x = .ok a) : Reads (lift x) [] a := by
  intro rest
  subst h
  rfl

/-- Runs `p` as often as `n` says and collects what it reads. -/
def times (p : Parser ε α) : ℕ → Parser ε (List α)
  | 0 => Pure.pure []
  | n + 1 => do
      let a ← p
      let as ← times p n
      Pure.pure (a :: as)

variable {encode : α → List UInt8}

/-- The encodings of the members of a list, in order, are read one by one. -/
lemma Reads.times {as : List α}
    (h : ∀ a ∈ as, Reads p (encode a) a) : Reads (times p as.length) (as.flatMap encode) as := by
  induction as with
  | nil => exact Reads.pure []
  | cons a as ih =>
    have ha := h a mem_cons_self
    have has := ih fun b hb => h b (mem_cons_of_mem _ hb)
    exact ha.bind (has.bind_pure (Reads.pure _))

/-- A whole input: `p` takes all of it. -/
def whole (p : Parser ε α) (trailing : ε) (input : List UInt8) : Except ε α := do
  let (a, rest) ← p.run input
  require rest.isEmpty trailing
  return a

lemma Reads.whole (h : Reads p bs a) (e : ε) : whole p e bs = .ok a := by
  have hrun := h []
  rw [append_nil] at hrun
  rw [Parser.whole, hrun]
  rfl

/-! ### What a parser accepts -/

/-- The parser takes nothing but the encoding of the value it returns. -/
def Takes (p : Parser ε α) (encode : α → List UInt8) : Prop :=
  ∀ ⦃input a rest⦄, p.run input = .ok (a, rest) → input = encode a ++ rest

/-- A run of two parsers in turn comes apart at the input between them. -/
lemma run_bind_eq_ok {b : β} : (p >>= f).run input = .ok (b, rest) ↔
      ∃ a mid, p.run input = .ok (a, mid) ∧ (f a).run mid = .ok (b, rest) := by
  rw [StateT.run_bind, bind_eq_ok]
  exact ⟨fun ⟨(a, mid), hp, hf⟩ => ⟨a, mid, hp, hf⟩, fun ⟨a, mid, hp, hf⟩ => ⟨(a, mid), hp, hf⟩⟩

lemma run_pure_eq_ok {a b : α} :
    (Pure.pure a : Parser ε α).run input = .ok (b, rest) ↔ b = a ∧ rest = input := by
  constructor
  · intro h
    cases h
    exact ⟨rfl, rfl⟩
  · rintro ⟨rfl, rfl⟩
    rfl

lemma run_lift_eq_ok : (lift x).run input = .ok (a, rest) ↔ x = .ok a ∧ rest = input := by
  constructor
  · intro h
    cases x with
    | error e => cases h
    | ok b =>
      cases h
      exact ⟨rfl, rfl⟩
  · rintro ⟨rfl, rfl⟩
    rfl

lemma run_lift_bind_eq_ok {b : β} :
    (lift x >>= f).run input = .ok (b, rest) ↔ ∃ a, x = .ok a ∧ (f a).run input = .ok (b, rest) := by
  rw [run_bind_eq_ok]
  constructor
  · rintro ⟨a, mid, hlift, hf⟩
    obtain ⟨hx, rfl⟩ := run_lift_eq_ok.mp hlift
    exact ⟨a, hx, hf⟩
  · rintro ⟨a, hx, hf⟩
    exact ⟨a, input, run_lift_eq_ok.mpr ⟨hx, rfl⟩, hf⟩

/-- A parser run `n` times takes `n` encodings, one after the other. -/
lemma Takes.times (hp : Takes p encode) {n : ℕ}
    {as : List α} (h : (times p n).run input = .ok (as, rest)) :
    as.length = n ∧ input = as.flatMap encode ++ rest := by
  induction n generalizing input as with
  | zero =>
    obtain ⟨rfl, rfl⟩ := run_pure_eq_ok.mp h
    exact ⟨rfl, rfl⟩
  | succ n ih =>
    obtain ⟨a, mid, ha, h⟩ := run_bind_eq_ok.mp h
    obtain ⟨as', mid', has, h⟩ := run_bind_eq_ok.mp h
    obtain ⟨rfl, rfl⟩ := run_pure_eq_ok.mp h
    obtain ⟨hlength, rfl⟩ := ih has
    refine ⟨by rw [length_cons, hlength], ?_⟩
    rw [hp ha, flatMap_cons, append_assoc]

/-- A whole input that is accepted is the encoding of the value it stands for. -/
lemma Takes.whole (hp : Takes p encode) {e : ε}
    (h : whole p e input = .ok a) : input = encode a := by
  obtain ⟨⟨a', rest⟩, hrun, h⟩ := bind_eq_ok.mp h
  obtain ⟨hrest, h⟩ := require_bind_eq_ok.mp h
  cases h
  rw [hp hrun, List.isEmpty_iff.mp hrest, append_nil]

end Parser

/-! ### Big-endian numbers -/

/-- The low `width` bytes of a number, the highest first. -/
def toBigEndian : ℕ → ℕ → List UInt8
  | 0, _ => []
  | width + 1, n => toBigEndian width (n / 256) ++ [UInt8.ofNat n]

/-- The number that a byte string stands for, the highest byte first. -/
def ofBigEndian (bs : List UInt8) : ℕ := bs.foldl (fun n b => n * 256 + b.toNat) 0

@[simp] lemma length_toBigEndian (width n : ℕ) : (toBigEndian width n).length = width := by
  induction width generalizing n with
  | zero => rfl
  | succ width ih => simp [toBigEndian, ih]

lemma ofBigEndian_concat (bs : List UInt8) (b : UInt8) :
    ofBigEndian (bs ++ [b]) = ofBigEndian bs * 256 + b.toNat := by
  simp [ofBigEndian]

lemma ofBigEndian_toBigEndian {width n : ℕ} (h : n < 256 ^ width) :
    ofBigEndian (toBigEndian width n) = n := by
  induction width generalizing n with
  | zero =>
    have hn : n = 0 := by simpa using h
    rw [hn]
    rfl
  | succ width ih =>
    have hdiv : n / 256 < 256 ^ width := by
      rw [pow_succ, mul_comm] at h
      exact Nat.div_lt_of_lt_mul h
    rw [toBigEndian, ofBigEndian_concat, ih hdiv]
    have hbyte : (UInt8.ofNat n).toNat = n % 256 := by simp
    omega

lemma ofBigEndian_lt (bs : List UInt8) : ofBigEndian bs < 256 ^ bs.length := by
  induction bs using List.reverseRecOn with
  | nil => simp [ofBigEndian]
  | append_singleton bs b ih =>
    have hb := b.toNat_lt
    rw [ofBigEndian_concat, length_append, length_singleton, pow_succ]
    omega

lemma toBigEndian_ofBigEndian (bs : List UInt8) : toBigEndian bs.length (ofBigEndian bs) = bs := by
  induction bs using List.reverseRecOn with
  | nil => rfl
  | append_singleton bs b ih =>
    have hb := b.toNat_lt
    have hdiv : (ofBigEndian bs * 256 + b.toNat) / 256 = ofBigEndian bs := by omega
    have hlow : UInt8.ofNat (ofBigEndian bs * 256 + b.toNat) = b := by
      apply UInt8.toNat_inj.mp
      rw [UInt8.toNat_ofNat']
      omega
    rw [ofBigEndian_concat, length_append, length_singleton, toBigEndian, hdiv, hlow, ih]

/-- Numbers that fit the width have different bytes. -/
lemma toBigEndian_inj {width m n : ℕ} (hm : m < 256 ^ width) (hn : n < 256 ^ width)
    (h : toBigEndian width m = toBigEndian width n) : m = n := by
  rw [← ofBigEndian_toBigEndian hm, h, ofBigEndian_toBigEndian hn]

/-- A field after its length: the length tells where the field ends. -/
lemma prefixed_inj {width : ℕ} {a a' rest rest' : List UInt8} (ha : a.length < 256 ^ width)
    (ha' : a'.length < 256 ^ width)
    (h : toBigEndian width a.length ++ (a ++ rest) = toBigEndian width a'.length ++ (a' ++ rest')) :
    a = a' ∧ rest = rest' := by
  obtain ⟨hlength, hrest⟩ := append_inj h (by simp)
  exact append_inj hrest (toBigEndian_inj ha ha' hlength)

end Ket.Lib
