import Ket.Lib.Parser
import Ket.Lib.Str

/-!
# Deterministic CBOR (`invite-capsule/src/cbor.rs`)

Unsigned integers, byte and text strings, arrays and `null`, each in its shortest form.  The
decoder of the source holds the input and an offset into it; here it is a parser of the bytes
from the offset on.

For each encoder a lemma says that the decoder of the same kind reads what it writes
(`reads_uint`, `reads_bytes`, `reads_text`, ...), in the sense of `Parser.Reads`, and another one
that it reads nothing else (`takes_uint`, ...), in the sense of `Parser.Takes`.
-/

namespace Ket.Invite

open Ket.Lib Ket.Lib.Parser

/-- `CapsuleError`: why an invite is refused. -/
inductive CapsuleError where
  | invalid
  | tooLarge
  | unsupportedVersion
  | wrongApplication
  | unsupportedCapability
  | invalidSignature
  | expired
  | unsupportedLocator
  | unsafeLocator
  | invalidNodeKey
  | nodeIdentityMismatch
  | invalidChecksum
deriving DecidableEq, Repr

abbrev Decoder (α : Type) : Type := Parser CapsuleError α

/-- A checked condition inside a decoder. -/
def check (b : Bool) (e : CapsuleError) : Decoder Unit := Parser.lift (require b e)

variable {b : Bool} {e : CapsuleError} {input rest : List UInt8}

lemma reads_check (h : b = true) (e : CapsuleError) : Reads (check b e) [] () :=
  Reads.lift (require_eq_ok.mpr h)

lemma run_check_eq_ok {u : Unit} :
    (check b e).run input = .ok (u, rest) ↔ b = true ∧ rest = input := by
  rw [check, run_lift_eq_ok, require_eq_ok]

/-- A check in front of a decoder. -/
lemma run_check_bind_eq_ok {α : Type} {f : Unit → Decoder α} {a : α} :
    (check b e >>= f).run input = .ok (a, rest) ↔ b = true ∧ (f ()).run input = .ok (a, rest) := by
  rw [check, run_lift_bind_eq_ok]
  exact ⟨fun ⟨_, hb, h⟩ => ⟨require_eq_ok.mp hb, h⟩, fun ⟨hb, h⟩ => ⟨(), require_eq_ok.mpr hb, h⟩⟩

namespace Cbor

def majorUint : UInt8 := 0
def majorBytes : UInt8 := 2
def majorText : UInt8 := 3
def majorArray : UInt8 := 4
def null : UInt8 := 0xf6

/-! ### The decoder -/

def byte : Decoder UInt8 := fun input =>
  match input with
  | [] => .error .invalid
  | b :: rest => .ok (b, rest)

/-- Takes `length` bytes, which may be at most `max`. -/
def take (length max : ℕ) : Decoder (List UInt8) := fun input =>
  if max < length then .error .tooLarge
  else if input.length < length then .error .invalid
  else .ok (input.take length, input.drop length)

/-- A big-endian number of `n` bytes. -/
def fixed (n : ℕ) : Decoder ℕ := do
  let bs ← take n n
  return ofBigEndian bs

/-- An argument that was not in its shortest form is refused. -/
def atLeast (minimum value : ℕ) : Decoder ℕ := do
  check (decide (minimum ≤ value)) .invalid
  return value

def argument (additional : UInt8) : Decoder ℕ :=
  if additional ≤ 23 then pure additional.toNat
  else if additional = 24 then do
    let b ← byte
    atLeast 24 b.toNat
  else if additional = 25 then do
    let value ← fixed 2
    atLeast 0x100 value
  else if additional = 26 then do
    let value ← fixed 4
    atLeast 0x10000 value
  else if additional = 27 then do
    let value ← fixed 8
    atLeast 0x100000000 value
  else Parser.lift (.error .invalid)

/-- The first byte of an item of type `major`, and its argument.  `uint` and `length` of the
source both begin so; the conversion of a length to `usize` does not fail on 64-bit targets. -/
def length (major : UInt8) : Decoder ℕ := do
  let b ← byte
  check (decide (b >>> 5 = major)) .invalid
  argument (b &&& 0x1f)

def uint : Decoder UInt64 := do
  let value ← length majorUint
  return UInt64.ofNat value

/-- An unsigned integer or `null`. -/
def optionalUint : Decoder (Option UInt64) := fun input =>
  if input.head? = some null then .ok (none, input.tail)
  else (do
    let value ← uint
    return some value : Decoder (Option UInt64)).run input

def arrayLen : Decoder ℕ := length majorArray

/-- The head of an array of exactly `expected` items. -/
def array (expected : ℕ) : Decoder Unit := do
  let n ← arrayLen
  check (decide (n = expected)) .invalid

/-- A byte string of at most `max` bytes. -/
def bytes (max : ℕ) : Decoder (List UInt8) := do
  let n ← length majorBytes
  take n max

/-- `str::from_utf8`. -/
def fromUtf8 (bs : List UInt8) : Except CapsuleError String :=
  match String.fromUTF8? ⟨bs.toArray⟩ with
  | some s => .ok s
  | none => .error .invalid

/-- A UTF-8 text string of at most `max` bytes. -/
def text (max : ℕ) : Decoder String := do
  let n ← length majorText
  let bs ← take n max
  Parser.lift (fromUtf8 bs)

/-- `try_into` of a slice. -/
def tryInto (n : ℕ) (bs : List UInt8) : Except CapsuleError (Vector UInt8 n) :=
  if h : bs.length = n then .ok ⟨bs.toArray, by simpa using h⟩ else .error .invalid

/-- A byte string of exactly `n` bytes. -/
def exactBytes (n : ℕ) : Decoder (Vector UInt8 n) := do
  let bs ← bytes n
  Parser.lift (tryInto n bs)

/-! ### The encoder -/

def encodeHead (major : UInt8) (value : ℕ) : List UInt8 :=
  if value ≤ 23 then [major <<< 5 ||| UInt8.ofNat value]
  else if value ≤ 0xff then [major <<< 5 ||| 24, UInt8.ofNat value]
  else if value ≤ 0xffff then (major <<< 5 ||| 25) :: toBigEndian 2 value
  else if value ≤ 0xffffffff then (major <<< 5 ||| 26) :: toBigEndian 4 value
  else (major <<< 5 ||| 27) :: toBigEndian 8 value

def encodeArray (length : ℕ) : List UInt8 := encodeHead majorArray length

def encodeUint (value : UInt64) : List UInt8 := encodeHead majorUint value.toNat

def encodeOptionalUint : Option UInt64 → List UInt8
  | some value => encodeUint value
  | none => [null]

def encodeBytes (value : List UInt8) : List UInt8 := encodeHead majorBytes value.length ++ value

def encodeText (value : String) : List UInt8 :=
  encodeHead majorText (Str.bytes value).length ++ Str.bytes value

/-! ### What is written is read -/

lemma reads_byte (b : UInt8) : Reads byte [b] b := fun _ => rfl

variable {bs input rest : List UInt8} {max n value minimum : ℕ} {additional major : UInt8}
  {s : String}

lemma reads_take (h : bs.length ≤ max) : Reads (take bs.length max) bs bs := by
  intro rest
  have hmax : ¬ max < bs.length := by omega
  have hlen : ¬ (bs ++ rest).length < bs.length := by simp
  unfold StateT.run take
  rw [if_neg hmax, if_neg hlen, List.take_left, List.drop_left]

lemma reads_fixed (h : value < 256 ^ n) : Reads (fixed n) (toBigEndian n value) value := by
  have htake : Reads (take (toBigEndian n value).length n) _ _ := reads_take (by simp)
  rw [length_toBigEndian] at htake
  refine htake.bind_pure ?_
  rw [ofBigEndian_toBigEndian h]
  exact Reads.pure value

lemma reads_atLeast (h : minimum ≤ value) : Reads (atLeast minimum value) [] value :=
  (reads_check (decide_eq_true h) _).bind_nil (Reads.pure value)

/-- The additional information that announces an argument of `n` bytes, which is not the
shortest form below `minimum`. -/
lemma reads_argument_fixed (h : (additional = 25 ∧ n = 2 ∧ minimum = 0x100) ∨
      (additional = 26 ∧ n = 4 ∧ minimum = 0x10000) ∨
      (additional = 27 ∧ n = 8 ∧ minimum = 0x100000000)) (hmin : minimum ≤ value)
    (hmax : value < 256 ^ n) : Reads (argument additional) (toBigEndian n value) value := by
  rcases h with ⟨rfl, rfl, rfl⟩ | ⟨rfl, rfl, rfl⟩ | ⟨rfl, rfl, rfl⟩
  all_goals exact (reads_fixed hmax).bind_pure (reads_atLeast hmin)

/-- The first byte of an item gives back its type and its additional information. -/
lemma head_byte (hm : major < 8) (ha : additional < 32) :
    (major <<< 5 ||| additional) >>> 5 = major ∧ (major <<< 5 ||| additional) &&& 0x1f = additional := by
  have h : ∀ m : Fin 8, ∀ a : Fin 32,
      (UInt8.ofNat m <<< 5 ||| UInt8.ofNat a) >>> 5 = UInt8.ofNat m ∧
        (UInt8.ofNat m <<< 5 ||| UInt8.ofNat a) &&& 0x1f = UInt8.ofNat a := by decide
  have hmajor := h ⟨major.toNat, hm⟩ ⟨additional.toNat, ha⟩
  rwa [UInt8.ofNat_toNat, UInt8.ofNat_toNat] at hmajor

lemma reads_length_of_argument (hm : major < 8) (ha : additional < 32)
    (h : Reads (argument additional) bs value) :
    Reads (length major) ((major <<< 5 ||| additional) :: bs) value := by
  obtain ⟨hshift, hmask⟩ := head_byte hm ha
  refine (reads_byte _).bind ((reads_check (decide_eq_true hshift) _).bind_nil ?_)
  rw [hmask]
  exact h

/-- The head of an item is read back, at each of the five widths of its argument. -/
lemma reads_length (hm : major < 8) (h : value < 2 ^ 64) :
    Reads (length major) (encodeHead major value) value := by
  unfold encodeHead
  split_ifs with h23 hff hffff hffffffff
  · have hsmall : (UInt8.ofNat value).toNat = value := by
      rw [UInt8.toNat_ofNat']
      omega
    have hle : UInt8.ofNat value ≤ 23 := by
      rw [UInt8.le_iff_toNat_le, hsmall]
      exact h23
    have hlt : UInt8.ofNat value < 32 := by
      rw [UInt8.lt_iff_toNat_lt, hsmall]
      exact Nat.lt_of_le_of_lt h23 (by decide)
    refine reads_length_of_argument hm hlt ?_
    have harg : argument (UInt8.ofNat value) = pure value := by
      rw [argument, if_pos hle, hsmall]
    rw [harg]
    exact Reads.pure value
  · refine reads_length_of_argument hm (by decide) ?_
    have hbyte : (UInt8.ofNat value).toNat = value := by
      rw [UInt8.toNat_ofNat']
      omega
    refine (reads_byte (UInt8.ofNat value)).bind_pure ?_
    rw [hbyte]
    exact reads_atLeast (by omega)
  · exact reads_length_of_argument hm (by decide)
      (reads_argument_fixed (.inl ⟨rfl, rfl, rfl⟩) (by omega) (by omega))
  · exact reads_length_of_argument hm (by decide)
      (reads_argument_fixed (.inr (.inl ⟨rfl, rfl, rfl⟩)) (by omega) (by omega))
  · exact reads_length_of_argument hm (by decide)
      (reads_argument_fixed (.inr (.inr ⟨rfl, rfl, rfl⟩)) (by omega) (by omega))

lemma reads_uint (value : UInt64) : Reads uint (encodeUint value) value := by
  refine (reads_length (by decide) value.toNat_lt).bind_pure ?_
  rw [UInt64.ofNat_toNat]
  exact Reads.pure value

lemma reads_array (h : n < 2 ^ 64) : Reads (array n) (encodeArray n) () :=
  (reads_length (by decide) h).bind_pure (reads_check (decide_eq_true rfl) _)

lemma reads_bytes (h : bs.length ≤ max) (hmax : max < 2 ^ 64) :
    Reads (bytes max) (encodeBytes bs) bs :=
  (reads_length (by decide) (by omega)).bind (reads_take h)

lemma fromUtf8_bytes (s : String) : fromUtf8 (Str.bytes s) = .ok s := by
  have h : String.fromUTF8? ⟨(Str.bytes s).toArray⟩ = some s := by
    have hbytes : (⟨(Str.bytes s).toArray⟩ : ByteArray) = s.toUTF8 := by simp [Str.bytes]
    rw [hbytes, String.fromUTF8?, dif_pos (by simpa using s.isValidUTF8)]
    rfl
  rw [fromUtf8, h]

lemma reads_text (h : (Str.bytes s).length ≤ max) (hmax : max < 2 ^ 64) :
    Reads (text max) (encodeText s) s :=
  (reads_length (by decide) (by omega)).bind
    ((reads_take h).bind_pure (Reads.lift (fromUtf8_bytes s)))

lemma tryInto_toList (v : Vector UInt8 n) : tryInto n v.toList = .ok v := by
  have h : v.toList.length = n := by simp
  rw [tryInto, dif_pos h]
  simp [Vector.toList]

lemma reads_exactBytes (v : Vector UInt8 n) (hn : n < 2 ^ 64) :
    Reads (exactBytes n) (encodeBytes v.toList) v :=
  (reads_bytes (by simp) hn).bind_pure (Reads.lift (tryInto_toList v))

/-- No unsigned integer begins like `null`. -/
lemma head_encodeUint_ne_null (value : UInt64) (rest : List UInt8) :
    (encodeUint value ++ rest).head? ≠ some null := by
  intro hnull
  obtain ⟨tail, htail⟩ := List.head?_eq_some_iff.mp hnull
  -- the decoder reads the integer, but refuses what begins with `null`
  have hread := reads_uint value rest
  have hrefused : uint.run (null :: tail) = .error .invalid := rfl
  rw [htail, hrefused] at hread
  cases hread

lemma reads_optionalUint (value : Option UInt64) :
    Reads optionalUint (encodeOptionalUint value) value := by
  intro rest
  cases value with
  | none => rfl
  | some value =>
    have hsome : Reads (do return some (← uint) : Decoder (Option UInt64)) (encodeUint value)
        (some value) := (reads_uint value).bind_pure (Reads.pure _)
    exact (if_neg (head_encodeUint_ne_null value rest)).trans (hsome rest)

/-! ### What is read was written -/

lemma takes_byte : Takes byte fun b => [b] := by
  intro input b rest h
  cases input with
  | nil => cases h
  | cons c input =>
    cases h
    rfl

lemma of_take (h : (take n max).run input = .ok (bs, rest)) :
    input = bs ++ rest ∧ bs.length = n := by
  unfold StateT.run take at h
  split_ifs at h with hmax hshort
  cases h
  exact ⟨(List.take_append_drop n input).symm, List.length_take_of_le (Nat.le_of_not_lt hshort)⟩

lemma of_fixed (h : (fixed n).run input = .ok (value, rest)) :
    input = toBigEndian n value ++ rest ∧ value < 256 ^ n := by
  obtain ⟨bs, mid, htake, h⟩ := run_bind_eq_ok.mp h
  obtain ⟨rfl, rfl⟩ := run_pure_eq_ok.mp h
  obtain ⟨rfl, rfl⟩ := of_take htake
  exact ⟨by rw [toBigEndian_ofBigEndian], ofBigEndian_lt bs⟩

lemma of_atLeast {value' : ℕ} (h : (atLeast minimum value).run input = .ok (value', rest)) :
    minimum ≤ value ∧ value' = value ∧ rest = input := by
  obtain ⟨hmin, h⟩ := run_check_bind_eq_ok.mp h
  exact ⟨of_decide_eq_true hmin, run_pure_eq_ok.mp h⟩

/-- An argument of `n` bytes. -/
lemma of_fixed_atLeast (h : (do let value ← fixed n; atLeast minimum value : Decoder ℕ).run input =
      .ok (value, rest)) :
    input = toBigEndian n value ++ rest ∧ minimum ≤ value ∧ value < 256 ^ n := by
  obtain ⟨_, mid, hfixed, h⟩ := run_bind_eq_ok.mp h
  obtain ⟨hmin, rfl, rfl⟩ := of_atLeast h
  obtain ⟨hinput, hlt⟩ := of_fixed hfixed
  exact ⟨hinput, hmin, hlt⟩

/-- Only the shortest form of an argument is accepted, so that the head is the one the encoder
writes. -/
lemma encodeHead_of_argument (major : UInt8)
    (h : (argument additional).run input = .ok (value, rest)) :
    (major <<< 5 ||| additional) :: input = encodeHead major value ++ rest ∧ value < 2 ^ 64 := by
  unfold argument at h
  split_ifs at h with h23 h24 h25 h26 h27
  · obtain ⟨rfl, rfl⟩ := run_pure_eq_ok.mp h
    have hle : additional.toNat ≤ 23 := UInt8.le_iff_toNat_le.mp h23
    refine ⟨?_, by omega⟩
    rw [encodeHead, if_pos hle, UInt8.ofNat_toNat]
    rfl
  · obtain ⟨b, mid, hbyte, h⟩ := run_bind_eq_ok.mp h
    obtain ⟨hmin, rfl, rfl⟩ := of_atLeast h
    have hb := b.toNat_lt
    refine ⟨?_, by omega⟩
    rw [takes_byte hbyte, encodeHead, if_neg (by omega), if_pos (by omega), UInt8.ofNat_toNat, h24]
    rfl
  · obtain ⟨rfl, hmin, hlt⟩ := of_fixed_atLeast h
    refine ⟨?_, by omega⟩
    rw [encodeHead, if_neg (by omega), if_neg (by omega), if_pos (by omega), h25]
    rfl
  · obtain ⟨rfl, hmin, hlt⟩ := of_fixed_atLeast h
    refine ⟨?_, by omega⟩
    rw [encodeHead, if_neg (by omega), if_neg (by omega), if_neg (by omega), if_pos (by omega), h26]
    rfl
  · obtain ⟨rfl, hmin, hlt⟩ := of_fixed_atLeast h
    refine ⟨?_, by omega⟩
    rw [encodeHead, if_neg (by omega), if_neg (by omega), if_neg (by omega), if_neg (by omega), h27]
    rfl
  · cases (run_lift_eq_ok.mp h).1

/-- A byte is its upper three bits and its lower five. -/
lemma head_byte_eq (b : UInt8) : (b >>> 5) <<< 5 ||| b &&& 0x1f = b := by
  have h : ∀ n : Fin 256, (UInt8.ofNat n >>> 5) <<< 5 ||| UInt8.ofNat n &&& 0x1f = UInt8.ofNat n := by
    decide +kernel
  have hb := h ⟨b.toNat, b.toNat_lt⟩
  rwa [UInt8.ofNat_toNat] at hb

lemma of_length (h : (length major).run input = .ok (value, rest)) :
    input = encodeHead major value ++ rest ∧ value < 2 ^ 64 := by
  obtain ⟨b, mid, hbyte, h⟩ := run_bind_eq_ok.mp h
  obtain ⟨hmajor, h⟩ := run_check_bind_eq_ok.mp h
  have hhead := encodeHead_of_argument (b >>> 5) h
  rw [head_byte_eq, of_decide_eq_true hmajor] at hhead
  rw [takes_byte hbyte]
  exact hhead

lemma takes_uint : Takes uint encodeUint := by
  intro input value rest h
  obtain ⟨n, mid, hlength, h⟩ := run_bind_eq_ok.mp h
  obtain ⟨rfl, rfl⟩ := run_pure_eq_ok.mp h
  obtain ⟨hinput, hlt⟩ := of_length hlength
  rw [hinput, encodeUint, UInt64.toNat_ofNat_of_lt' hlt]

lemma takes_optionalUint : Takes optionalUint encodeOptionalUint := by
  intro input value rest h
  unfold StateT.run optionalUint at h
  split_ifs at h with hnull
  · obtain ⟨tail, rfl⟩ := List.head?_eq_some_iff.mp hnull
    cases h
    rfl
  · obtain ⟨n, mid, huint, h⟩ := run_bind_eq_ok.mp h
    obtain ⟨rfl, rfl⟩ := run_pure_eq_ok.mp h
    exact takes_uint huint

lemma takes_array (n : ℕ) : Takes (array n) fun _ => encodeArray n := by
  intro input u rest h
  obtain ⟨m, mid, hlength, h⟩ := run_bind_eq_ok.mp h
  obtain ⟨hm, rfl⟩ := run_check_eq_ok.mp h
  rw [(of_length hlength).1, of_decide_eq_true hm, encodeArray]

lemma takes_bytes (max : ℕ) : Takes (bytes max) encodeBytes := by
  intro input bs rest h
  obtain ⟨n, mid, hlength, h⟩ := run_bind_eq_ok.mp h
  obtain ⟨rfl, rfl⟩ := of_take h
  rw [(of_length hlength).1, encodeBytes, List.append_assoc]

lemma bytes_of_fromUtf8 (h : fromUtf8 bs = .ok s) : Str.bytes s = bs := by
  unfold fromUtf8 at h
  split at h
  · rename_i s' hs
    cases h
    unfold String.fromUTF8? at hs
    split_ifs at hs
    cases hs
    simp [Str.bytes, String.fromUTF8]
  · cases h

lemma takes_text (max : ℕ) : Takes (text max) encodeText := by
  intro input s rest h
  obtain ⟨n, mid, hlength, h⟩ := run_bind_eq_ok.mp h
  obtain ⟨bs, mid', htake, h⟩ := run_bind_eq_ok.mp h
  obtain ⟨hutf8, rfl⟩ := run_lift_eq_ok.mp h
  obtain ⟨rfl, rfl⟩ := of_take htake
  rw [(of_length hlength).1, encodeText, bytes_of_fromUtf8 hutf8, List.append_assoc]

lemma toList_of_tryInto {v : Vector UInt8 n} (h : tryInto n bs = .ok v) : v.toList = bs := by
  unfold tryInto at h
  split_ifs at h
  cases h
  rfl

lemma takes_exactBytes (n : ℕ) : Takes (exactBytes n) fun v => encodeBytes v.toList := by
  intro input v rest h
  obtain ⟨bs, mid, hbytes, h⟩ := run_bind_eq_ok.mp h
  obtain ⟨hinto, rfl⟩ := run_lift_eq_ok.mp h
  rw [takes_bytes n hbytes, ← toList_of_tryInto hinto]

end Cbor

end Ket.Invite
