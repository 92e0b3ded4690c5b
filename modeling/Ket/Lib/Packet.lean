import Ket.Lib.Check
import Ket.Lib.Parser

/-!
# Reading a packet by positions

A reader goes over a packet with an offset of its own.  `get` gives up where the packet is too
short; `index` stops the program there.  `Needs f packet start a stop` says how much of the packet a
reader uses that goes on from `start`: with the packet cut at `stop` or later the result is `a`, and
with the packet cut before it the reader gives up.
-/

namespace Ket.Lib.Packet

open Ket.Lib List

variable {α β : Type} {packet bytes rest : List UInt8} {offset : ℕ}

/-- Why a reader stops early. -/
inductive Stop where
  /-- It gives up, as `?` does on `None`. -/
  | missing
  /-- An index past the end of a slice, a panic. -/
  | outOfBounds
deriving DecidableEq, Repr

/-- `packet.get(start..stop)?`. -/
def get (packet : List UInt8) (start stop : ℕ) : Except Stop (List UInt8) :=
  if start ≤ stop ∧ stop ≤ packet.length then .ok ((packet.take stop).drop start)
  else .error .missing

/-- `*packet.get(i)?`. -/
def byte (packet : List UInt8) (i : ℕ) : Except Stop UInt8 := okOr packet[i]? .missing

/-- `slice[i]`. -/
def index (slice : List UInt8) (i : ℕ) : Except Stop UInt8 := okOr slice[i]? .outOfBounds

/-- `&slice[start..]`. -/
def sliceFrom (slice : List UInt8) (start : ℕ) : Except Stop (List UInt8) :=
  if start ≤ slice.length then .ok (slice.drop start) else .error .outOfBounds

/-- `u16::from_be_bytes([slice[i], slice[i + 1]])`. -/
def u16At (slice : List UInt8) (i : ℕ) : Except Stop ℕ := do
  return ofBigEndian [← index slice i, ← index slice (i + 1)]

/-! ### No index is out of bounds -/

/-- The computation does not panic. -/
def Safe (x : Except Stop α) : Prop := x ≠ .error .outOfBounds

@[simp] lemma safe_ok (a : α) : Safe (.ok a : Except Stop α) := by simp [Safe]

@[simp] lemma safe_missing : Safe (.error .missing : Except Stop α) := by simp [Safe]

@[simp] lemma safe_get (start stop : ℕ) : Safe (get packet start stop) := by
  unfold get
  split <;> simp

@[simp] lemma safe_byte (i : ℕ) : Safe (byte packet i) := by
  unfold byte
  cases packet[i]? <;> simp

@[simp] lemma safe_require (b : Bool) : Safe (require b .missing : Except Stop Unit) := by
  cases b <;> simp

lemma Safe.bind {x : Except Stop α} {f : α → Except Stop β} (hx : Safe x)
    (hf : ∀ a, x = .ok a → Safe (f a)) : Safe (x >>= f) := by
  cases x with
  | error e =>
    intro h
    cases h
    exact hx rfl
  | ok a => exact hf a rfl

variable {start stop i : ℕ} {xs ys bs : List UInt8} {b : UInt8}

lemma length_of_get (h : get packet start stop = .ok bytes) : bytes.length = stop - start := by
  unfold get at h
  split at h
  · rename_i hle
    cases h
    rw [length_drop, length_take, Nat.min_eq_left hle.2]
  · cases h

lemma index_eq_ok (h : i < bytes.length) : index bytes i = .ok bytes[i] := by
  rw [index, getElem?_eq_getElem h, okOr_some]

lemma u16At_eq_ok (h : i + 1 < bytes.length) :
    u16At bytes i = .ok (ofBigEndian [bytes[i], bytes[i + 1]]) := by
  rw [u16At, index_eq_ok (Nat.lt_of_succ_lt h), index_eq_ok h]
  rfl

lemma safe_index (h : i < bytes.length) : Safe (index bytes i) := by
  rw [index_eq_ok h]
  exact safe_ok _

lemma safe_u16At (h : i + 1 < bytes.length) : Safe (u16At bytes i) := by
  rw [u16At_eq_ok h]
  exact safe_ok _

lemma u16At_toBigEndian {slice front : List UInt8} {n : ℕ}
    (hslice : slice = front ++ toBigEndian 2 n ++ rest) (hi : front.length = i) (h : n < 65536) :
    u16At slice i = .ok n := by
  obtain ⟨a, b, hab⟩ := length_eq_two.mp (length_toBigEndian 2 n)
  have hn : ofBigEndian [a, b] = n := by rw [← hab, ofBigEndian_toBigEndian (by simpa using h)]
  rw [hslice, ← hi, hab, u16At_eq_ok (by simp)]
  simp [hn]

/-! ### How much of a packet is read -/

/-- With the first `start` bytes there, the reader needs exactly the bytes up to `stop`. -/
structure Needs (f : List UInt8 → Except Stop α) (packet : List UInt8) (start : ℕ) (a : α)
    (stop : ℕ) : Prop where
  le : start ≤ stop
  cut : ∀ {cut}, start ≤ cut → f (packet.take cut) = if stop ≤ cut then .ok a else .error .missing

section Needs

variable {f : List UInt8 → Except Stop α} {g : α → List UInt8 → Except Stop β} {a : α} {b : β}
  {start stop stop' : ℕ}

lemma needs_done (h : ∀ p, f p = .ok a) : Needs f packet start a start :=
  ⟨le_rfl, fun hcut => by rw [h, if_pos hcut]⟩

lemma Needs.eq_ok (h : Needs f packet start a stop) : f packet = .ok a := by
  have hcut := h.cut (h.le.trans (le_max_left stop packet.length))
  rwa [if_pos (le_max_left _ _), take_of_length_le (le_max_right _ _)] at hcut

/-- One reader after another. -/
lemma Needs.bind (hf : Needs f packet start a stop) (hg : Needs (g a) packet stop b stop') :
    Needs (fun p => f p >>= fun a => g a p) packet start b stop' := by
  refine ⟨hf.le.trans hg.le, fun {cut} hcut => ?_⟩
  simp only [hf.cut hcut]
  by_cases hstop : stop ≤ cut
  · rw [if_pos hstop]
    exact hg.cut hstop
  · have hshort : ¬ stop' ≤ cut := fun hle => hstop (hg.le.trans hle)
    rw [if_neg hstop, if_neg hshort]
    rfl

lemma Needs.done (hf : Needs f packet start a stop) (hg : ∀ p, g a p = .ok b) :
    Needs (fun p => f p >>= fun a => g a p) packet start b stop :=
  hf.bind (needs_done hg)

end Needs

/-- `bytes` stands in the packet from `offset` on. -/
def At (packet : List UInt8) (offset : ℕ) (bytes : List UInt8) : Prop :=
  ∃ front rest, packet = front ++ bytes ++ rest ∧ front.length = offset

lemma at_zero : At (bytes ++ rest) 0 bytes := ⟨[], rest, rfl, rfl⟩

lemma At.left (h : At packet offset (xs ++ ys)) : At packet offset xs := by
  obtain ⟨front, rest, rfl, rfl⟩ := h
  exact ⟨front, ys ++ rest, by simp only [append_assoc], rfl⟩

lemma At.right (h : At packet offset (xs ++ ys)) : At packet (offset + xs.length) ys := by
  obtain ⟨front, rest, rfl, rfl⟩ := h
  exact ⟨front ++ xs, rest, by simp only [append_assoc], length_append⟩

lemma At.tail (h : At packet offset (b :: bs)) : At packet (offset + 1) bs := by
  have happend : At packet offset ([b] ++ bs) := h
  exact happend.right

lemma at_of_get (h : get packet start stop = .ok bytes) : At packet start bytes := by
  unfold get at h
  split at h
  · rename_i hle
    cases h
    refine ⟨packet.take start, packet.drop stop, ?_, ?_⟩
    · have hfront : packet.take start = (packet.take stop).take start := by
        rw [take_take, Nat.min_eq_left hle.1]
      rw [hfront, take_append_drop, take_append_drop]
    · rw [length_take, Nat.min_eq_left (hle.1.trans hle.2)]
  · cases h

/-- `get` of what stands there.  The reader may have skipped some bytes without looking at them. -/
lemma At.needs_get (h : At packet offset bytes) (hstart : start ≤ offset)
    (hstop : stop = offset + bytes.length) : Needs (get · offset stop) packet start bytes stop := by
  obtain ⟨front, rest, rfl, rfl⟩ := h
  subst hstop
  refine ⟨hstart.trans (Nat.le_add_right _ _), fun {cut} _ => ?_⟩
  simp only [get]
  by_cases hcut : front.length + bytes.length ≤ cut
  · have htake : (front ++ bytes ++ rest).take cut
        = front ++ bytes ++ rest.take (cut - (front.length + bytes.length)) := by
      rw [take_append, take_of_length_le (by simpa using hcut), length_append]
    rw [if_pos hcut, if_pos ⟨Nat.le_add_right _ _, by rw [htake]; simp⟩, htake]
    rw [take_append_of_le_length (by simp), take_of_length_le (by simp), drop_left]
  · rw [if_neg hcut, if_neg]
    rintro ⟨-, hlength⟩
    rw [length_take] at hlength
    omega

lemma At.needs_byte (h : At packet offset (b :: bs)) (hstart : start ≤ offset) :
    Needs (byte · offset) packet start b (offset + 1) := by
  obtain ⟨front, rest, rfl, rfl⟩ := h
  refine ⟨Nat.le_succ_of_le hstart, fun {cut} _ => ?_⟩
  simp only [byte, getElem?_take]
  by_cases hcut : front.length < cut
  · rw [if_pos hcut, if_pos (Nat.succ_le_of_lt hcut), append_assoc,
      getElem?_append_right le_rfl, Nat.sub_self]
    rfl
  · rw [if_neg hcut, if_neg (by omega)]
    rfl

end Ket.Lib.Packet
