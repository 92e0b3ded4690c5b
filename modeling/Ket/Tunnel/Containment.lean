import Ket.Tunnel.Bypass
import Mathlib.Data.Prod.Lex
import Mathlib.Order.Lex

/-!
# Networks inside networks (`ket-tunnel-protocol/src/bypass.rs`)

`IpPrefix::contains` is inclusion of the addresses, and prefixes are ordered as the keys of a
`BTreeMap`.
-/

namespace Ket.Tunnel

open IpAddr

namespace IpPrefix

/-- `IpPrefix::contains`. -/
def contains (p q : IpPrefix) : Bool :=
  decide (p.address.family = q.address.family) && decide (p.length ≤ q.length) &&
    decide (q.address.mask p.length = p.address)

/-- The address is in the network. -/
def Holds (p : IpPrefix) (a : IpAddr) : Prop :=
  a.family = p.address.family ∧ a.mask p.length = p.address

end IpPrefix

/-! ### The bits of a network -/

lemma IpAddr.getLsbD_netmask {w length i : ℕ} :
    (netmask w length).getLsbD i = (decide (i < w) && decide (w - length ≤ i)) := by
  rw [netmask, BitVec.getLsbD_shiftLeft, BitVec.getLsbD_allOnes]
  by_cases hi : i < w <;> by_cases hle : w - length ≤ i
  · have : i - (w - length) < w := by omega
    simp [hi, hle, this]
  · simp [hi, hle, Nat.lt_of_not_le hle]
  · simp [hi]
  · simp [hi]

/-- A shorter mask clears all that a longer one does. -/
lemma IpAddr.mask_mask_of_le (a : IpAddr) {m n : ℕ} (h : m ≤ n) : (a.mask n).mask m = a.mask m := by
  have hmask : netmask a.family.fullLength n &&& netmask _ m = netmask _ m := by
    apply BitVec.eq_of_getLsbD_eq
    intro i hi
    rw [BitVec.getLsbD_and, getLsbD_netmask, getLsbD_netmask]
    by_cases hle : a.family.fullLength - m ≤ i
    · have : a.family.fullLength - n ≤ i := by omega
      simp [hi, hle, this]
    · simp [hle]
  have hbits : a.bits &&& netmask _ n &&& netmask _ m = a.bits &&& netmask _ m := by
    rw [BitVec.and_assoc, hmask]
  exact congrArg (IpAddr.mk a.family) hbits

/-- The address with one bit changed. -/
def IpAddr.flip (a : IpAddr) (i : ℕ) : IpAddr := ⟨a.family, a.bits ^^^ BitVec.twoPow _ i⟩

lemma IpAddr.mask_flip (a : IpAddr) {i length : ℕ} (h : i < a.family.fullLength - length) :
    (a.flip i).mask length = a.mask length := by
  have hbits : (a.bits ^^^ BitVec.twoPow _ i) &&& netmask _ length = a.bits &&& netmask _ length := by
    apply BitVec.eq_of_getLsbD_eq
    intro j hj
    rw [BitVec.getLsbD_and, BitVec.getLsbD_and, BitVec.getLsbD_xor, BitVec.getLsbD_twoPow,
      getLsbD_netmask]
    by_cases hij : i = j
    · simp [show ¬ a.family.fullLength - length ≤ j by omega]
    · simp [hij]
  exact congrArg (IpAddr.mk a.family) hbits

lemma IpAddr.mask_flip_ne (a : IpAddr) {i length : ℕ} (hi : i < a.family.fullLength)
    (h : a.family.fullLength - length ≤ i) : (a.flip i).mask length ≠ a.mask length := by
  intro heq
  have hbits : (a.bits ^^^ BitVec.twoPow _ i) &&& netmask _ length = a.bits &&& netmask _ length :=
    eq_of_heq (IpAddr.mk.inj heq).2
  have hbit := congrArg (fun x => x.getLsbD i) hbits
  simp only [BitVec.getLsbD_and, BitVec.getLsbD_xor, BitVec.getLsbD_twoPow, getLsbD_netmask] at hbit
  simp [hi, h] at hbit

namespace IpPrefix

/-- A network contains another when it holds all of its addresses. -/
lemma contains_iff {p q : IpPrefix} : p.contains q = true ↔ ∀ a, q.Holds a → p.Holds a := by
  simp only [contains, Bool.and_eq_true, decide_eq_true_eq]
  constructor
  · rintro ⟨⟨hfamily, hlength⟩, hmask⟩ a ⟨ha, hmasked⟩
    refine ⟨ha.trans hfamily.symm, ?_⟩
    rw [← mask_mask_of_le a hlength, hmasked, hmask]
  · intro h
    obtain ⟨hfamily, hmask⟩ := h q.address ⟨rfl, q.masked⟩
    refine ⟨⟨hfamily.symm, ?_⟩, hmask⟩
    -- otherwise some bit that `p` fixes is free in `q`
    by_contra hlt
    have hle := p.length_le
    rw [← hfamily] at hle
    have hfree : q.address.family.fullLength - p.length < q.address.family.fullLength - q.length := by
      omega
    have hflip : q.Holds (q.address.flip (q.address.family.fullLength - p.length)) :=
      ⟨rfl, (mask_flip _ hfree).trans q.masked⟩
    have hbit : q.address.family.fullLength - p.length < q.address.family.fullLength := by omega
    exact mask_flip_ne _ hbit le_rfl ((h _ hflip).2.trans hmask.symm)

lemma contains_of_common {p q : IpPrefix} {a : IpAddr} (hp : p.Holds a) (hq : q.Holds a)
    (h : p.length ≤ q.length) : p.contains q = true := by
  have hmask : q.address.mask p.length = p.address := by rw [← hq.2, mask_mask_of_le a h, hp.2]
  simp [contains, ← hp.1, ← hq.1, h, hmask]

/-- **Networks do not overlap in part.**  With an address in both, `contains` holds one way. -/
theorem common_iff_nested (p q : IpPrefix) :
    (∃ a, p.Holds a ∧ q.Holds a) ↔ p.contains q = true ∨ q.contains p = true := by
  constructor
  · rintro ⟨a, hp, hq⟩
    rcases le_total p.length q.length with h | h
    · exact .inl (contains_of_common hp hq h)
    · exact .inr (contains_of_common hq hp h)
  · rintro (h | h)
    · exact ⟨_, contains_iff.mp h _ ⟨rfl, q.masked⟩, rfl, q.masked⟩
    · exact ⟨_, ⟨rfl, p.masked⟩, contains_iff.mp h _ ⟨rfl, p.masked⟩⟩

/-! ### The order of prefixes -/

/-- `Ord`, as derived: the address (IPv4 first, then its octets), then the length. -/
def key (p : IpPrefix) : ℕ ×ₗ ℕ ×ₗ ℕ :=
  toLex (p.address.family.size, toLex (p.address.bits.toNat, p.length))

lemma key_injective : Function.Injective key := by
  rintro ⟨⟨f, bits⟩, length, hle, hmask⟩ ⟨⟨f', bits'⟩, length', hle', hmask'⟩ h
  have hpair := toLex.injective h
  have hfamily : f.size = f'.size := congrArg Prod.fst hpair
  have hrest := toLex.injective (congrArg Prod.snd hpair)
  have hbits : bits.toNat = bits'.toNat := congrArg Prod.fst hrest
  obtain rfl : length = length' := congrArg Prod.snd hrest
  have hsame : f = f' := by
    cases f <;> cases f' <;> first | rfl | cases hfamily
  subst hsame
  obtain rfl := BitVec.eq_of_toNat_eq hbits
  rfl

instance : LinearOrder IpPrefix := LinearOrder.lift' key key_injective

end IpPrefix

end Ket.Tunnel
