import Ket.Android.BypassEntries
import Ket.Lib.Octets

/-!
# Routes around the bypass list (`KetVpnService.kt`)

Android versions without `excludeRoute` get routes for everything outside the tunnel's bypass list.
`visit` halves the addresses until a half is free of excluded prefixes or lies in one of them.  What
it returns for the addresses below a base is said by `Complement`.
-/

namespace Ket.Android

open Ket.Lib
open List hiding beq_eq_decide

structure RoutePrefix where
  address : List UInt8
  prefixLength : ℕ
deriving DecidableEq

variable (bytes : List UInt8)

/-- The bit that `visit` reads. -/
def bit (index : ℕ) : Bool :=
  (bytes.getD (index / 8) 0 >>> UInt8.ofNat (7 - index % 8)) &&& 1 == 1

/-- The bit of the upper half. -/
def setBit (index : ℕ) : List UInt8 :=
  bytes.modify (index / 8) fun b => b ||| ((0x80 : UInt8) >>> UInt8.ofNat (index % 8))

/-- `visit`, for at most so many levels below this one; there is no result where it goes deeper. -/
def visit (depth : ℕ) (base : List UInt8) (length : ℕ) (found : List BypassPrefix) :
    Option (List RoutePrefix) :=
  if found.any fun p => p.length ≤ length then some []
  else if found.isEmpty then some [⟨base, length⟩]
  else
    match depth with
    | 0 => none
    | depth + 1 => do
        let lower ← visit depth base (length + 1) (found.filter fun p => bit p.address length == false)
        let upper ← visit depth (setBit base length) (length + 1)
          (found.filter fun p => bit p.address length == true)
        return lower ++ upper

def routesExcludingPrefixes (depth : ℕ) (excluded : List BypassPrefix) :
    Except String (Option (List RoutePrefix)) := do
  let addressSize := (excluded.headD ⟨[], 0⟩).address.length
  require (!excluded.isEmpty) "At least one excluded prefix is required"
  require (excluded.all fun p => p.address.length == addressSize)
    "Excluded prefixes must use one IP family"
  return visit depth (List.replicate addressSize 0) 0 excluded.eraseDups

/-! ### Addresses by their bits -/

lemma bit_eq (index : ℕ) : bit bytes index = bitAt bytes index := by
  have hmod : index % 8 < 8 := Nat.mod_lt index (by decide)
  have hshift : (UInt8.ofNat (7 - index % 8)).toNat % 8 = 7 - index % 8 := by
    rw [UInt8.toNat_ofNat']
    omega
  rw [bit, bitAt, Nat.testBit_eq_decide_div_mod_eq, beq_eq_decide, ← Nat.shiftRight_eq_div_pow]
  congr 1
  rw [← UInt8.toNat_inj, UInt8.toNat_and, UInt8.toNat_shiftRight, hshift]
  exact congrArg (· = 1) (Nat.and_one_is_mod _)

lemma length_setBit (index : ℕ) : (setBit bytes index).length = bytes.length :=
  length_modify _ _ _

lemma bitAt_setBit {bytes : List UInt8} {index : ℕ} (h : index < 8 * bytes.length) (k : ℕ) :
    bitAt (setBit bytes index) k = (bitAt bytes k || decide (k = index)) := by
  have hall : ∀ i j : Fin 8, ((0x80 : UInt8) >>> UInt8.ofNat j.val).toNat.testBit (7 - i.val)
      = decide (i.val = j.val) := by decide
  rw [bitAt, bitAt, setBit, getD_eq_getElem?_getD, getElem?_modify]
  by_cases hbyte : index / 8 = k / 8
  · have hlt : k / 8 < bytes.length := by omega
    simp only [if_pos hbyte]
    rw [getElem?_eq_getElem hlt, getD_eq_getElem _ _ hlt]
    show (bytes[k / 8] ||| _).toNat.testBit _ = _
    rw [UInt8.toNat_or, Nat.testBit_or,
      hall ⟨k % 8, Nat.mod_lt _ (by decide)⟩ ⟨index % 8, Nat.mod_lt _ (by decide)⟩]
    congr 2
    refine propext ⟨fun heq => ?_, fun heq => by rw [heq]⟩
    have hmod : k % 8 = index % 8 := heq
    omega
  · have hne : k ≠ index := fun h => hbyte (by rw [h])
    simp only [if_neg hbyte]
    rw [decide_eq_false hne, Bool.or_false, getD_eq_getElem?_getD, id_map']

lemma bitAt_replicate (size k : ℕ) : bitAt (List.replicate size 0) k = false := by
  rw [bitAt, getD_eq_getElem?_getD, getElem?_replicate]
  split <;> exact Nat.zero_testBit _

/-- Two addresses have their first bits in common. -/
def Agree (n : ℕ) (a b : List UInt8) : Prop := ∀ i < n, bitAt a i = bitAt b i

section Agree

variable {m n : ℕ} {a b c : List UInt8}

lemma Agree.mono (h : Agree n a b) (hle : m ≤ n) : Agree m a b := fun i hi => h i (by omega)

lemma Agree.symm (h : Agree n a b) : Agree n b a := fun i hi => (h i hi).symm

lemma Agree.trans (h : Agree n a b) (h' : Agree n b c) : Agree n a c :=
  fun i hi => (h i hi).trans (h' i hi)

lemma agree_succ : Agree (n + 1) a b ↔ Agree n a b ∧ bitAt a n = bitAt b n := by
  refine ⟨fun h => ⟨h.mono (Nat.le_succ n), h n (Nat.lt_succ_self n)⟩, fun h i hi => ?_⟩
  rcases Nat.lt_succ_iff_lt_or_eq.mp hi with hlt | rfl
  · exact h.1 i hlt
  · exact h.2

end Agree

def BypassPrefix.Covers (p : BypassPrefix) (a : List UInt8) : Prop := Agree p.length a p.address

def RoutePrefix.Covers (r : RoutePrefix) (a : List UInt8) : Prop := Agree r.prefixLength a r.address

/-- The two halves of one prefix. -/
def RoutePrefix.Siblings (r s : RoutePrefix) : Prop :=
  ∃ n, r.prefixLength = n + 1 ∧ s.prefixLength = n + 1 ∧ Agree n r.address s.address ∧
    bitAt r.address n ≠ bitAt s.address n

/-- A prefix of an address of this size, without host bits. -/
structure BypassPrefix.Canonical (size : ℕ) (p : BypassPrefix) : Prop where
  bytes : p.address.length = size
  length : p.length ≤ size * 8
  masked : p = BypassPrefix.of p.address p.length

/-! ### The complement -/

/-- The routes are those of the addresses with the first bits of `base` that are in no prefix. -/
structure Complement (base : List UInt8) (n : ℕ) (found : List BypassPrefix)
    (routes : List RoutePrefix) : Prop where
  below : ∀ r ∈ routes, n ≤ r.prefixLength ∧ Agree n r.address base
  exact : ∀ a, Agree n a base → ((∃ r ∈ routes, r.Covers a) ↔ ¬ ∃ p ∈ found, p.Covers a)
  disjoint : routes.Pairwise fun r s => ¬ ∃ a, r.Covers a ∧ s.Covers a
  minimal : ∀ r ∈ routes, ∀ s ∈ routes, ¬ r.Siblings s
  whole : (∃ r ∈ routes, r.prefixLength = n) → found = []

lemma visit_nil (depth : ℕ) (base : List UInt8) (n : ℕ) : visit depth base n [] = some [⟨base, n⟩] := by
  cases depth <;> rfl

lemma visit_of_any {base : List UInt8} {n : ℕ} {found : List BypassPrefix}
    (h : (found.any fun p => decide (p.length ≤ n)) = true) (depth : ℕ) :
    visit depth base n found = some [] := by
  cases depth <;> rw [visit, if_pos h]

lemma Complement.nil (base : List UInt8) (n : ℕ) : Complement base n [] [⟨base, n⟩] where
  below r hr := by
    obtain rfl := mem_singleton.mp hr
    exact ⟨le_rfl, fun _ _ => rfl⟩
  exact a ha := by simpa [RoutePrefix.Covers] using ha
  disjoint := pairwise_singleton _ _
  minimal r hr s hs := by
    obtain rfl := mem_singleton.mp hr
    obtain rfl := mem_singleton.mp hs
    exact fun ⟨_, _, _, _, hne⟩ => hne rfl
  whole _ := rfl

section Cases

variable {base : List UInt8} {n : ℕ} {found : List BypassPrefix}

lemma Complement.covered (h : ∃ p ∈ found, p.length ≤ n ∧ Agree n p.address base) :
    Complement base n found [] where
  below := forall_mem_nil _
  exact a ha := by
    obtain ⟨p, hp, hle, hagree⟩ := h
    have hcovers : p.Covers a := (ha.trans hagree.symm).mono hle
    simpa using ⟨p, hp, hcovers⟩
  disjoint := .nil
  minimal := forall_mem_nil _
  whole h' := by simp at h'

/-- The prefixes of a half. -/
def half (found : List BypassPrefix) (n : ℕ) (b : Bool) : List BypassPrefix :=
  found.filter fun p => bit p.address n == b

lemma mem_half {p : BypassPrefix} {b : Bool} :
    p ∈ half found n b ↔ p ∈ found ∧ bitAt p.address n = b := by
  rw [half, List.mem_filter, bit_eq, beq_iff_eq]

variable {bases : Bool → List UInt8} {routes : Bool → List RoutePrefix}

/-- The complement in a base is that in its two halves. -/
lemma Complement.halves (hlong : ∀ p ∈ found, n < p.length) (hne : found ≠ [])
    (hbases : ∀ b, Agree n (bases b) base ∧ bitAt (bases b) n = b)
    (hroutes : ∀ b, Complement (bases b) (n + 1) (half found n b) (routes b)) :
    Complement base n found (routes false ++ routes true) := by
  have hmem : ∀ {r}, r ∈ routes false ++ routes true ↔ ∃ b, r ∈ routes b := by simp
  -- a route covers addresses of its own half only
  have hbit : ∀ {b r a}, r ∈ routes b → r.Covers a → bitAt a n = b := by
    intro b r a hr ha
    obtain ⟨hle, hagree⟩ := (hroutes b).below r hr
    exact (agree_succ.mp ((ha.mono hle).trans hagree)).2.trans (hbases b).2
  have hbelow : ∀ {b r}, r ∈ routes b → n + 1 ≤ r.prefixLength ∧ Agree n r.address base :=
    fun {b r} hr => ⟨((hroutes b).below r hr).1,
      (((hroutes b).below r hr).2.mono (Nat.le_succ n)).trans (hbases b).1⟩
  refine ⟨?_, fun a ha => ?_, ?_, ?_, ?_⟩
  · intro r hr
    obtain ⟨b, hr⟩ := hmem.mp hr
    exact ⟨by have := (hbelow hr).1; omega, (hbelow hr).2⟩
  · -- only the prefixes of its own half cover an address
    have hhalf := (hroutes (bitAt a n)).exact a
      (agree_succ.mpr ⟨ha.trans (hbases _).1.symm, (hbases _).2.symm⟩)
    have hcovered : (∃ r ∈ routes false ++ routes true, r.Covers a) ↔
        ∃ r ∈ routes (bitAt a n), r.Covers a := by
      refine ⟨?_, fun ⟨r, hr, ha⟩ => ⟨r, hmem.mpr ⟨_, hr⟩, ha⟩⟩
      rintro ⟨r, hr, ha⟩
      obtain ⟨b, hr⟩ := hmem.mp hr
      exact ⟨r, hbit hr ha ▸ hr, ha⟩
    have hfound : (∃ p ∈ found, p.Covers a) ↔ ∃ p ∈ half found n (bitAt a n), p.Covers a := by
      refine ⟨?_, fun ⟨p, hp, ha⟩ => ⟨p, (mem_half.mp hp).1, ha⟩⟩
      rintro ⟨p, hp, ha⟩
      exact ⟨p, mem_half.mpr ⟨hp, (ha n (hlong p hp)).symm⟩, ha⟩
    rw [hcovered, hhalf, hfound]
  · refine pairwise_append.mpr
      ⟨(hroutes false).disjoint, (hroutes true).disjoint, fun r hr s hs => ?_⟩
    rintro ⟨a, har, has⟩
    exact Bool.false_ne_true ((hbit hr har).symm.trans (hbit hs has))
  · intro r hr s hs hsiblings
    obtain ⟨b, hr⟩ := hmem.mp hr
    obtain ⟨b', hs⟩ := hmem.mp hs
    by_cases heq : b = b'
    · subst heq
      exact (hroutes b).minimal r hr s hs hsiblings
    -- siblings in different halves are the halves, and one of these is not free
    obtain ⟨m, hrm, hsm, hagree, -⟩ := hsiblings
    have hm : ¬ n < m := by
      intro hlt
      have hsame := hagree n hlt
      rw [((hroutes b).below r hr).2 n (Nat.lt_succ_self n), (hbases b).2,
        ((hroutes b').below s hs).2 n (Nat.lt_succ_self n), (hbases b').2] at hsame
      exact heq hsame
    have hle := (hbelow hr).1
    have hfree : ∀ c, half found n c = [] := by
      have hb := (hroutes b).whole ⟨r, hr, by omega⟩
      have hb' := (hroutes b').whole ⟨s, hs, by omega⟩
      intro c
      cases b <;> cases b' <;> cases c <;> first | exact hb | exact hb' | exact absurd rfl heq
    obtain ⟨p, hp⟩ := exists_mem_of_ne_nil found hne
    have hp' : p ∈ half found n (bitAt p.address n) := mem_half.mpr ⟨hp, rfl⟩
    rw [hfree] at hp'
    cases hp'
  · rintro ⟨r, hr, heq⟩
    obtain ⟨b, hr⟩ := hmem.mp hr
    have := (hbelow hr).1
    omega

/-- **What `visit` returns.**  It goes no deeper than there are bits left. -/
lemma exists_visit {size left : ℕ} (hleft : n + left = size * 8) (hsize : base.length = size)
    (hzero : ∀ i, n ≤ i → bitAt base i = false)
    (hfound : ∀ p ∈ found, p.length ≤ size * 8 ∧ Agree n p.address base) :
    ∃ routes, (∀ depth, left ≤ depth → visit depth base n found = some routes) ∧
      Complement base n found routes := by
  induction left generalizing n base found with
  | zero =>
    cases found with
    | nil => exact ⟨_, fun depth _ => visit_nil depth base n, .nil base n⟩
    | cons p found =>
      obtain ⟨hp, hagree⟩ := hfound p mem_cons_self
      have hle : p.length ≤ n := by omega
      exact ⟨[], fun depth _ => visit_of_any (by simp [hle]) depth,
        .covered ⟨p, mem_cons_self, hle, hagree⟩⟩
  | succ left ih =>
    by_cases hany : (found.any fun p => decide (p.length ≤ n)) = true
    · refine ⟨[], fun depth _ => visit_of_any hany depth, .covered ?_⟩
      obtain ⟨p, hp, hle⟩ := any_eq_true.mp hany
      exact ⟨p, hp, of_decide_eq_true hle, (hfound p hp).2⟩
    have hlong : ∀ p ∈ found, n < p.length := by simpa using hany
    by_cases hne : found = []
    · subst hne
      exact ⟨_, fun depth _ => visit_nil depth base n, .nil base n⟩
    have hn : n < 8 * base.length := by omega
    let bases : Bool → List UInt8 := fun b => if b then setBit base n else base
    have hbits : ∀ b i, bitAt (bases b) i = (bitAt base i || (b && decide (i = n))) := by
      intro b i
      cases b <;> simp [bases, bitAt_setBit hn]
    have hbases : ∀ b, Agree n (bases b) base ∧ bitAt (bases b) n = b := by
      refine fun b => ⟨fun i hi => ?_, ?_⟩
      · simp [hbits, Nat.ne_of_lt hi]
      · simp [hbits, hzero n le_rfl]
    have hlength : ∀ b, (bases b).length = size := by
      intro b
      cases b <;> simp [bases, length_setBit, hsize]
    have hhalves : ∀ b, ∃ routes, (∀ depth, left ≤ depth →
        visit depth (bases b) (n + 1) (half found n b) = some routes) ∧
        Complement (bases b) (n + 1) (half found n b) routes := by
      refine fun b => ih (by omega) (hlength b) (fun i hi => ?_) fun p hp => ?_
      · have hne : i ≠ n := by omega
        simp [hbits, hzero i (by omega), hne]
      · obtain ⟨hp, hbit⟩ := mem_half.mp hp
        exact ⟨(hfound p hp).1, agree_succ.mpr
          ⟨(hfound p hp).2.trans (hbases b).1.symm, hbit.trans (hbases b).2.symm⟩⟩
    choose routes hvisit hroutes using hhalves
    refine ⟨_, fun depth hdepth => ?_, .halves hlong hne hbases hroutes⟩
    obtain ⟨depth, rfl⟩ : ∃ d, depth = d + 1 := ⟨depth - 1, by omega⟩
    rw [visit, if_neg hany, if_neg (by simpa using hne)]
    exact congrArg₂ (fun x y : Option (List RoutePrefix) => do return (← x) ++ (← y))
      (hvisit false depth (by omega)) (hvisit true depth (by omega))

end Cases

/-- **The routes are the complement.**  They are disjoint, cover exactly the addresses outside the
excluded prefixes and contain no two halves of one prefix; and the recursion goes no deeper than an
address has bits. -/
theorem routes_exact_complement {size : ℕ} {excluded : List BypassPrefix} (hne : excluded ≠ [])
    (hcanonical : ∀ p ∈ excluded, p.Canonical size) : ∃ routes, (∀ depth, size * 8 ≤ depth →
        routesExcludingPrefixes depth excluded = .ok (some routes)) ∧
      (routes.Pairwise fun r s => ¬ ∃ a : List UInt8, a.length = size ∧ r.Covers a ∧ s.Covers a) ∧
      (∀ a : List UInt8, a.length = size →
        ((∃ r ∈ routes, r.Covers a) ↔ ¬ ∃ p ∈ excluded, p.Covers a)) ∧
      ∀ r ∈ routes, ∀ s ∈ routes, ¬ r.Siblings s := by
  obtain ⟨routes, hvisit, hcomplement⟩ :=
    @exists_visit (List.replicate size 0) 0 excluded.eraseDups size _ (Nat.zero_add _)
      length_replicate (fun i _ => bitAt_replicate size i) fun p hp =>
        ⟨(hcanonical p (mem_eraseDups.mp hp)).length, fun i hi => absurd hi i.not_lt_zero⟩
  refine ⟨routes, fun depth hdepth => ?_, ?_, fun a _ => ?_, hcomplement.minimal⟩
  · obtain ⟨p, rest, rfl⟩ := exists_cons_of_ne_nil hne
    have hp : p.address.length = size := (hcanonical p mem_cons_self).bytes
    have hall : ((p :: rest).all fun q => q.address.length == p.address.length) = true := by
      simp only [all_eq_true, beq_iff_eq]
      exact fun q hq => (hcanonical q hq).bytes.trans hp.symm
    simp only [routesExcludingPrefixes, headD_cons]
    rw [hall, hp, hvisit depth hdepth]
    rfl
  · refine hcomplement.disjoint.imp fun h => ?_
    rintro ⟨a, -, ha⟩
    exact h ⟨a, ha⟩
  · rw [hcomplement.exact a fun i hi => absurd hi i.not_lt_zero]
    simp only [mem_eraseDups]

theorem routes_exact_complement_two :
    let excluded := [BypassPrefix.of [10, 0, 0, 0] 8, BypassPrefix.of [10, 1, 0, 0] 16]
    ∃ routes, (∀ depth, 32 ≤ depth → routesExcludingPrefixes depth excluded = .ok (some routes)) ∧
      ∀ r ∈ routes, ∀ s ∈ routes, ¬ r.Siblings s := by
  have hcanonical : ∀ p ∈ [BypassPrefix.of [10, 0, 0, 0] 8, BypassPrefix.of [10, 1, 0, 0] 16],
      p.Canonical 4 := by
    intro p hp
    rcases mem_pair.mp hp with rfl | rfl <;> exact ⟨by decide, by decide, by decide⟩
  obtain ⟨routes, hroutes, -, -, hminimal⟩ := routes_exact_complement (by simp) hcanonical
  exact ⟨routes, hroutes, hminimal⟩

end Ket.Android
