import Mathlib.Data.List.Basic
import Mathlib.Data.List.Sort
import Mathlib.Data.String.Basic

/-!
# Ordered maps and sorted lists

A finite map is the list of its entries in the order of their keys.

`Least r k xs kept` says that the elements of `xs` that are kept are its `k` least ones by the strict
order `r`, or all of them where there are fewer.  Sorting and taking the first `k` gives them
(`Least.of_sorted`).
-/

namespace Ket.Lib

open List

structure OrderedMap (κ α : Type) [LinearOrder κ] where
  entries : List (κ × α)
  sorted : entries.Pairwise (·.1 < ·.1)

namespace OrderedMap

variable {κ α : Type} [LinearOrder κ]

@[ext]
lemma ext {m m' : OrderedMap κ α} (h : m.entries = m'.entries) : m = m' := by
  cases m
  cases m'
  cases h
  rfl

instance [DecidableEq α] : DecidableEq (OrderedMap κ α) := fun m m' =>
  decidable_of_iff (m.entries = m'.entries) ⟨ext, congrArg entries⟩

def empty : OrderedMap κ α := ⟨[], .nil⟩

instance : Inhabited (OrderedMap κ α) := ⟨empty⟩

variable (m : OrderedMap κ α)

def size : ℕ := m.entries.length

def get? (k : κ) : Option α := m.entries.lookup k

/-! ### Insertion -/

/-- An entry put in its place; one of the same key is replaced. -/
def insertInto (k : κ) (a : α) : List (κ × α) → List (κ × α)
  | [] => [(k, a)]
  | e :: entries =>
    if k < e.1 then (k, a) :: e :: entries
    else if k = e.1 then (k, a) :: entries
    else e :: insertInto k a entries

variable {k k' : κ} {a : α}

lemma mem_of_mem_insertInto {e : κ × α} {entries : List (κ × α)}
    (h : e ∈ insertInto k a entries) : e = (k, a) ∨ e ∈ entries := by
  induction entries with
  | nil => exact .inl (mem_singleton.mp h)
  | cons e' entries ih =>
    rw [insertInto] at h
    split_ifs at h
    · exact (mem_cons.mp h).imp_right id
    · exact (mem_cons.mp h).imp_right (mem_cons_of_mem _)
    · rcases mem_cons.mp h with rfl | h
      · exact .inr mem_cons_self
      · exact (ih h).imp_right (mem_cons_of_mem _)

lemma sorted_insertInto {entries : List (κ × α)} (h : entries.Pairwise (·.1 < ·.1)) :
    (insertInto k a entries).Pairwise (·.1 < ·.1) := by
  induction entries with
  | nil => exact pairwise_singleton _ _
  | cons e entries ih =>
    obtain ⟨hhead, htail⟩ := pairwise_cons.mp h
    rw [insertInto]
    split_ifs with hlt heq
    · refine pairwise_cons.mpr ⟨fun e' he' => ?_, h⟩
      rcases mem_cons.mp he' with rfl | he'
      · exact hlt
      · exact hlt.trans (hhead e' he')
    · exact pairwise_cons.mpr ⟨fun e' he' => heq ▸ hhead e' he', htail⟩
    · refine pairwise_cons.mpr ⟨fun e' he' => ?_, ih htail⟩
      rcases mem_of_mem_insertInto he' with rfl | he'
      · exact lt_of_le_of_ne (not_lt.mp hlt) (Ne.symm heq)
      · exact hhead e' he'

def insert (k : κ) (a : α) : OrderedMap κ α :=
  ⟨insertInto k a m.entries, sorted_insertInto m.sorted⟩

/-- A map with one entry less. -/
def erase (k : κ) : OrderedMap κ α :=
  ⟨m.entries.filter fun e => decide (e.1 ≠ k), m.sorted.filter _⟩

/-- A map with the entries of some keys only. -/
def retain (keep : κ → Bool) : OrderedMap κ α :=
  ⟨m.entries.filter fun e => keep e.1, m.sorted.filter _⟩

/-! ### What a map holds -/

@[simp] lemma get?_empty : (empty : OrderedMap κ α).get? k = none := rfl

lemma lookup_cons (e : κ × α) (entries : List (κ × α)) :
    (e :: entries).lookup k = if k = e.1 then some e.2 else entries.lookup k := by
  rw [List.lookup_cons]
  by_cases h : k = e.1
  · simp [h]
  · rw [beq_eq_false_iff_ne.mpr h, if_neg h]

lemma lookup_insertInto (entries : List (κ × α)) :
    (insertInto k a entries).lookup k' = if k' = k then some a else entries.lookup k' := by
  induction entries with
  | nil => exact lookup_cons _ _
  | cons e entries ih =>
    rw [insertInto]
    split
    · exact lookup_cons _ _
    · split
      · rename_i heq
        rw [lookup_cons, lookup_cons, ← heq]
        by_cases h : k' = k <;> simp [h]
      · rename_i hne
        rw [lookup_cons, lookup_cons, ih]
        by_cases h : k' = k
        · simp [h, hne]
        · simp [h]

lemma get?_insert :
    (m.insert k a).get? k' = if k' = k then some a else m.get? k' := lookup_insertInto m.entries

lemma get?_insert_self : (m.insert k a).get? k = some a := by
  rw [get?_insert, if_pos rfl]

lemma get?_insert_of_ne (h : k' ≠ k) : (m.insert k a).get? k' = m.get? k' := by
  rw [get?_insert, if_neg h]

lemma lookup_filter_keep (keep : κ → Bool) (entries : List (κ × α)) :
    (entries.filter fun e => keep e.1).lookup k =
      if keep k = true then entries.lookup k else none := by
  induction entries with
  | nil => simp
  | cons e entries ih =>
    by_cases he : keep e.1 = true
    · rw [filter_cons_of_pos (p := fun e : κ × α => keep e.1) he, lookup_cons, lookup_cons, ih]
      by_cases h : k = e.1
      · simp [h, he]
      · simp [h]
    · rw [filter_cons_of_neg (p := fun e : κ × α => keep e.1) he, ih, lookup_cons]
      by_cases h : k = e.1
      · simp [h, he]
      · simp [h]

lemma get?_erase : (m.erase k).get? k' = if k' = k then none else m.get? k' := by
  refine (lookup_filter_keep (fun k' => decide (k' ≠ k)) m.entries).trans ?_
  by_cases h : k' = k <;> simp [h, get?]

lemma get?_retain (keep : κ → Bool) :
    (m.retain keep).get? k = if keep k = true then m.get? k else none :=
  lookup_filter_keep keep m.entries

lemma mem_of_get? {m : OrderedMap κ α} (h : m.get? k = some a) : (k, a) ∈ m.entries := by
  obtain ⟨front, rest, hentries, -⟩ := lookup_eq_some_iff.mp h
  rw [hentries]
  exact mem_append_right _ mem_cons_self

lemma eq_empty {m : OrderedMap κ α} (h : ∀ k, m.get? k = none) : m = empty := by
  apply ext
  cases hentries : m.entries with
  | nil => rfl
  | cons e entries =>
    have hfirst := h e.1
    rw [get?, hentries, lookup_cons, if_pos rfl] at hfirst
    cases hfirst

lemma get?_of_get?_erase {m : OrderedMap κ α} (h : (m.erase k).get? k' = some a) :
    m.get? k' = some a := by
  rw [get?_erase] at h
  split_ifs at h
  exact h

end OrderedMap

/-! ### The least elements of a list -/

section Least

variable {α : Type*} {r : α → α → Prop} {k : ℕ} {xs ys : List α}

/-- The elements of `xs` for which `kept` holds are the `k` least ones. -/
structure Least (r : α → α → Prop) (k : ℕ) (xs : List α) (kept : α → Prop) [DecidablePred kept] :
    Prop where
  count : (xs.filter fun x => decide (kept x)).length = min k xs.length
  before : ∀ x ∈ xs, kept x → ∀ y ∈ xs, ¬kept y → r x y

lemma mem_drop_iff_of_nodup (hnodup : xs.Nodup) {x : α} (hx : x ∈ xs) :
    x ∈ xs.drop k ↔ x ∉ xs.take k := by
  rw [← take_append_drop k xs] at hnodup hx
  have hdisjoint := disjoint_of_nodup_append hnodup
  constructor
  · exact fun hdrop htake => hdisjoint htake hdrop
  · exact fun htake => (mem_append.mp hx).resolve_left htake

lemma filter_take_of_nodup [DecidableEq α] (hnodup : xs.Nodup) (k : ℕ) :
    xs.filter (fun x => decide (x ∈ xs.take k)) = xs.take k := by
  rw [← take_append_drop k xs] at hnodup
  have hdisjoint := disjoint_of_nodup_append hnodup
  conv_lhs => arg 2; rw [← take_append_drop k xs]
  rw [filter_append, filter_eq_self.mpr, filter_eq_nil_iff.mpr, append_nil]
  · exact fun x hx hmem => hdisjoint (of_decide_eq_true hmem) hx
  · exact fun x hx => decide_eq_true hx

/-- The first `k` of a sorted arrangement are the `k` least. -/
lemma Least.of_sorted [DecidableEq α] (hperm : ys.Perm xs) (hnodup : ys.Nodup) (hsorted : ys.Pairwise r)
    {kept : α → Prop} [DecidablePred kept] (hkept : ∀ x ∈ ys, kept x ↔ x ∈ ys.take k) :
    Least r k xs kept where
  count := by
    have hfilter : ys.filter (fun x => decide (kept x)) = ys.take k := by
      rw [← filter_take_of_nodup hnodup k]
      exact filter_congr fun x hx => decide_eq_decide.mpr (hkept x hx)
    rw [← (hperm.filter _).length_eq, hfilter, length_take, hperm.length_eq]
  before := by
    intro x hx hxkept y hy hykept
    rw [← hperm.mem_iff] at hx hy
    rw [hkept x hx] at hxkept
    rw [hkept y hy, ← mem_drop_iff_of_nodup hnodup hy] at hykept
    exact hsorted.rel_of_mem_take_of_mem_drop hxkept hykept

end Least

end Ket.Lib
