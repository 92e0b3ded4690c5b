import Mathlib.Data.List.Basic
import Mathlib.Tactic

/-!
# The most recent keys, with counts

A bounded list of entries, one for each key.  A record of a key that has an entry counts in it and
moves it to the end; a record of another key takes the place of the oldest entry when the list is
full.  Read with the newest record first, a history determines the list: its keys are the most
recent distinct ones (`kept`), and the count and the times of an entry are those of the records of
its key since it last entered the list (`episode`).
-/

namespace Ket.Lib.Recency

open List hiding beq_eq_decide

variable {κ τ : Type} [DecidableEq κ]

structure Entry (κ τ : Type) where
  key : κ
  count : ℕ
  first : τ
  last : τ
deriving DecidableEq, Repr

/-- Records the key, with the oldest entry first.  Counts stop at `maxCount`. -/
def record (capacity maxCount : ℕ) (entries : List (Entry κ τ)) (k : κ) (now : τ) :
    List (Entry κ τ) :=
  match entries.find? fun e => e.key = k with
  | some e =>
    (entries.eraseP fun e => e.key = k) ++
      [{ e with count := min (e.count + 1) maxCount, last := now }]
  | none => (if capacity ≤ entries.length then entries.tail else entries) ++ [⟨k, 1, now, now⟩]

/-- The list after a history, which has the newest record first. -/
def run (capacity maxCount : ℕ) : List (κ × τ) → List (Entry κ τ)
  | [] => []
  | r :: history => record capacity maxCount (run capacity maxCount history) r.1 r.2

/-! ### What a history keeps -/

/-- The distinct keys, the most recent first. -/
def distinct : List κ → List κ
  | [] => []
  | k :: ks => k :: (distinct ks).filter fun k' => k' ≠ k

def kept (capacity : ℕ) (ks : List κ) : List κ := (distinct ks).take capacity

/-- The times of the records of a key since it last entered the list, the newest first. -/
def episode (capacity : ℕ) (k : κ) : List (κ × τ) → List τ
  | [] => []
  | r :: history =>
    if r.1 = k then
      if k ∈ kept capacity (history.map Prod.fst) then r.2 :: episode capacity k history else [r.2]
    else episode capacity k history

section Distinct

variable {ks : List κ} {k : κ}

@[simp] lemma mem_distinct : k ∈ distinct ks ↔ k ∈ ks := by
  induction ks with
  | nil => rfl
  | cons a ks ih =>
    by_cases h : k = a <;> simp [distinct, h, ih]

lemma nodup_distinct (ks : List κ) : (distinct ks).Nodup := by
  induction ks with
  | nil => exact nodup_nil
  | cons a ks ih =>
    exact nodup_cons.mpr ⟨by simp, ih.filter _⟩

/-- A key before another was recorded after it. -/
lemma pairwise_distinct (ks : List κ) :
    (distinct ks).Pairwise fun k k' => ks.idxOf k < ks.idxOf k' := by
  induction ks with
  | nil => exact .nil
  | cons a ks ih =>
    refine pairwise_cons.mpr ⟨fun k hk => ?_, ?_⟩
    · have hne : a ≠ k := fun h => by simp [h] at hk
      rw [idxOf_cons_self, idxOf_cons_ne _ hne]
      exact Nat.succ_pos _
    · refine (ih.filter _).imp_of_mem fun {k k'} hk hk' hlt => ?_
      have hne : a ≠ k := fun h => by simp [h] at hk
      have hne' : a ≠ k' := fun h => by simp [h] at hk'
      rw [idxOf_cons_ne _ hne, idxOf_cons_ne _ hne']
      exact Nat.succ_lt_succ hlt

lemma nodup_kept (capacity : ℕ) (ks : List κ) : (kept capacity ks).Nodup :=
  (nodup_distinct ks).sublist (take_sublist _ _)

lemma length_kept_le (capacity : ℕ) (ks : List κ) : (kept capacity ks).length ≤ capacity :=
  length_take_le _ _

lemma mem_kept_cons {capacity : ℕ} (h : 0 < capacity) (k : κ) (ks : List κ) :
    k ∈ kept capacity (k :: ks) := by
  obtain ⟨c, rfl⟩ := Nat.exists_eq_add_one.mpr h
  rw [kept, distinct, take_succ_cons]
  exact mem_cons_self

lemma pairwise_kept (capacity : ℕ) (ks : List κ) :
    (kept capacity ks).Pairwise fun k k' => ks.idxOf k < ks.idxOf k' :=
  (pairwise_distinct ks).sublist (take_sublist _ _)

end Distinct

/-! ### Taking the first of a list without a key -/

section Take

variable {l : List κ} {k : κ} {n : ℕ}

lemma take_filter_of_notMem (h : k ∉ l.take n) : (l.filter fun k' => k' ≠ k).take n = l.take n := by
  induction l generalizing n with
  | nil => rfl
  | cons a l ih =>
    cases n with
    | zero => rfl
    | succ n =>
      rw [take_succ_cons, mem_cons, not_or] at h
      have hne : a ≠ k := fun heq => h.1 heq.symm
      rw [filter_cons_of_pos (by simpa using hne), take_succ_cons, take_succ_cons,
        ih h.2]

lemma take_filter_of_mem (hnodup : l.Nodup) (h : k ∈ l.take (n + 1)) :
    (l.filter fun k' => k' ≠ k).take n = (l.take (n + 1)).filter fun k' => k' ≠ k := by
  induction l generalizing n with
  | nil => simp
  | cons a l ih =>
    obtain ⟨ha, hnodup⟩ := nodup_cons.mp hnodup
    rw [take_succ_cons] at h ⊢
    by_cases heq : a = k
    · -- the key is here, and nowhere else
      subst heq
      have hall : ∀ l' : List κ, l' ⊆ l → l'.filter (fun k' => k' ≠ a) = l' := fun l' hl' =>
        filter_eq_self.mpr fun x hx => decide_eq_true fun hxa => ha (hxa ▸ hl' hx)
      rw [filter_cons_of_neg (by simp), filter_cons_of_neg (by simp),
        hall l (List.Subset.refl _), hall _ (take_subset n l)]
    · have hmem : k ∈ l.take n := (mem_cons.mp h).resolve_left fun hka => heq hka.symm
      cases n with
      | zero => simp at hmem
      | succ n =>
        rw [filter_cons_of_pos (by simpa using heq),
          filter_cons_of_pos (by simpa using heq), take_succ_cons, ih hnodup hmem]

end Take

/-! ### The list is what its history keeps -/

section Run

variable {capacity maxCount : ℕ} {entries : List (Entry κ τ)} {k : κ} {now : τ}

lemma map_key_eraseP (entries : List (Entry κ τ)) (k : κ) :
    (entries.eraseP fun e => e.key = k).map Entry.key = (entries.map Entry.key).erase k := by
  rw [erase_eq_eraseP', eraseP_map]
  rfl

/-- The keys after a record of a key that has an entry. -/
lemma keys_record_of_mem (h : k ∈ entries.map Entry.key) :
    (record capacity maxCount entries k now).map Entry.key =
      (entries.map Entry.key).erase k ++ [k] := by
  obtain ⟨e, he, rfl⟩ := mem_map.mp h
  obtain ⟨found, hfound⟩ := Option.isSome_iff_exists.mp
    (find?_isSome.mpr ⟨e, he, by simp⟩ : (entries.find? fun e' => e'.key = e.key).isSome)
  have hkey : found.key = e.key := by simpa using find?_some hfound
  rw [record, hfound]
  simp only [map_append, map_key_eraseP, map_cons, map_nil, hkey]

lemma find?_eq_none (h : k ∉ entries.map Entry.key) : (entries.find? fun e => e.key = k) = none :=
  List.find?_eq_none.mpr fun e he => by
    simp only [decide_eq_true_eq]
    rintro rfl
    exact h (mem_map_of_mem he)

/-- The keys after a record of another key. -/
lemma keys_record_of_notMem (h : k ∉ entries.map Entry.key) :
    (record capacity maxCount entries k now).map Entry.key =
      (if capacity ≤ entries.length then (entries.map Entry.key).tail else entries.map Entry.key)
        ++ [k] := by
  rw [record, find?_eq_none h]
  simp only [map_append, map_cons, map_nil]
  split <;> simp [map_tail]

/-- The keys of the list are those that the history keeps. -/
lemma keys_run (hcapacity : 0 < capacity) (history : List (κ × τ)) :
    ((run capacity maxCount history).map Entry.key).reverse =
      kept capacity (history.map Prod.fst) := by
  obtain ⟨c, rfl⟩ := Nat.exists_eq_add_one.mpr hcapacity
  induction history with
  | nil => rfl
  | cons r history ih =>
    have hnodup := nodup_distinct (history.map Prod.fst)
    have hkeys : ∀ k, k ∈ (run (c + 1) maxCount history).map Entry.key ↔
        k ∈ (distinct (history.map Prod.fst)).take (c + 1) := fun k => by
      rw [← mem_reverse, ih, kept]
    rw [run, map_cons, kept, distinct, take_succ_cons]
    by_cases hmem : r.1 ∈ (run (c + 1) maxCount history).map Entry.key
    · have hkept := (hkeys _).mp hmem
      have hnodup' : ((run (c + 1) maxCount history).map Entry.key).Nodup := by
        rw [← nodup_reverse, ih]
        exact nodup_kept _ _
      rw [keys_record_of_mem hmem, reverse_append, hnodup'.erase_eq_filter,
        ← filter_reverse, ih, kept, take_filter_of_mem hnodup hkept]
      exact congrArg (List.cons r.1) (filter_congr fun x _ => by simp [bne, beq_eq_decide])
    · have hkept := (hkeys _).not.mp hmem
      have htake : r.1 ∉ (distinct (history.map Prod.fst)).take c := fun h =>
        hkept (take_subset_take_left _ (Nat.le_succ c) h)
      rw [keys_record_of_notMem hmem, take_filter_of_notMem htake, reverse_append,
        reverse_singleton, singleton_append]
      refine congrArg (List.cons r.1) ?_
      have hlength : (run (c + 1) maxCount history).length =
          (kept (c + 1) (history.map Prod.fst)).length := by
        rw [← ih, length_reverse, length_map]
      rw [kept] at ih hlength
      split
      · -- the oldest entry goes
        rename_i hfull
        have hle := length_take_le (c + 1) (distinct (history.map Prod.fst))
        have hcount : min (((distinct (history.map Prod.fst)).take (c + 1)).length - 1) (c + 1) =
            c := by omega
        rw [← dropLast_reverse, ih, dropLast_eq_take, take_take, hcount]
      · rename_i hroom
        have hdistinct : (distinct (history.map Prod.fst)).length ≤ c := by
          rw [length_take] at hlength
          omega
        rw [ih, take_of_length_le hdistinct, take_of_length_le (by omega)]

lemma nodup_keys_run (hcapacity : 0 < capacity) (history : List (κ × τ)) :
    ((run capacity maxCount history).map Entry.key).Nodup := by
  rw [← nodup_reverse, keys_run hcapacity]
  exact nodup_kept _ _

/-- What an entry says of the times of its records, the newest first. -/
structure Describes (maxCount : ℕ) (e : Entry κ τ) (times : List τ) : Prop where
  count : e.count = min times.length maxCount
  first : times.getLast? = some e.first
  last : times.head? = some e.last

omit [DecidableEq κ] in
/-- Another record of the same episode. -/
lemma Describes.again {e : Entry κ τ} {times : List τ} (h : Describes maxCount e times) (now : τ) :
    Describes maxCount { e with count := min (e.count + 1) maxCount, last := now }
      (now :: times) where
  count := by
    show min (e.count + 1) maxCount = min (times.length + 1) maxCount
    rw [h.count]
    omega
  first := by
    have hne : times ≠ [] := by
      rintro rfl
      cases h.last
    rw [getLast?_cons_of_ne_nil hne, h.first]
  last := rfl

/-- Every entry counts the records of its key since it last entered the list. -/
lemma describes_run (hcapacity : 0 < capacity) (hcount : 0 < maxCount) (history : List (κ × τ)) :
    ∀ e ∈ run capacity maxCount history, Describes maxCount e (episode capacity e.key history) := by
  induction history with
  | nil => exact fun e he => absurd he not_mem_nil
  | cons r history ih =>
    have hkept : ∀ k, k ∈ (run capacity maxCount history).map Entry.key ↔
        k ∈ kept capacity (history.map Prod.fst) := fun k => by
      rw [← mem_reverse, keys_run hcapacity]
    have hother : ∀ e ∈ run capacity maxCount history, e.key ≠ r.1 →
        Describes maxCount e (episode capacity e.key (r :: history)) := fun e he hne => by
      rw [episode, if_neg fun heq => hne heq.symm]
      exact ih e he
    intro e he
    rw [run, record] at he
    split at he
    · -- the key has an entry, which counts once more
      rename_i found hfound
      have hkey : found.key = r.1 := by simpa using find?_some hfound
      have hmem := mem_of_find?_eq_some hfound
      rcases mem_append.mp he with he | he
      · have herase : e.key ∈ ((run capacity maxCount history).map Entry.key).erase r.1 := by
          rw [← map_key_eraseP]
          exact mem_map_of_mem he
        exact hother e (mem_of_mem_eraseP he)
          ((nodup_keys_run hcapacity history).mem_erase_iff.mp herase).1
      · obtain rfl := mem_singleton.mp he
        have hin := (hkept r.1).mp (hkey ▸ mem_map_of_mem hmem)
        show Describes maxCount _ (episode capacity found.key (r :: history))
        rw [episode, if_pos hkey.symm, hkey, if_pos hin, ← hkey]
        exact (ih found hmem).again r.2
    · rename_i hnone
      have hout : ∀ e ∈ run capacity maxCount history, e.key ≠ r.1 := fun e he hkey => by
        simpa [hkey] using List.find?_eq_none.mp hnone e he
      rcases mem_append.mp he with he | he
      · have hold : e ∈ run capacity maxCount history := by
          split at he
          · exact mem_of_mem_tail he
          · exact he
        exact hother e hold (hout e hold)
      · obtain rfl := mem_singleton.mp he
        have hnotin : r.1 ∉ kept capacity (history.map Prod.fst) := fun hin => by
          obtain ⟨e, he, hkey⟩ := mem_map.mp ((hkept r.1).mpr hin)
          exact hout e he hkey
        show Describes maxCount _ (episode capacity r.1 (r :: history))
        rw [episode, if_pos rfl, if_neg hnotin]
        exact ⟨(Nat.min_eq_left hcount).symm, rfl, rfl⟩

/-- A key that is recorded again and again stays in the list. -/
lemma episode_replicate (hcapacity : 0 < capacity) (n : ℕ) (k : κ) (now : τ) :
    episode capacity k (List.replicate n (k, now)) = List.replicate n now := by
  induction n with
  | zero => rfl
  | succ n ih =>
    rw [replicate_succ, episode, if_pos rfl, replicate_succ]
    cases n with
    | zero =>
      rw [if_neg (by simp [kept, distinct])]
      rfl
    | succ n =>
      have hkept : k ∈ kept capacity ((List.replicate (n + 1) (k, now)).map Prod.fst) := by
        rw [replicate_succ, map_cons]
        exact mem_kept_cons hcapacity k _
      rw [if_pos hkept, ih]

end Run

end Ket.Lib.Recency
