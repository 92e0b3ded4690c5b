import Ket.Lib.OrderedMap
import Ket.Server.StateInvariant

/-!
# What a change of a grant does (`ket-server/src/grant_admin.rs`)

The loop of `apply` runs over the grant's sessions from the oldest on and counts the live ones that
stay; what it ends is therefore the tail of the live sessions in that order (`ending_false`).  From
this `apply_exact` reads off the whole effect of a change: on the grants, on the sessions of the
grant and on those of the others.

Sessions end by their ID, so the IDs must be distinct, as the check of a state demands.
-/

namespace Ket.Server.GrantAdmin

open Ket.Core Ket.Lib List

variable {s next : PersistedState} {id : String} {changes : UpdateAccessGrantRequest} {now : ℕ}
  {old : AccessGrantRecord} {ended : List SessionAllocation}

/-! ### The loop -/

variable {active maxConnections : ℕ} {expiresAt : Option ℕ} {y x : SessionRecord}

/-- What the loop ends has been in its list. -/
lemma exists_of_mem_ending {endAll : Bool} {xs : List SessionRecord} {i : String}
    (h : i ∈ ending endAll maxConnections now active xs) : ∃ x ∈ xs, x.id = i := by
  induction xs generalizing active with
  | nil => cases h
  | cons x xs ih =>
    simp only [ending] at h
    split at h
    · rcases mem_cons.mp h with rfl | h
      · exact ⟨x, mem_cons_self, rfl⟩
      · obtain ⟨y, hy, hid⟩ := ih h
        exact ⟨y, mem_cons_of_mem _ hy, hid⟩
    · obtain ⟨y, hy, hid⟩ := ih h
      exact ⟨y, mem_cons_of_mem _ hy, hid⟩

/-- Unless all are to end, the loop ends the live sessions behind the first `maxConnections`. -/
lemma ending_false (hactive : active ≤ maxConnections) (xs : List SessionRecord) :
    ending false maxConnections now active xs =
      ((xs.filter (SessionRecord.isLive now)).drop (maxConnections - active)).map
        SessionRecord.id := by
  induction xs generalizing active with
  | nil => simp [ending]
  | cons x xs ih =>
    by_cases hlive : x.isLive now = true
    · have hdecide : decide (now < x.expiresAt) = true := hlive
      rw [filter_cons_of_pos hlive]
      by_cases hfull : maxConnections ≤ active
      · -- the limit is reached, here and for the rest of the list
        have hnone : maxConnections - active = 0 := Nat.sub_eq_zero_of_le hfull
        have hrest := ih hactive
        rw [hnone, drop_zero] at hrest
        rw [hnone, drop_zero, map_cons, ← hrest]
        simp [ending, hdecide, hfull]
      · have hroom : maxConnections - active = maxConnections - (active + 1) + 1 := by omega
        rw [hroom, drop_succ_cons, ← ih (by omega)]
        simp [ending, hdecide, hfull]
    · have hdecide : decide (now < x.expiresAt) = false := by
        simpa [SessionRecord.isLive] using hlive
      rw [filter_cons_of_neg hlive, ← ih hactive]
      simp [ending, hdecide]

/-! ### The order of the sessions -/

/-- One session is before another: it was issued earlier, or at the same time under a lower ID. -/
def older (a b : SessionRecord) : Prop :=
  a.issuedAt < b.issuedAt ∨ (a.issuedAt = b.issuedAt ∧ a.id < b.id)

instance : Std.Total olderOrEqual where
  total a b := by
    unfold olderOrEqual
    rcases lt_trichotomy a.issuedAt b.issuedAt with h | h | h
    · exact .inl (.inl h)
    · rcases String.le_total a.id b.id with hid | hid
      · exact .inl (.inr ⟨h, hid⟩)
      · exact .inr (.inr ⟨h.symm, hid⟩)
    · exact .inr (.inl h)

instance : IsTrans SessionRecord olderOrEqual where
  trans a b c := by
    rintro (hab | ⟨hab, hid⟩) (hbc | ⟨hbc, hid'⟩)
    · exact .inl (hab.trans hbc)
    · exact .inl (hbc ▸ hab)
    · exact .inl (hab ▸ hbc)
    · exact .inr ⟨hab.trans hbc, String.le_trans hid hid'⟩

lemma older_of_olderOrEqual {a b : SessionRecord} (h : olderOrEqual a b) (hne : a.id ≠ b.id) :
    older a b := by
  rcases h with h | ⟨h, hid⟩
  · exact .inl h
  · refine .inr ⟨h, ?_⟩
    by_contra hlt
    exact hne (String.le_antisymm hid (String.not_lt.mp hlt))

/-- The grant's sessions, cut to its end, in the order of the loop. -/
def ordered (s : PersistedState) (id : String) (expiresAt : Option ℕ) : List SessionRecord :=
  ((s.sessions.map (cutLease id expiresAt)).filter fun x => x.grantId = id).insertionSort
    olderOrEqual

/-- Those of them that are live. -/
def live (s : PersistedState) (id : String) (expiresAt : Option ℕ) (now : ℕ) : List SessionRecord :=
  (ordered s id expiresAt).filter (SessionRecord.isLive now)

lemma mem_ordered :
    y ∈ ordered s id expiresAt ↔ y ∈ s.sessions.map (cutLease id expiresAt) ∧ y.grantId = id := by
  rw [ordered, mem_insertionSort, List.mem_filter, decide_eq_true_iff]

lemma mem_live : y ∈ live s id expiresAt now ↔
    (y ∈ s.sessions.map (cutLease id expiresAt) ∧ y.grantId = id) ∧ y.isLive now = true := by
  rw [live, List.mem_filter, mem_ordered]

section Distinct

variable (hids : (s.sessions.map SessionRecord.id).Nodup) (expiresAt : Option ℕ)
include hids

lemma nodup_cut : ((s.sessions.map (cutLease id expiresAt)).map SessionRecord.id).Nodup := by
  rw [map_map]
  have hid : SessionRecord.id ∘ cutLease id expiresAt = SessionRecord.id :=
    funext fun x => id_cutLease id expiresAt x
  rwa [hid]

/-- A session is determined by its ID. -/
lemma eq_of_id_eq_cut {x y : SessionRecord} (hx : x ∈ s.sessions.map (cutLease id expiresAt))
    (hy : y ∈ s.sessions.map (cutLease id expiresAt)) (h : x.id = y.id) : x = y :=
  inj_on_of_nodup_map (nodup_cut hids expiresAt) hx hy h

lemma pairwise_ordered : (ordered s id expiresAt).Pairwise older := by
  have hsorted : (ordered s id expiresAt).Pairwise olderOrEqual := pairwise_insertionSort _ _
  have hdistinct : (ordered s id expiresAt).Pairwise fun a b => a.id ≠ b.id := by
    have hperm := perm_insertionSort olderOrEqual
      ((s.sessions.map (cutLease id expiresAt)).filter fun x => x.grantId = id)
    have hcut : ((s.sessions.map (cutLease id expiresAt)).filter fun x => x.grantId = id).Pairwise
        fun a b => a.id ≠ b.id :=
      (pairwise_map.mp (nodup_cut hids expiresAt)).sublist filter_sublist
    exact hperm.symm.pairwise hcut fun hne => hne.symm
  exact (hsorted.and hdistinct).imp fun h => older_of_olderOrEqual h.1 h.2

lemma pairwise_live (now : ℕ) : (live s id expiresAt now).Pairwise older :=
  (pairwise_ordered hids expiresAt).sublist filter_sublist

lemma nodup_live (now : ℕ) : (live s id expiresAt now).Nodup := by
  refine (pairwise_live hids expiresAt now).imp ?_
  rintro a b (h | ⟨-, h⟩) rfl
  · exact lt_irrefl _ h
  · exact String.lt_irrefl _ h

end Distinct

/-! ### The sessions that end -/

/-- The change ends every session: the grant was paused, its protocols changed, or its allowance is
now used up. -/
def Ends (old new : AccessGrantRecord) (now : ℕ) : Prop :=
  (old.paused = false ∧ new.paused = true) ∨ new.protocols ≠ old.protocols ∨
    (new.usedUpUntil now).isSome = true

instance (old new : AccessGrantRecord) (now : ℕ) : Decidable (Ends old new now) :=
  inferInstanceAs (Decidable (_ ∨ _ ∨ _))

lemma endsAll_eq_true :
    endsAll old changes now = true ↔ Ends old (changeGrant old changes now) now := by
  have hpaused : (changes.paused.any fun paused => paused && !old.paused) = true ↔
      old.paused = false ∧ (changeGrant old changes now).paused = true := by
    cases hc : changes.paused with
    | none => simp [changeGrant, hc]
    | some paused => simp [changeGrant, hc, and_comm]
  have hprotocols : (changes.protocols.any fun protocols => decide (protocols ≠ old.protocols)) = true
      ↔ (changeGrant old changes now).protocols ≠ old.protocols := by
    cases hc : changes.protocols with
    | _ => simp [changeGrant, hc]
  rw [endsAll, Bool.or_eq_true, Bool.or_eq_true, hpaused, hprotocols, or_assoc]
  rfl

/-- The IDs of the sessions that the change ends. -/
def chosen (s : PersistedState) (id : String) (old : AccessGrantRecord)
    (changes : UpdateAccessGrantRequest) (now : ℕ) : List String :=
  let new := changeGrant old changes now
  ending (endsAll old changes now) new.maxConnections now 0 (ordered s id new.expiresAt)

lemma sessions_changed : (changed s old id changes now).sessions =
    (s.sessions.map (cutLease id (changeGrant old changes now).expiresAt)).filter
      fun x => decide (x.id ∉ chosen s id old changes now) := rfl

lemma mem_sessions_changed : y ∈ (changed s old id changes now).sessions ↔
    y ∈ s.sessions.map (cutLease id (changeGrant old changes now).expiresAt) ∧
      y.id ∉ chosen s id old changes now := by
  rw [sessions_changed, List.mem_filter, decide_eq_true_iff]

section Chosen

variable (hids : (s.sessions.map SessionRecord.id).Nodup)
include hids

/-- Only sessions of the grant end. -/
lemma grantId_of_chosen {y : SessionRecord}
    (hy : y ∈ s.sessions.map (cutLease id (changeGrant old changes now).expiresAt))
    (h : y.id ∈ chosen s id old changes now) : y.grantId = id := by
  obtain ⟨x, hx, hid⟩ := exists_of_mem_ending h
  obtain ⟨hx, hgrant⟩ := mem_ordered.mp hx
  rwa [eq_of_id_eq_cut hids _ hx hy hid] at hgrant

section

variable (hends : ¬Ends old (changeGrant old changes now) now)
include hends

/-- Where not all sessions end, those that do are the live ones behind the oldest. -/
lemma mem_chosen {y : SessionRecord}
    (hy : y ∈ s.sessions.map (cutLease id (changeGrant old changes now).expiresAt)) :
    y.id ∈ chosen s id old changes now ↔
      y ∈ (live s id (changeGrant old changes now).expiresAt now).drop
        (changeGrant old changes now).maxConnections := by
  have hall : endsAll old changes now = false := by
    rwa [← endsAll_eq_true, Bool.not_eq_true] at hends
  rw [chosen, hall, ending_false (Nat.zero_le _), Nat.sub_zero, mem_map]
  constructor
  · rintro ⟨x, hx, hid⟩
    have hmem := (mem_live.mp (mem_of_mem_drop hx)).1.1
    rwa [eq_of_id_eq_cut hids _ hmem hy hid] at hx
  · exact fun h => ⟨y, h, rfl⟩

/-- Among the live sessions of the grant, the oldest are kept. -/
lemma least_live : Least older (changeGrant old changes now).maxConnections
      (live s id (changeGrant old changes now).expiresAt now)
      (· ∈ (changed s old id changes now).sessions) := by
  refine Least.of_sorted (List.Perm.refl _) (nodup_live hids _ now) (pairwise_live hids _ now) ?_
  intro x hx
  have hcut := (mem_live.mp hx).1.1
  rw [mem_sessions_changed, mem_chosen hids hends hcut,
    mem_drop_iff_of_nodup (nodup_live hids _ now) hx, not_not]
  exact and_iff_right hcut

/-- A session whose lease has run out is not ended by a lower limit. -/
lemma mem_changed_of_not_isLive
    {y : SessionRecord} (hy : y ∈ s.sessions.map (cutLease id (changeGrant old changes now).expiresAt))
    (hlive : ¬y.isLive now = true) : y ∈ (changed s old id changes now).sessions := by
  refine mem_sessions_changed.mpr ⟨hy, fun hchosen => hlive ?_⟩
  exact (mem_live.mp (mem_of_mem_drop ((mem_chosen hids hends hy).mp hchosen))).2

end

/-- Where the grant has a session and room for one, not all of its sessions end. -/
lemma ends_of_forall_ne (hsome : ∃ x ∈ s.sessions, x.grantId = id)
    (hroom : 0 < (changeGrant old changes now).maxConnections)
    (hnone : ∀ y ∈ (changed s old id changes now).sessions, y.grantId ≠ id) :
    Ends old (changeGrant old changes now) now := by
  by_contra hends
  obtain ⟨x, hx, hgrant⟩ := hsome
  have hcut := mem_map_of_mem (f := cutLease id (changeGrant old changes now).expiresAt) hx
  have hgrant' : (cutLease id (changeGrant old changes now).expiresAt x).grantId = id := by
    rw [grantId_cutLease, hgrant]
  by_cases hlive : (cutLease id (changeGrant old changes now).expiresAt x).isLive now = true
  · -- one of the live ones is kept
    have hpos := length_pos_of_mem (mem_live.mpr ⟨⟨hcut, hgrant'⟩, hlive⟩)
    have hkept : 0 < ((live s id (changeGrant old changes now).expiresAt now).filter fun y =>
        decide (y ∈ (changed s old id changes now).sessions)).length := by
      rw [(least_live hids hends).count]
      exact lt_min hroom hpos
    obtain ⟨y, hy⟩ := exists_mem_of_length_pos hkept
    obtain ⟨hylive, hykept⟩ := List.mem_filter.mp hy
    exact hnone y (of_decide_eq_true hykept) (mem_live.mp hylive).1.2
  · exact hnone _ (mem_changed_of_not_isLive hids hends hcut hlive) hgrant'

end Chosen

/-! ### The change as a whole -/

/-- The first grant with the ID is replaced, and no other. -/
lemma replaceGrant_eq {grants : List AccessGrantRecord} (new : AccessGrantRecord)
    (h : grants.find? (fun g => g.id == id) = some old) :
    ∃ before after, grants = before ++ old :: after ∧
      replaceGrant id new grants = before ++ new :: after := by
  induction grants with
  | nil => cases h
  | cons g grants ih =>
    by_cases hid : g.id = id
    · rw [find?_cons_of_pos (by simpa using hid), Option.some.injEq] at h
      exact ⟨[], grants, by rw [h, nil_append], by simp [replaceGrant, hid]⟩
    · rw [find?_cons_of_neg (by simpa using hid)] at h
      obtain ⟨before, after, heq, hreplaced⟩ := ih h
      exact ⟨g :: before, after, by rw [heq, cons_append],
        by rw [replaceGrant, if_neg hid, hreplaced, cons_append]⟩

lemma cutLease_of_ne (h : x.grantId ≠ id) : cutLease id expiresAt x = x := if_neg h

lemma cutLease_of_eq (h : x.grantId = id) : cutLease id expiresAt x =
      { x with expiresAt := expiresAt.elim x.expiresAt (min x.expiresAt) } := if_pos h

/-- The sessions of the other grants stay as they are. -/
lemma others_changed (hids : (s.sessions.map SessionRecord.id).Nodup) :
    (changed s old id changes now).sessions.filter (fun x => decide (x.grantId ≠ id)) =
      s.sessions.filter fun x => decide (x.grantId ≠ id) := by
  set cut := cutLease id (changeGrant old changes now).expiresAt
  have hkept : (changed s old id changes now).sessions.filter (fun x => decide (x.grantId ≠ id)) =
      (s.sessions.map cut).filter fun x => decide (x.grantId ≠ id) := by
    rw [sessions_changed, filter_filter]
    refine filter_congr fun y hy => ?_
    by_cases hgrant : y.grantId = id
    · simp [hgrant]
    · have hout : y.id ∉ chosen s id old changes now := fun h =>
        hgrant (grantId_of_chosen hids hy h)
      simp [hgrant, hout]
  rw [hkept, filter_map]
  have hcomp : (fun x : SessionRecord => decide (x.grantId ≠ id)) ∘ cut =
      fun x => decide (x.grantId ≠ id) := by
    funext x
    simp only [Function.comp_apply, cut, grantId_cutLease]
  rw [hcomp]
  conv_rhs => rw [← map_id (s.sessions.filter fun x => decide (x.grantId ≠ id))]
  refine map_congr_left fun x hx => ?_
  exact cutLease_of_ne (of_decide_eq_true (List.mem_filter.mp hx).2)

/-- The sessions that are gone are those that were chosen. -/
lemma mem_chosen_iff_gone (hx : x ∈ s.sessions) : x.id ∈ chosen s id old changes now ↔
      x.id ∉ (changed s old id changes now).sessions.map SessionRecord.id := by
  constructor
  · rintro hchosen hmem
    obtain ⟨y, hy, hid⟩ := mem_map.mp hmem
    exact (mem_sessions_changed.mp hy).2 (hid ▸ hchosen)
  · intro hgone
    by_contra hout
    refine hgone (mem_map.mpr ⟨cutLease id (changeGrant old changes now).expiresAt x, ?_, ?_⟩)
    · exact mem_sessions_changed.mpr ⟨mem_map_of_mem hx, by rwa [id_cutLease]⟩
    · exact id_cutLease _ _ _

@[simp] lemma resourceSlot_cutLease (id : String) (expiresAt : Option ℕ) (x : SessionRecord) :
    (cutLease id expiresAt x).resourceSlot = x.resourceSlot := by
  unfold cutLease
  split <;> rfl

/-- The sessions that are chosen, as they were. -/
lemma map_chosen : ((s.sessions.map (cutLease id (changeGrant old changes now).expiresAt)).filter
        fun x => decide (x.id ∈ chosen s id old changes now)).map (fun x => (x.id, x.resourceSlot)) =
      (s.sessions.filter fun x => decide (x.id ∉
        (changed s old id changes now).sessions.map SessionRecord.id)).map
          fun x => (x.id, x.resourceSlot) := by
  rw [filter_map, map_map]
  have hfilter : s.sessions.filter ((fun x : SessionRecord => decide (x.id ∈
      chosen s id old changes now)) ∘ cutLease id (changeGrant old changes now).expiresAt) =
      s.sessions.filter fun x => decide (x.id ∉
        (changed s old id changes now).sessions.map SessionRecord.id) := by
    refine filter_congr fun x hx => ?_
    rw [Function.comp_apply, id_cutLease]
    exact decide_eq_decide.mpr (mem_chosen_iff_gone hx)
  rw [hfilter]
  refine map_congr_left fun x _ => ?_
  simp

/-- The change goes through when the sessions it ends have slots. -/
lemma exists_apply_eq_ok (hids : (s.sessions.map SessionRecord.id).Nodup)
    (hslots : ∀ x ∈ s.sessions, x.grantId = id → x.resourceSlot.isSome = true)
    (hfind : s.findGrant id = some old) :
    ∃ ended, apply s id changes now = .ok (changed s old id changes now, ended) ∧
      sessionAllocations ((s.sessions.map (cutLease id (changeGrant old changes now).expiresAt)).filter
        fun x => decide (x.id ∈ chosen s id old changes now)) = .ok ended := by
  obtain ⟨ended, hended⟩ : ∃ ended, sessionAllocations ((s.sessions.map
      (cutLease id (changeGrant old changes now).expiresAt)).filter
        fun x => decide (x.id ∈ chosen s id old changes now)) = .ok ended := by
    refine exists_sessionAllocations fun y hy => ?_
    obtain ⟨hy, hchosen⟩ := List.mem_filter.mp hy
    have hgrant := grantId_of_chosen hids hy (of_decide_eq_true hchosen)
    obtain ⟨x, hx, rfl⟩ := mem_map.mp hy
    rw [grantId_cutLease] at hgrant
    rw [resourceSlot_cutLease]
    exact Option.isSome_iff_exists.mp (hslots x hx hgrant)
  refine ⟨ended, ?_, hended⟩
  unfold apply
  rw [hfind]
  exact bind_eq_ok.mpr ⟨ended, hended, rfl⟩

/-- The change starts the count again: the period is another one, the allowance is taken away, or
the admin asks for it. -/
def Resets (old : AccessGrantRecord) (changes : UpdateAccessGrantRequest) : Prop :=
  (∃ new, changes.allowance = some (some new) ∧
      old.allowance.map DataAllowance.period ≠ some new.period) ∨
    (changes.allowance = some none ∧ old.allowance.isSome = true) ∨ changes.resetUsage = true

lemma usage_changeGrant (old : AccessGrantRecord) (changes : UpdateAccessGrantRequest) (now : ℕ) :
    (Resets old changes → (changeGrant old changes now).usage = none) ∧
      (¬Resets old changes → (changeGrant old changes now).usage = old.usage) := by
  -- what the code compares, for each kind of request
  have hperiod : (changes.allowance.any fun new =>
      decide (new.map DataAllowance.period ≠ old.allowance.map DataAllowance.period)) = true ↔
      (∃ new, changes.allowance = some (some new) ∧
        old.allowance.map DataAllowance.period ≠ some new.period) ∨
      (changes.allowance = some none ∧ old.allowance.isSome = true) := by
    cases hc : changes.allowance with
    | none => simp
    | some allowance =>
      cases allowance with
      | none => cases old.allowance <;> simp
      | some new => simp
  have hresets : ((changes.allowance.any fun new =>
      decide (new.map DataAllowance.period ≠ old.allowance.map DataAllowance.period)) ||
        changes.resetUsage) = true ↔ Resets old changes := by
    rw [Bool.or_eq_true, hperiod, or_assoc]
    rfl
  exact ⟨fun h => if_pos (hresets.mpr h), fun h => if_neg fun hcode => h (hresets.mp hcode)⟩

/-- What a change of the grant `old` with the ID `id` makes of a state. -/
structure Applied (s : PersistedState) (id : String) (changes : UpdateAccessGrantRequest) (now : ℕ)
    (old : AccessGrantRecord) (next : PersistedState) (ended : List SessionAllocation) : Prop where
  /-- Every other grant is as it was. -/
  grants : ∃ before after, s.grants = before ++ old :: after ∧
    next.grants = before ++ changeGrant old changes now :: after
  /-- So is every session of another grant. -/
  others : next.sessions.filter (fun x => decide (x.grantId ≠ id)) =
    s.sessions.filter fun x => decide (x.grantId ≠ id)
  /-- The sessions that are gone are returned with their slots. -/
  returned : ended.map (fun a => (a.id, some a.resourceSlot)) =
    (s.sessions.filter fun x => decide (x.id ∉ next.sessions.map SessionRecord.id)).map
      fun x => (x.id, x.resourceSlot)
  /-- The grant was paused, its protocols changed or its allowance is used up: none is left. -/
  all : Ends old (changeGrant old changes now) now → ∀ y ∈ next.sessions, y.grantId ≠ id
  /-- Nothing else ends all sessions of a grant that has any and room for one. -/
  only : (∃ x ∈ s.sessions, x.grantId = id) → 0 < (changeGrant old changes now).maxConnections →
    (∀ y ∈ next.sessions, y.grantId ≠ id) → Ends old (changeGrant old changes now) now
  /-- Otherwise the oldest of the live sessions stay. -/
  oldest : ¬Ends old (changeGrant old changes now) now →
    Least older (changeGrant old changes now).maxConnections
      (live s id (changeGrant old changes now).expiresAt now) (· ∈ next.sessions)
  /-- A session that is no longer live stays as well. -/
  lapsed : ¬Ends old (changeGrant old changes now) now →
    ∀ y ∈ ordered s id (changeGrant old changes now).expiresAt, ¬y.isLive now = true →
      y ∈ next.sessions
  /-- Each session that stays is cut to the new end of the grant. -/
  leases : ∀ y ∈ next.sessions, y.grantId = id → ∃ x ∈ s.sessions, y = { x with
    expiresAt := (changeGrant old changes now).expiresAt.elim x.expiresAt (min x.expiresAt) }
  /-- The count starts again exactly when it should. -/
  usage : (Resets old changes → (changeGrant old changes now).usage = none) ∧
    (¬Resets old changes → (changeGrant old changes now).usage = old.usage)

/-- **A change of a grant ends exactly the right sessions.**  In a state whose session IDs are
distinct and in which the grant's sessions have slots, a change of a known grant succeeds with the
effect that `Applied` describes, and a change of an unknown one is refused. -/
theorem apply_exact (hids : (s.sessions.map SessionRecord.id).Nodup)
    (hslots : ∀ x ∈ s.sessions, x.grantId = id → x.resourceSlot.isSome = true)
    (changes : UpdateAccessGrantRequest) (now : ℕ) :
    (s.findGrant id = none → apply s id changes now = .error .notFound) ∧
      ∀ old, s.findGrant id = some old → ∃ next ended,
        apply s id changes now = .ok (next, ended) ∧ Applied s id changes now old next ended := by
  refine ⟨fun hnone => ?_, fun old hfind => ?_⟩
  · unfold apply
    rw [hnone]
  · obtain ⟨ended, happly, hended⟩ := @exists_apply_eq_ok _ _ changes now _ hids hslots hfind
    refine ⟨changed s old id changes now, ended, happly, ?_⟩
    exact {
      grants := replaceGrant_eq _ hfind
      others := others_changed hids
      returned := (map_of_sessionAllocations hended).trans map_chosen
      all := fun hends y hy => grantId_ne_of_endsAll (endsAll_eq_true.mpr hends) hy
      only := ends_of_forall_ne hids
      oldest := least_live hids
      lapsed := fun hends y hy => mem_changed_of_not_isLive hids hends (mem_ordered.mp hy).1
      leases := by
        intro y hy hgrant
        obtain ⟨x, hx, rfl⟩ := mem_changed hy
        rw [grantId_cutLease] at hgrant
        exact ⟨x, hx, cutLease_of_eq hgrant⟩
      usage := usage_changeGrant old changes now }

/-- An invite for two devices is changed to one for one device, while both are connected. -/
theorem apply_exact_oneDevice : ∃ next ended,
    apply Sample.state "Grant00001" Sample.oneDevice 20 = .ok (next, ended) ∧
      Applied Sample.state "Grant00001" Sample.oneDevice 20 Sample.grant next ended :=
  (apply_exact (by decide) (by decide) _ 20).2 Sample.grant (by decide)

def Sample.pause : UpdateAccessGrantRequest := { UpdateAccessGrantRequest.unchanged with
  paused := some true }

/-- Two invites, with a session each under the same ID. -/
def Sample.sharedId : PersistedState where
  schemaVersion := currentStateSchemaVersion
  grants := [Sample.grant, { Sample.grant with id := "Grant00002" }]
  sessions := [Sample.session "Session00001" 0,
    { Sample.session "Session00001" 1 with grantId := "Grant00002" }]

/-- An invite with a session that has no slot. -/
def Sample.slotless : PersistedState := { Sample.state with
  sessions := [{ Sample.session "Session00001" 0 with resourceSlot := none }] }

/-- An invite without sessions. -/
def Sample.unused : PersistedState := { Sample.state with sessions := [] }

/-- Without distinct IDs a change ends a session of another grant; a session without a slot cannot
be returned; and a grant without sessions has none left after any change. -/
theorem apply_needs_distinct_ids :
    (∃ next ended, apply Sample.sharedId "Grant00001" Sample.pause 20 = .ok (next, ended) ∧
      next.sessions.filter (fun x => decide (x.grantId ≠ "Grant00001")) ≠
        Sample.sharedId.sessions.filter fun x => decide (x.grantId ≠ "Grant00001")) ∧
    apply Sample.slotless "Grant00001" Sample.pause 20
      = .error (.invalidState "an active session has no resource slot") ∧
    ∃ next ended, apply Sample.unused "Grant00001" UpdateAccessGrantRequest.unchanged 20
        = .ok (next, ended) ∧ (∀ y ∈ next.sessions, y.grantId ≠ "Grant00001") ∧
      ¬Ends Sample.grant (changeGrant Sample.grant UpdateAccessGrantRequest.unchanged 20) 20 := by
  refine ⟨⟨changed Sample.sharedId Sample.grant "Grant00001" Sample.pause 20,
    [⟨"Session00001", 0⟩, ⟨"Session00001", 1⟩], ?_⟩, ?_, ⟨Sample.unused, [], ?_⟩⟩
  all_goals decide

end Ket.Server.GrantAdmin
