import Ket.Server.Node

/-!
# What the check of a state means

`PersistedState.Valid` says in terms of the records what `PersistedState.validate` checks in its
loops (`validate_eq_ok`): IDs and slots are distinct, every grant is well formed, and every
session is well formed and belongs to a grant that it does not outlive.
-/

namespace Ket.Server

open Ket.Core Ket.Lib List

variable {C : Crypto}

/-! ### Grants -/

/-- The checks of one grant that do not look at the other grants. -/
def AccessGrantRecord.WellFormed (C : Crypto) (g : AccessGrantRecord) : Prop :=
  g.validate C [] = .ok ()

namespace AccessGrantRecord

lemma validate_eq_ok {seen : List String} {g : AccessGrantRecord} :
    g.validate C seen = .ok () ↔ g.WellFormed C ∧ g.id ∉ seen := by
  simp only [WellFormed, validate, require_bind_eq_ok, require_eq_ok, Bool.not_eq_true',
    contains_eq_mem, decide_eq_false_iff_not, not_mem_nil, not_false_eq_true, true_and]
  tauto

/-- A change of the running total under an allowance keeps a grant well formed. -/
lemma WellFormed.usage {g : AccessGrantRecord} {usage : Option PeriodUsage} (h : g.WellFormed C)
    (hnone : g.allowance = none → usage = g.usage) :
    AccessGrantRecord.WellFormed C { g with usage } := by
  simp only [WellFormed, validate, require_bind_eq_ok, require_eq_ok] at h ⊢
  refine ⟨h.1, h.2.1, h.2.2.1, h.2.2.2.1, h.2.2.2.2.1, h.2.2.2.2.2.1, h.2.2.2.2.2.2.1,
    h.2.2.2.2.2.2.2.1, ?_, h.2.2.2.2.2.2.2.2.2⟩
  have hcheck := h.2.2.2.2.2.2.2.2.1
  cases ha : g.allowance with
  | none =>
    rw [hnone ha]
    rwa [ha] at hcheck
  | some allowance => simp

end AccessGrantRecord

lemma validateGrants_eq_ok {seen : List String} {grants : List AccessGrantRecord} :
    validateGrants C seen grants = .ok () ↔
      (∀ g ∈ grants, g.WellFormed C) ∧ (grants.map AccessGrantRecord.id).Nodup ∧
        ∀ g ∈ grants, g.id ∉ seen := by
  induction grants generalizing seen with
  | nil => simp [validateGrants]
  | cons g grants ih =>
    have hstep : validateGrants C seen (g :: grants) = .ok () ↔
        g.validate C seen = .ok () ∧ validateGrants C (seen ++ [g.id]) grants = .ok () := by
      rw [validateGrants, bind_eq_ok]
      exact ⟨fun ⟨_, h, h'⟩ => ⟨h, h'⟩, fun ⟨h, h'⟩ => ⟨(), h, h'⟩⟩
    rw [hstep, AccessGrantRecord.validate_eq_ok, ih]
    simp only [forall_mem_cons, map_cons, nodup_cons, mem_map,
      mem_append, mem_singleton, not_exists, not_and, not_or]
    constructor
    · rintro ⟨⟨hg, hseen⟩, hall, hnodup, hdistinct⟩
      exact ⟨⟨hg, hall⟩, ⟨fun g' hg' heq => (hdistinct g' hg').2 heq, hnodup⟩, hseen,
        fun g' hg' => (hdistinct g' hg').1⟩
    · rintro ⟨⟨hg, hall⟩, ⟨hne, hnodup⟩, hseen, hseen'⟩
      exact ⟨⟨hg, hseen⟩, hall, hnodup, fun g' hg' => ⟨hseen' g' hg', hne g' hg'⟩⟩

/-! ### Sessions -/

/-- The checks of one session that do not look at the other sessions. -/
def SessionRecord.WellFormed (C : Crypto) (grants : List AccessGrantRecord)
    (session : SessionRecord) : Prop :=
  session.validate C grants [] = .ok ()

namespace SessionRecord

variable {grants : List AccessGrantRecord} {session : SessionRecord}

lemma validate_eq_ok {seen : List SessionRecord} :
    session.validate C grants seen = .ok () ↔ session.WellFormed C grants ∧
      session.id ∉ seen.map SessionRecord.id ∧
        ∀ slot ∈ session.resourceSlot, slot ∉ seen.filterMap SessionRecord.resourceSlot := by
  have hslots : (session.resourceSlot.all fun slot =>
      !((seen.filterMap SessionRecord.resourceSlot).contains slot)) = true ↔
        ∀ slot ∈ session.resourceSlot, slot ∉ seen.filterMap SessionRecord.resourceSlot := by
    cases session.resourceSlot <;> simp
  have hslots' : (session.resourceSlot.all fun slot =>
      !((([] : List SessionRecord).filterMap SessionRecord.resourceSlot).contains slot)) = true := by
    cases session.resourceSlot <;> simp
  simp only [WellFormed, validate, require_bind_eq_ok, hslots, hslots']
  simp only [map_nil, true_and, Bool.not_eq_true', contains_eq_mem,
    decide_eq_false_iff_not]
  tauto

/-- A well-formed session belongs to a grant that it does not outlive. -/
lemma WellFormed.grant (h : session.WellFormed C grants) :
    ∃ g, grants.find? (fun g => g.id == session.grantId) = some g ∧
      ∀ expiry ∈ g.expiresAt, session.expiresAt ≤ expiry := by
  simp only [WellFormed, validate, require_bind_eq_ok] at h
  obtain ⟨-, -, -, h⟩ := h
  cases hfind : grants.find? (fun g => g.id == session.grantId) with
  | none =>
    rw [hfind] at h
    cases h
  | some g =>
    rw [hfind] at h
    obtain ⟨_, -, h⟩ := bind_eq_ok.mp h
    simp only [require_bind_eq_ok, require_eq_ok] at h
    refine ⟨g, rfl, fun expiry hexpiry => ?_⟩
    have hend := h.2.2
    rw [Option.mem_def.mp hexpiry] at hend
    simpa using hend

/-- What the check of a session reads of the grants is the end of its own grant. -/
lemma WellFormed.congr {grants' : List AccessGrantRecord} (h : session.WellFormed C grants)
    (hgrants : (grants'.find? fun g => g.id == session.grantId).map AccessGrantRecord.expiresAt =
      (grants.find? fun g => g.id == session.grantId).map AccessGrantRecord.expiresAt) :
    session.WellFormed C grants' := by
  simp only [WellFormed, validate, require_bind_eq_ok] at h ⊢
  refine ⟨h.1, h.2.1, h.2.2.1, ?_⟩
  have hrest := h.2.2.2
  cases hfind : grants.find? (fun g => g.id == session.grantId) with
  | none =>
    rw [hfind] at hrest
    cases hrest
  | some g =>
    rw [hfind] at hrest hgrants
    obtain ⟨g', hfind', hexpires⟩ := Option.map_eq_some_iff.mp hgrants
    rw [hfind']
    simpa only [hexpires] using hrest

end SessionRecord

lemma nodup_filterMap_cons {α β : Type} {f : α → Option β} {a : α} {as : List α} :
    ((a :: as).filterMap f).Nodup ↔ (∀ b ∈ f a, b ∉ as.filterMap f) ∧ (as.filterMap f).Nodup := by
  cases h : f a <;> simp [h]

lemma validateSessions_eq_ok {grants : List AccessGrantRecord} {seen sessions : List SessionRecord} :
    validateSessions C grants seen sessions = .ok () ↔ (∀ x ∈ sessions, x.WellFormed C grants) ∧
        ((sessions.map SessionRecord.id).Nodup ∧ ∀ x ∈ sessions, x.id ∉ seen.map SessionRecord.id) ∧
        (sessions.filterMap SessionRecord.resourceSlot).Nodup ∧
          ∀ x ∈ sessions, ∀ slot ∈ x.resourceSlot,
            slot ∉ seen.filterMap SessionRecord.resourceSlot := by
  induction sessions generalizing seen with
  | nil => simp [validateSessions]
  | cons x sessions ih =>
    have hstep : validateSessions C grants seen (x :: sessions) = .ok () ↔
        x.validate C grants seen = .ok () ∧
          validateSessions C grants (seen ++ [x]) sessions = .ok () := by
      rw [validateSessions, bind_eq_ok]
      exact ⟨fun ⟨_, h, h'⟩ => ⟨h, h'⟩, fun ⟨h, h'⟩ => ⟨(), h, h'⟩⟩
    have hslot : ∀ slot, slot ∈ (seen ++ [x]).filterMap SessionRecord.resourceSlot ↔
        slot ∈ seen.filterMap SessionRecord.resourceSlot ∨ slot ∈ x.resourceSlot := by
      intro slot
      cases hx : x.resourceSlot <;> simp [hx, eq_comm]
    rw [hstep, SessionRecord.validate_eq_ok, ih, nodup_filterMap_cons]
    simp only [forall_mem_cons, map_cons, nodup_cons, map_append,
      map_nil, mem_append, mem_singleton, hslot, not_or]
    constructor
    · rintro ⟨⟨hx, hid, hseen⟩, hall, ⟨hids, hids'⟩, hslots, hslots'⟩
      refine ⟨⟨hx, hall⟩, ⟨⟨?_, hids⟩, hid, fun y hy => (hids' y hy).1⟩, ⟨?_, hslots⟩, hseen,
        fun y hy slot hs => (hslots' y hy slot hs).1⟩
      · intro hmem
        obtain ⟨y, hy, heq⟩ := mem_map.mp hmem
        exact (hids' y hy).2 heq
      · intro slot hs hmem
        obtain ⟨y, hy, heq⟩ := mem_filterMap.mp hmem
        exact (hslots' y hy slot heq).2 hs
    · rintro ⟨⟨hx, hall⟩, ⟨⟨hne, hids⟩, hid, hid'⟩, ⟨hdisjoint, hslots⟩, hseen, hseen'⟩
      refine ⟨⟨hx, hid, hseen⟩, hall, ⟨hids, fun y hy => ⟨hid' y hy, ?_⟩⟩, hslots,
        fun y hy slot hs => ⟨hseen' y hy slot hs, ?_⟩⟩
      · intro heq
        exact hne (mem_map.mpr ⟨y, hy, heq⟩)
      · intro hxs
        exact hdisjoint slot hxs (mem_filterMap.mpr ⟨y, hy, hs⟩)

/-! ### States -/

/-- What `PersistedState.validate` checks. -/
structure PersistedState.Valid (C : Crypto) (s : PersistedState) : Prop where
  grants : ∀ g ∈ s.grants, g.WellFormed C
  grantIds : (s.grants.map AccessGrantRecord.id).Nodup
  sessions : ∀ x ∈ s.sessions, x.WellFormed C s.grants
  sessionIds : (s.sessions.map SessionRecord.id).Nodup
  slots : (s.sessions.filterMap SessionRecord.resourceSlot).Nodup

namespace PersistedState

variable {s : PersistedState}

theorem validate_eq_ok : s.validate C = .ok () ↔ s.Valid C := by
  have hsplit : s.validate C = .ok () ↔
      validateGrants C [] s.grants = .ok () ∧ validateSessions C s.grants [] s.sessions = .ok () := by
    rw [validate, bind_eq_ok]
    exact ⟨fun ⟨_, h, h'⟩ => ⟨h, h'⟩, fun ⟨h, h'⟩ => ⟨(), h, h'⟩⟩
  rw [hsplit, validateGrants_eq_ok, validateSessions_eq_ok]
  constructor
  · rintro ⟨⟨hg, hids, -⟩, hx, ⟨hxids, -⟩, hslots, -⟩
    exact ⟨hg, hids, hx, hxids, hslots⟩
  · rintro ⟨hg, hids, hx, hxids, hslots⟩
    exact ⟨⟨hg, hids, by simp⟩, hx, ⟨hxids, by simp⟩, hslots, by simp⟩

/-- Under distinct IDs a grant is found by its ID. -/
lemma Valid.findGrant_id (h : s.Valid C) {g : AccessGrantRecord} (hg : g ∈ s.grants) :
    s.findGrant g.id = some g := by
  obtain ⟨g', hg'⟩ : ∃ g', s.findGrant g.id = some g' := by
    rw [← Option.isSome_iff_exists, findGrant, find?_isSome]
    exact ⟨g, hg, by simp⟩
  have hid : g'.id = g.id := by simpa using find?_some hg'
  rw [hg', inj_on_of_nodup_map h.grantIds (mem_of_find?_eq_some hg') hg hid]

/-- Every session belongs to a grant that it does not outlive. -/
lemma Valid.grant_of_session (h : s.Valid C) {x : SessionRecord} (hx : x ∈ s.sessions) :
    ∃ g ∈ s.grants, g.id = x.grantId ∧ ∀ expiry ∈ g.expiresAt, x.expiresAt ≤ expiry := by
  obtain ⟨g, hfind, hexpiry⟩ := (h.sessions x hx).grant
  exact ⟨g, mem_of_find?_eq_some hfind, by simpa using find?_some hfind, hexpiry⟩

end PersistedState

lemma isStorable_eq_true {s : PersistedState} :
    isStorable C s = true ↔ s.schemaVersion = currentStateSchemaVersion ∧ s.Valid C := by
  rw [isStorable, Bool.and_eq_true, decide_eq_true_eq, decide_eq_true_eq,
    PersistedState.validate_eq_ok]

end Ket.Server
