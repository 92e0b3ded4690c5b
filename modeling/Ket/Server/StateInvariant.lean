import Ket.Server.Ledger
import Ket.Server.Locks

/-!
# The invariant of the state

`StateInv` holds of the state in memory and of the state file in every run of the service at
the granularity of its lock, whatever the clock, the failures of the store and the restarts.
A state that is stored passes its check; what the check does not look at (`Sound`: every session
has a slot below the capacity and belongs to no paused grant) each operation preserves.
-/

namespace Ket.Server

open Ket.Core Ket.Lib List

variable {C : Crypto} {cfg : Config} {s next : PersistedState}

/-- What the check of a state does not look at. -/
structure Sound (cfg : Config) (s : PersistedState) : Prop where
  schema : s.schemaVersion = currentStateSchemaVersion
  slotted : ∀ x ∈ s.sessions, ∃ slot < cfg.maxSessions, x.resourceSlot = some slot
  notPaused : ∀ x ∈ s.sessions, ∀ g ∈ s.grants, g.id = x.grantId → g.paused = false

/-- The invariant of the state. -/
structure StateInv (C : Crypto) (cfg : Config) (s : PersistedState) : Prop extends Sound cfg s where
  valid : s.Valid C

lemma stateInv_empty : StateInv C cfg PersistedState.empty :=
  ⟨⟨rfl, by simp [PersistedState.empty], by simp [PersistedState.empty]⟩,
    by simp [PersistedState.empty], by simp [PersistedState.empty], by simp [PersistedState.empty],
    by simp [PersistedState.empty], by simp [PersistedState.empty]⟩

/-! ### Operations that only lose records -/

/-- Every record of `next` comes from one of `s`: a session up to its lease, a grant up to what
a pause does not touch. -/
structure Shrinks (s next : PersistedState) : Prop where
  schema : next.schemaVersion = s.schemaVersion
  sessions : ∀ y ∈ next.sessions, ∃ x ∈ s.sessions, x.identity = y.identity
  grants : ∀ g' ∈ next.grants, ∃ g ∈ s.grants, g.id = g'.id ∧ g.paused = g'.paused

lemma Sound.of_shrinks (hs : Sound cfg s) (h : Shrinks s next) : Sound cfg next where
  schema := h.schema.trans hs.schema
  slotted := by
    intro y hy
    obtain ⟨x, hx, heq⟩ := h.sessions y hy
    rw [← SessionRecord.resourceSlot_eq_of_identity_eq heq]
    exact hs.slotted x hx
  notPaused := by
    intro y hy g' hg' hid
    obtain ⟨x, hx, heq⟩ := h.sessions y hy
    obtain ⟨g, hg, hgid, hpaused⟩ := h.grants g' hg'
    rw [← hpaused]
    refine hs.notPaused x hx g hg ?_
    rw [hgid, hid, SessionRecord.grantId_eq_of_identity_eq heq]

lemma shrinks_filter (s : PersistedState) (p : AccessGrantRecord → Bool) (q : SessionRecord → Bool) :
    Shrinks s { s with grants := s.grants.filter p, sessions := s.sessions.filter q } where
  schema := rfl
  sessions y hy := ⟨y, mem_of_mem_filter hy, rfl⟩
  grants g hg := ⟨g, mem_of_mem_filter hg, rfl, rfl⟩

lemma shrinks_filter_sessions (s : PersistedState) (q : SessionRecord → Bool) :
    Shrinks s { s with sessions := s.sessions.filter q } where
  schema := rfl
  sessions y hy := ⟨y, mem_of_mem_filter hy, rfl⟩
  grants g hg := ⟨g, hg, rfl, rfl⟩

lemma Shrinks.trans {s₁ s₂ s₃ : PersistedState} (h : Shrinks s₁ s₂) (h' : Shrinks s₂ s₃) :
    Shrinks s₁ s₃ where
  schema := h'.schema.trans h.schema
  sessions z hz := by
    obtain ⟨y, hy, heq⟩ := h'.sessions z hz
    obtain ⟨x, hx, heq'⟩ := h.sessions y hy
    exact ⟨x, hx, heq'.trans heq⟩
  grants g₃ hg₃ := by
    obtain ⟨g₂, hg₂, hid, hpaused⟩ := h'.grants g₃ hg₃
    obtain ⟨g₁, hg₁, hid', hpaused'⟩ := h.grants g₂ hg₂
    exact ⟨g₁, hg₁, hid'.trans hid, hpaused'.trans hpaused⟩

variable {ended : List SessionAllocation} {id : String} {ticket : SessionTicket} {now : ℕ}
  {moved : String → Option ℕ} {u : UsageRecorded} {changed : Bool}

lemma shrinks_revokeGrant (h : revokeGrant s id = .ok (next, ended)) : Shrinks s next := by
  obtain ⟨-, rfl⟩ := revokeGrant_spec h
  exact shrinks_filter s _ _

lemma shrinks_endSession {a : SessionAllocation} (h : endSession s ticket = .ok (next, a)) :
    Shrinks s next := by
  obtain ⟨-, -, rfl⟩ := endSession_spec h
  exact shrinks_filter_sessions s _

lemma shrinks_renewSession {view : Except ServiceError SessionView}
    (h : renewSession cfg s ticket now = .ok (next, view)) : Shrinks s next := by
  obtain ⟨pre, x, post, hs, -, rfl⟩ := renewSession_spec h
  refine ⟨rfl, ?_, fun g hg => ⟨g, hg, rfl, rfl⟩⟩
  intro y hy
  simp only [mem_append, mem_cons] at hy
  rw [hs]
  rcases hy with hy | rfl | hy
  · exact ⟨y, by simp [hy], rfl⟩
  · exact ⟨x, by simp, rfl⟩
  · exact ⟨y, by simp [hy], rfl⟩

lemma shrinks_dropExpired (s : PersistedState) (now : ℕ) : Shrinks s (dropExpiredSessions s now) :=
  shrinks_filter_sessions s _

lemma shrinks_expireSessions {expired : List SessionAllocation}
    (h : expireSessions s now = .ok (some next, expired)) : Shrinks s next := by
  obtain ⟨-, ⟨h, -⟩ | h⟩ := expireSessions_spec h
  · cases h
  · cases h
    exact (shrinks_dropExpired s now).trans (shrinks_filter _ _ _)

lemma shrinks_recordUsage (h : recordUsage s moved now = .ok u) : Shrinks s u.next := by
  obtain ⟨-, hnext⟩ := recordUsage_spec h
  obtain ⟨usage, -, hgrants⟩ := chargeGrants_eq s moved now
  rw [hnext, hgrants]
  refine ⟨rfl, fun y hy => ⟨y, mem_of_mem_filter hy, rfl⟩, ?_⟩
  intro g' hg'
  obtain ⟨g, hg, rfl⟩ := mem_map.mp hg'
  exact ⟨g, hg, rfl, rfl⟩

/-! ### Operations that add records -/

lemma sound_createGrant {request : CreateAccessGrantRequest} {code secretHash : String}
    {response : CreateAccessGrantResponse} (hs : Sound cfg s)
    (h : createGrant cfg s request now code secretHash = .ok (next, response)) :
    Sound cfg next := by
  obtain ⟨record, hpaused, -, rfl⟩ := createGrant_spec h
  refine ⟨hs.schema, hs.slotted, ?_⟩
  intro x hx g hg hid
  rcases mem_append.mp hg with hg | hg
  · exact hs.notPaused x hx g hg hid
  · rw [mem_singleton.mp hg]
    exact hpaused

/-- A grant that is paused keeps no session: either the change pauses it, which ends them, or it
was paused before. -/
lemma sound_updateGrant {changes : UpdateAccessGrantRequest} {summary : AccessGrantSummary}
    (hs : Sound cfg s) (h : updateGrant cfg s id changes now = .ok (next, summary, ended)) :
    Sound cfg next := by
  obtain ⟨changes', happly⟩ := updateGrant_spec h
  obtain ⟨grant, hfind, rfl, -⟩ := GrantAdmin.apply_spec happly
  have hgrant : grant ∈ s.grants := mem_of_find?_eq_some hfind
  have hgid : grant.id = id := by simpa using find?_some hfind
  refine ⟨hs.schema, ?_, ?_⟩
  · intro y hy
    obtain ⟨x, hx, rfl⟩ := GrantAdmin.mem_changed hy
    rw [SessionRecord.resourceSlot_eq_of_identity_eq (GrantAdmin.identity_cutLease _ _ x)]
    exact hs.slotted x hx
  · intro y hy g hg hid
    obtain ⟨x, hx, rfl⟩ := GrantAdmin.mem_changed hy
    rw [GrantAdmin.grantId_cutLease] at hid
    rcases GrantAdmin.mem_replaceGrant hg with rfl | ⟨hg, -⟩
    · have hidx : x.grantId = id := hid.symm.trans hgid
      have hold : grant.paused = false := hs.notPaused x hx grant hgrant (hgid.trans hidx.symm)
      have hkept : GrantAdmin.endsAll grant changes' now ≠ true := fun hall =>
        GrantAdmin.grantId_ne_of_endsAll hall hy (by simpa using hidx)
      cases hp : changes'.paused with
      | none => simp [GrantAdmin.changeGrant, hp, hold]
      | some paused =>
        cases paused with
        | false => simp [GrantAdmin.changeGrant, hp]
        | true => exact absurd (by simp [GrantAdmin.endsAll, hp, hold]) hkept
    · exact hs.notPaused x hx g hg hid

lemma sound_admitSession {ticket : EnrollmentTicket} {token scopedSecret : String}
    {created : CreatedSession} (hs : StateInv C cfg s)
    (h : admitSession C cfg s ticket now token scopedSecret = .ok (next, created)) :
    Sound cfg next := by
  obtain ⟨grant, slot, tokenParts, dataPlaneParts, hfind, hpaused, -, hslot, -, -, -, -, -, -, rfl⟩ :=
    admitSession_spec h
  refine ⟨hs.schema, ?_, ?_⟩
  · intro y hy
    rcases mem_append.mp hy with hy | hy
    · exact hs.slotted y (mem_of_mem_filter hy)
    · rw [mem_singleton.mp hy]
      exact ⟨slot, (lowestFreeSlot_spec hslot).1, rfl⟩
  · intro y hy g hg hid
    rcases mem_append.mp hy with hy | hy
    · exact hs.notPaused y (mem_of_mem_filter hy) g hg hid
    · rw [mem_singleton.mp hy] at hid
      have hgrant := hs.valid.findGrant_id (mem_of_find?_eq_some hfind)
      have hg' := hs.valid.findGrant_id hg
      have hgid : g.id = grant.id := hid
      rw [hgid, hgrant] at hg'
      cases hg'
      exact hpaused

/-! ### States that are not checked -/

lemma valid_filter_sessions (hs : s.Valid C) (q : SessionRecord → Bool) :
    PersistedState.Valid C { s with sessions := s.sessions.filter q } where
  grants := hs.grants
  grantIds := hs.grantIds
  sessions x hx := hs.sessions x (mem_of_mem_filter hx)
  sessionIds := hs.sessionIds.sublist (List.filter_sublist.map _)
  slots := hs.slots.sublist (List.filter_sublist.filterMap _)

lemma valid_usage (hs : s.Valid C) {usage : AccessGrantRecord → Option PeriodUsage}
    (husage : ∀ g, g.allowance = none → usage g = g.usage) :
    PersistedState.Valid C { s with grants := s.grants.map fun g => { g with usage := usage g } } where
  grants g' hg' := by
    obtain ⟨g, hg, rfl⟩ := mem_map.mp hg'
    exact (hs.grants g hg).usage (husage g)
  grantIds := by
    rw [map_map]
    exact hs.grantIds
  sessions x hx := by
    refine (hs.sessions x hx).congr ?_
    rw [find?_map, Option.map_map]
    rfl
  sessionIds := hs.sessionIds
  slots := hs.slots

/-- `record_usage` makes a valid state current, whether it stores it or not. -/
lemma stateInv_recordUsage (hs : StateInv C cfg s) (h : recordUsage s moved now = .ok u) :
    StateInv C cfg u.next := by
  refine ⟨hs.toSound.of_shrinks (shrinks_recordUsage h), ?_⟩
  obtain ⟨-, hnext⟩ := recordUsage_spec h
  obtain ⟨usage, husage, hgrants⟩ := chargeGrants_eq s moved now
  rw [hnext, hgrants]
  exact valid_filter_sessions (valid_usage hs.valid husage) _

lemma assignSlots_of_slotted {maxSessions : ℕ} {used : List ℕ} {xs : List SessionRecord}
    (h : ∀ x ∈ xs, ∃ slot, x.resourceSlot = some slot) : assignSlots maxSessions used xs = .ok xs := by
  induction xs with
  | nil => rfl
  | cons x xs ih =>
    obtain ⟨slot, hslot⟩ := h x mem_cons_self
    rw [assignSlots, hslot, ih fun y hy => h y (mem_cons_of_mem _ hy)]
    rfl

/-- At a start the sessions whose lease has run out are dropped and the others keep their slots. -/
lemma prepareResourceSlots_spec {prepared : PersistedState} (hs : Sound cfg s)
    (h : prepareResourceSlots s cfg.maxSessions now = .ok (prepared, changed)) :
    prepared = dropExpiredSessions s now := by
  obtain ⟨used, -, h⟩ := bind_eq_ok.mp h
  have hslotted : ∀ x ∈ s.sessions.filter (SessionRecord.isLive now),
      ∃ slot, x.resourceSlot = some slot := by
    intro x hx
    obtain ⟨slot, -, hslot⟩ := hs.slotted x (mem_of_mem_filter hx)
    exact ⟨slot, hslot⟩
  rw [assignSlots_of_slotted hslotted] at h
  cases h
  rfl

lemma loadFile_of_stateInv (hs : StateInv C cfg s) : loadFile C s = some s := by
  have heq : { s with schemaVersion := currentStateSchemaVersion } = s := by
    rw [← hs.schema]
  rw [loadFile, heq, if_pos ⟨.inr hs.schema, PersistedState.validate_eq_ok.mpr hs.valid⟩]

/-! ### Runs -/

/-- What a mutation computes satisfies the invariant, once it has passed the check where there
is one. -/
lemma StateInv.of_computes {m : Mutation} (hs : StateInv C cfg s) (h : Computes C cfg s m next)
    (hcheck : m.checks = true → isStorable C next = true) : StateInv C cfg next := by
  have hvalid : m.checks = true → Sound cfg next → StateInv C cfg next := fun hc hsound =>
    ⟨hsound, (isStorable_eq_true.mp (hcheck hc)).2⟩
  cases h with
  | createGrant h => exact hvalid rfl (sound_createGrant hs.toSound h)
  | updateGrant h => exact hvalid rfl (sound_updateGrant hs.toSound h)
  | revokeGrant h => exact hvalid rfl (hs.toSound.of_shrinks (shrinks_revokeGrant h))
  | admitSession h => exact hvalid rfl (sound_admitSession hs h)
  | renewSession h => exact hvalid rfl (hs.toSound.of_shrinks (shrinks_renewSession h))
  | endSession h => exact hvalid rfl (hs.toSound.of_shrinks (shrinks_endSession h))
  | expireSessions h => exact hvalid rfl (hs.toSound.of_shrinks (shrinks_expireSessions h))
  | recordUsage h => exact stateInv_recordUsage hs h

/-- A start takes the expired sessions out of the file's state and keeps the rest. -/
lemma StateInv.prepared {loaded prepared : PersistedState} (hs : StateInv C cfg s)
    (hload : loadFile C s = some loaded)
    (h : prepareResourceSlots loaded cfg.maxSessions now = .ok (prepared, changed)) :
    prepared = dropExpiredSessions s now ∧ StateInv C cfg prepared := by
  rw [loadFile_of_stateInv hs] at hload
  cases hload
  cases prepareResourceSlots_spec hs.toSound h
  exact ⟨rfl, hs.toSound.of_shrinks (shrinks_dropExpired _ _), valid_filter_sessions hs.valid _⟩

/-- The invariant holds in every run, in memory and in the file. -/
lemma stateInv_of_reachable {cond : LockState → LockEvent → Prop} {l : LockState}
    (h : (lockSystem C cfg).Reachable cond l) : l.node.Holds (StateInv C cfg) :=
  h.invariant (I := fun l => l.node.Holds (StateInv C cfg)) ⟨stateInv_empty, stateInv_empty⟩
    fun _ _ _ _ hl _ hstep => LockState.holds_step hl
      (fun _ _ _ hc hcheck => hl.state.of_computes hc hcheck)
      (fun _ _ _ _ hload hprepare => (hl.file.prepared hload hprepare).2) hstep

lemma StateInv.slots_pairwise (hs : StateInv C cfg s) :
    s.sessions.Pairwise fun x y => x.resourceSlot ≠ y.resourceSlot := by
  have hslots := pairwise_filterMap.mp hs.valid.slots
  refine List.Pairwise.imp_of_mem ?_ hslots
  intro x y hx hy hne heq
  obtain ⟨slot, -, hslot⟩ := hs.slotted x hx
  exact hne slot hslot slot (heq ▸ hslot) rfl

/-- **The state invariant.**  In every run of the service at the granularity of its lock, with
any times, store failures and restarts, the state in memory passes its check, every session has
a slot of its own below the capacity and belongs to no paused grant, and when fewer sessions
than slots remain after the expired ones are taken out, a slot is found. -/
theorem state_invariant {C : Crypto} {cfg : Config} {l : LockState}
    (h : (lockSystem C cfg).Reachable (fun _ _ => True) l) : l.node.state.validate C = .ok () ∧
      (∀ x ∈ l.node.state.sessions, ∃ slot < cfg.maxSessions, x.resourceSlot = some slot) ∧
      (l.node.state.sessions.Pairwise fun x y => x.resourceSlot ≠ y.resourceSlot) ∧
      (∀ x ∈ l.node.state.sessions, ∀ g ∈ l.node.state.grants,
        g.id = x.grantId → g.paused = false) ∧
      ∀ now, (dropExpiredSessions l.node.state now).sessions.length < cfg.maxSessions →
        ∃ slot, nextResourceSlot (dropExpiredSessions l.node.state now) cfg.maxSessions = some slot := by
  have hs := (stateInv_of_reachable h).state
  exact ⟨PersistedState.validate_eq_ok.mpr hs.valid, hs.slotted, hs.slots_pairwise, hs.notPaused,
    fun _ hroom => exists_nextResourceSlot hroom⟩

/-- A run with a failed store and a restart: a grant, an enrollment whose first store fails, a
second enrollment, and a restart after which the session is still there. -/
def restartRun : List LockEvent :=
  [⟨10, .start 10 .stored⟩, ⟨10, .createGrant Sample.request 10 Sample.code "hash" .stored⟩,
    ⟨11, .findGrant Sample.code "phone"⟩,
    ⟨12, .admitSession 0 12 Sample.token Sample.secret .failed⟩,
    ⟨13, .findGrant Sample.code "phone"⟩,
    ⟨14, .admitSession 0 14 Sample.token Sample.secret .stored⟩,
    ⟨15, .stop⟩, ⟨16, .start 16 .stored⟩]

theorem state_invariant_restartRun :
    ∃ l, (lockSystem Sample.crypto Sample.config).Reachable (fun _ _ => True) l ∧
      l.node.state.sessions.length = 1 ∧ l.node.state.validate Sample.crypto = .ok () ∧
      ∃ slot, nextResourceSlot (dropExpiredSessions l.node.state 17) 2 = some slot := by
  obtain ⟨l, hl, hlen⟩ := System.exists_reachable_of_run
    (lockSystem Sample.crypto Sample.config) (fun _ _ => True)
    (fun l => l.node.state.sessions.length = 1) restartRun (by decide +kernel)
  have hinv := state_invariant hl
  have hroom : (dropExpiredSessions l.node.state 17).sessions.length < 2 :=
    lt_of_le_of_lt (length_filter_le _ _) (by omega)
  exact ⟨l, hl, hlen, hinv.1, hinv.2.2.2.2 17 hroom⟩

/-! ### Restarts -/

lemma checkSlots_of_nodup {maxSessions : ℕ} {used : List ℕ} {xs : List SessionRecord}
    (hslotted : ∀ x ∈ xs, ∃ slot < maxSessions, x.resourceSlot = some slot)
    (hnodup : (used ++ xs.filterMap SessionRecord.resourceSlot).Nodup) :
    ∃ all, checkSlots maxSessions used xs = .ok all := by
  induction xs generalizing used with
  | nil => exact ⟨used, rfl⟩
  | cons x xs ih =>
    obtain ⟨⟨slot, hlt, hslot⟩, hslotted⟩ := forall_mem_cons.mp hslotted
    rw [filterMap_cons_some hslot, append_cons] at hnodup
    obtain ⟨all, hall⟩ := ih hslotted hnodup
    have hfree : slot ∉ used := fun hmem =>
      disjoint_of_nodup_append hnodup.of_append_left hmem mem_cons_self
    refine ⟨all, ?_⟩
    simp only [checkSlots, hslot]
    exact require_bind_eq_ok.mpr ⟨by simp [hlt], require_bind_eq_ok.mpr ⟨by simp [hfree], hall⟩⟩

/-- What is stored can be prepared, and is not changed unless a lease has run out. -/
lemma StateInv.prepare (hs : StateInv C cfg s) (now : ℕ) :
    ∃ changed, prepareResourceSlots s cfg.maxSessions now
        = .ok (dropExpiredSessions s now, changed) ∧
      (changed = false → dropExpiredSessions s now = s) := by
  have hsound := hs.toSound.of_shrinks (shrinks_dropExpired s now)
  obtain ⟨used, hused⟩ : ∃ used, checkSlots cfg.maxSessions []
      (s.sessions.filter (SessionRecord.isLive now)) = .ok used :=
    checkSlots_of_nodup hsound.slotted (valid_filter_sessions hs.valid _).slots
  refine ⟨_, bind_eq_ok.mpr ⟨used, hused, bind_eq_ok.mpr ⟨_, assignSlots_of_slotted ?_, rfl⟩⟩, ?_⟩
  · exact fun x hx => (hsound.slotted x hx).imp fun _ h => h.2
  intro hsame
  have hlength := of_decide_eq_false (Bool.or_eq_false_iff.mp hsame).1
  rw [dropExpiredSessions, filter_sublist.eq_of_length (not_not.mp hlength)]

/-- **The service starts again.**  Wherever a run stops, a start with a working store succeeds at
any time, and memory and file hold what was stored without the sessions whose lease has run out. -/
theorem restart_keeps_live {l : LockState}
    (h : (lockSystem C cfg).Reachable (fun _ _ => True) l) (now : ℕ) :
    l.node.load C cfg now .stored =
      (⟨dropExpiredSessions l.node.file now, dropExpiredSessions l.node.file now, now⟩, true) := by
  have hfile := (stateInv_of_reachable h).file
  obtain ⟨changed, hprepare, hsame⟩ := hfile.prepare now
  obtain ⟨-, hinv⟩ := hfile.prepared (loadFile_of_stateInv hfile) hprepare
  have hstorable := isStorable_eq_true.mpr ⟨hinv.schema, hinv.valid⟩
  simp only [Node.load, loadFile_of_stateInv hfile, hprepare]
  cases changed with
  | false => simp [hsame rfl]
  | true => simp [Node.stores, hstorable]

theorem restart_keeps_live_restartRun :
    ∃ l, (lockSystem Sample.crypto Sample.config).Reachable (fun _ _ => True) l ∧
      l.node.file.sessions.length = 1 ∧
      (l.node.load Sample.crypto Sample.config 17 .stored).2 = true := by
  obtain ⟨l, hl, hlen⟩ := System.exists_reachable_of_run
    (lockSystem Sample.crypto Sample.config) (fun _ _ => True)
    (fun l => l.node.file.sessions.length = 1) restartRun (by decide +kernel)
  exact ⟨l, hl, hlen, by rw [restart_keeps_live hl]⟩

end Ket.Server
