import Ket.Server.StateInvariant

/-!
# The device limit

How many leases of a grant run at a time.  Creation and changes of a grant look at the limit; a
renewal does not.  It extends a record that was authenticated earlier, so a lease that ran out in
between comes back to life, also when the limit was lowered meanwhile
(`late_renewal_exceeds_limit`).  As long as every renewal finds its lease still running, or the
grant with room for it, the limit holds in every run (`device_limit`).
-/

namespace Ket.Server

open Ket.Core Ket.Lib List

variable {C : Crypto} {cfg : Config} {s next : PersistedState} {now time : ℕ}

/-- No grant has more running leases than it allows. -/
def WithinLimit (s : PersistedState) (time : ℕ) : Prop :=
  ∀ g ∈ s.grants, (liveSessions s g.id time).length ≤ g.maxConnections

instance (s : PersistedState) (time : ℕ) : Decidable (WithinLimit s time) :=
  inferInstanceAs (Decidable (∀ g ∈ s.grants, _))

lemma length_liveSessions (s : PersistedState) (id : String) (time : ℕ) :
    (liveSessions s id time).length = s.sessions.countP fun x => x.grantId == id && x.isLive time :=
  countP_eq_length_filter.symm

lemma WithinLimit.later {time' : ℕ} (h : WithinLimit s time) (hle : time ≤ time') :
    WithinLimit s time' := by
  intro g hg
  refine le_trans ?_ (h g hg)
  rw [length_liveSessions, length_liveSessions]
  refine countP_mono_left fun x _ hx => ?_
  simp only [Bool.and_eq_true, SessionRecord.isLive_eq_true] at hx ⊢
  exact ⟨hx.1, by omega⟩

lemma WithinLimit.filter (h : WithinLimit s time) {q : SessionRecord → Bool}
    (hsessions : next.sessions = s.sessions.filter q)
    (hgrants : ∀ g' ∈ next.grants, ∃ g ∈ s.grants, g.id = g'.id ∧
      g.maxConnections = g'.maxConnections) : WithinLimit next time := by
  intro g' hg'
  obtain ⟨g, hg, hid, hmax⟩ := hgrants g' hg'
  rw [← hid, ← hmax]
  refine le_trans ?_ (h g hg)
  rw [length_liveSessions, length_liveSessions, hsessions]
  exact List.Sublist.countP_le filter_sublist

variable {ended : List SessionAllocation} {id : String} {ticket : SessionTicket} {a : LockAction}
  {l : LockState} {m : Mutation}

section

variable (hs : WithinLimit s time)
include hs

lemma withinLimit_revokeGrant (h : revokeGrant s id = .ok (next, ended)) :
    WithinLimit next time := by
  obtain ⟨-, rfl⟩ := revokeGrant_spec h
  exact hs.filter rfl fun g hg => ⟨g, mem_of_mem_filter hg, rfl, rfl⟩

lemma withinLimit_endSession {a : SessionAllocation}
    (h : endSession s ticket = .ok (next, a)) : WithinLimit next time := by
  obtain ⟨-, -, rfl⟩ := endSession_spec h
  exact hs.filter rfl fun g hg => ⟨g, hg, rfl, rfl⟩

lemma withinLimit_dropExpired (now : ℕ) : WithinLimit (dropExpiredSessions s now) time :=
  hs.filter rfl fun g hg => ⟨g, hg, rfl, rfl⟩

lemma withinLimit_expireSessions {expired : List SessionAllocation}
    (h : expireSessions s now = .ok (some next, expired)) : WithinLimit next time := by
  obtain ⟨-, ⟨h, -⟩ | h⟩ := expireSessions_spec h
  · cases h
  · cases h
    exact (withinLimit_dropExpired hs now).filter rfl fun g hg =>
      ⟨g, mem_of_mem_filter hg, rfl, rfl⟩

lemma withinLimit_recordUsage {moved : String → Option ℕ} {u : UsageRecorded}
    (h : recordUsage s moved now = .ok u) : WithinLimit u.next time := by
  obtain ⟨-, hnext⟩ := recordUsage_spec h
  obtain ⟨usage, -, hgrants⟩ := chargeGrants_eq s moved now
  refine hs.filter (congrArg PersistedState.sessions hnext) ?_
  rw [hnext, hgrants]
  intro g' hg'
  obtain ⟨g, hg, rfl⟩ := mem_map.mp hg'
  exact ⟨g, hg, rfl, rfl⟩

end

/-- A new grant has no sessions. -/
lemma withinLimit_createGrant {request : CreateAccessGrantRequest} {code secretHash : String}
    {response : CreateAccessGrantResponse} (hvalid : s.Valid C) (hs : WithinLimit s time)
    (h : createGrant cfg s request now code secretHash = .ok (next, response)) :
    WithinLimit next time := by
  obtain ⟨record, -, hfresh, rfl⟩ := createGrant_spec h
  intro g hg
  rcases mem_append.mp hg with hg | hg
  · exact hs g hg
  · rw [mem_singleton.mp hg, length_liveSessions]
    have hnone : s.sessions.countP (fun x => x.grantId == record.id && x.isLive time) = 0 := by
      refine countP_eq_zero.mpr fun x hx hmatch => ?_
      obtain ⟨g', hg', hid, -⟩ := hvalid.grant_of_session hx
      simp only [Bool.and_eq_true, beq_iff_eq] at hmatch
      exact hfresh g' hg' (hid.trans hmatch.1)
    exact hnone ▸ Nat.zero_le _

/-! ### Changes of the limit -/

namespace GrantAdmin

variable {id : String} {changes : UpdateAccessGrantRequest} {grant : AccessGrantRecord}

/-- The sessions of another grant are as they were. -/
lemma length_liveSessions_changed_of_ne {id' : String} (hne : id' ≠ id) :
    (liveSessions (changed s grant id changes now) id' time).length
      ≤ (liveSessions s id' time).length := by
  rw [length_liveSessions, length_liveSessions]
  refine le_trans (List.Sublist.countP_le filter_sublist) ?_
  rw [countP_map]
  refine countP_mono_left fun x _ hx => ?_
  simp only [Function.comp_apply, Bool.and_eq_true, beq_iff_eq, grantId_cutLease] at hx ⊢
  have hkept : cutLease id (changeGrant grant changes now).expiresAt x = x :=
    if_neg (hx.1.trans_ne hne)
  rwa [hkept] at hx

/-- The changed grant keeps at most as many live sessions as it now allows. -/
lemma length_liveSessions_changed_self (hids : (s.sessions.map SessionRecord.id).Nodup)
    (hle : now ≤ time) : (liveSessions (changed s grant id changes now) id time).length
      ≤ (changeGrant grant changes now).maxConnections := by
  set g := changeGrant grant changes now with hg
  set sessions := s.sessions.map (cutLease id g.expiresAt) with hsessions
  set ordered := (sessions.filter fun x => x.grantId = id).insertionSort olderOrEqual with hordered
  have hperm : ordered.Perm (sessions.filter fun x => x.grantId = id) := perm_insertionSort _ _
  have hnodup : (ordered.map SessionRecord.id).Nodup := by
    rw [(hperm.map _).nodup_iff]
    refine List.Nodup.sublist (List.filter_sublist.map _) ?_
    rw [hsessions, map_map]
    simpa [Function.comp_def] using hids
  have hloop := length_live_le now (endsAll grant changes now) hnodup
    (Nat.zero_le g.maxConnections)
  rw [Nat.zero_add, ← countP_eq_length_filter, hperm.countP_eq, countP_filter] at hloop
  refine le_trans ?_ hloop
  rw [length_liveSessions, changed, countP_filter]
  refine countP_mono_left fun x _ hx => ?_
  simp only [Bool.and_eq_true, beq_iff_eq, SessionRecord.isLive_eq_true, decide_eq_true_eq,
    Bool.not_eq_true', contains_eq_mem, decide_eq_false_iff_not] at hx ⊢
  exact ⟨⟨by omega, hx.2⟩, hx.1.1⟩

end GrantAdmin

lemma withinLimit_updateGrant {changes : UpdateAccessGrantRequest} {summary : AccessGrantSummary}
    (hvalid : s.Valid C) (hs : WithinLimit s time) (hle : now ≤ time)
    (h : updateGrant cfg s id changes now = .ok (next, summary, ended)) :
    WithinLimit next time := by
  obtain ⟨changes', happly⟩ := updateGrant_spec h
  obtain ⟨grant, hfind, rfl, -⟩ := GrantAdmin.apply_spec happly
  have hgid : grant.id = id := by simpa using find?_some hfind
  intro g hg
  rcases GrantAdmin.mem_replaceGrant hg with rfl | ⟨hg, hne⟩
  · have hid : (GrantAdmin.changeGrant grant changes' now).id = id := hgid
    rw [hid]
    exact GrantAdmin.length_liveSessions_changed_self hvalid.sessionIds hle
  · exact le_trans (GrantAdmin.length_liveSessions_changed_of_ne (hne hvalid.grantIds)) (hs g hg)

/-! ### New and renewed leases -/

/-- There are at most as many sessions as slots. -/
lemma StateInv.length_sessions_le (hs : StateInv C cfg s) : s.sessions.length ≤ cfg.maxSessions := by
  have hsub : s.sessions.filterMap SessionRecord.resourceSlot ⊆ List.range cfg.maxSessions := by
    intro slot hslot
    obtain ⟨x, hx, heq⟩ := mem_filterMap.mp hslot
    obtain ⟨slot', hlt, heq'⟩ := hs.slotted x hx
    rw [heq] at heq'
    cases heq'
    exact mem_range.mpr hlt
  have hle := (hs.valid.slots.subperm hsub).length_le
  have hall : (s.sessions.filterMap SessionRecord.resourceSlot).length = s.sessions.length := by
    refine filterMap_length_eq_length.mpr fun x hx => ?_
    obtain ⟨slot, -, hslot⟩ := hs.slotted x hx
    rw [hslot]
    rfl
  rw [hall, length_range] at hle
  exact hle

lemma StateInv.countU32_eq (hs : StateInv C cfg s) {xs : List SessionRecord}
    (hxs : xs.Sublist s.sessions) : countU32 xs = xs.length :=
  truncate32_eq (hxs.length_le.trans (hs.length_sessions_le.trans cfg.maxSessions_le))

/-- A session is admitted only to a grant with room for it. -/
lemma withinLimit_admitSession {ticket : EnrollmentTicket} {token scopedSecret : String}
    {created : CreatedSession} (hinv : StateInv C cfg s) (hs : WithinLimit s time) (hle : now ≤ time)
    (h : admitSession C cfg s ticket now token scopedSecret = .ok (next, created)) :
    WithinLimit next time := by
  obtain ⟨grant, slot, tokenParts, dataPlaneParts, hfind, -, hlimit, -, -, -, -, -, -, -, rfl⟩ :=
    admitSession_spec h
  have hsub : (liveSessions (dropExpiredSessions s now) grant.id now).Sublist s.sessions :=
    filter_sublist.trans filter_sublist
  rw [hinv.countU32_eq hsub, length_liveSessions] at hlimit
  intro g hg
  have hdropped := withinLimit_dropExpired hs now g hg
  rw [length_liveSessions] at hdropped ⊢
  rw [countP_append, countP_singleton]
  by_cases hid : g.id = grant.id
  · have hgrant : g = grant := by
      have hg' := hinv.valid.findGrant_id hg
      rw [hid, hinv.valid.findGrant_id (mem_of_find?_eq_some hfind)] at hg'
      cases hg'
      rfl
    subst hgrant
    -- the leases that run now are among those that ran when the grant was checked
    have hmono : (dropExpiredSessions s now).sessions.countP
        (fun x => x.grantId == g.id && x.isLive time) ≤ (dropExpiredSessions s now).sessions.countP
          (fun x => x.grantId == g.id && x.isLive now) := by
      refine countP_mono_left fun x _ hx => ?_
      simp only [Bool.and_eq_true, SessionRecord.isLive_eq_true] at hx ⊢
      exact ⟨hx.1, by omega⟩
    have hone : (if (newSession C cfg g slot now ticket.clientName tokenParts
        dataPlaneParts).grantId == g.id && (newSession C cfg g slot now ticket.clientName tokenParts
          dataPlaneParts).isLive time then 1 else 0) ≤ 1 := by
      split <;> omega
    simp only [dropExpiredSessions] at hmono hlimit
    omega
  · have hnew : ((newSession C cfg grant slot now ticket.clientName tokenParts
        dataPlaneParts).grantId == g.id) = false := by
      simpa [newSession] using Ne.symm hid
    rw [hnew, Bool.false_and, if_neg (by simp)]
    exact hdropped

/-- When a renewal is made under the lock, the lease of its session is still running, or the
grant has room for one more. -/
def HasRoom (s : PersistedState) (time : ℕ) (sessionId : String) : Prop :=
  ∀ x ∈ s.sessions, x.id = sessionId → time < x.expiresAt ∨
    ∀ g ∈ s.grants, g.id = x.grantId → (liveSessions s g.id time).length < g.maxConnections

instance (s : PersistedState) (time : ℕ) (sessionId : String) :
    Decidable (HasRoom s time sessionId) :=
  inferInstanceAs (Decidable (∀ x ∈ s.sessions, _))

lemma withinLimit_renewSession {view : Except ServiceError SessionView} (hs : WithinLimit s time)
    (hroom : HasRoom s time ticket.session.id)
    (h : renewSession cfg s ticket now = .ok (next, view)) : WithinLimit next time := by
  obtain ⟨pre, x, post, hsessions, hid, rfl⟩ := renewSession_spec h
  intro g hg
  have hlimit := hs g hg
  have hx : x ∈ s.sessions := by simp [hsessions]
  rw [length_liveSessions, hsessions, countP_append, countP_cons] at hlimit
  rw [length_liveSessions, countP_append, countP_cons]
  by_cases hgrant : x.grantId = g.id
  · have hone : (if (x.grantId == g.id && SessionRecord.isLive time
        { x with expiresAt := leaseEnd cfg ticket.grant now }) = true then 1 else 0) ≤ 1 := by
      split <;> omega
    rcases hroom x hx hid with hlive | hfree
    · -- the lease was counted before
      have hcounted : (x.grantId == g.id && x.isLive time) = true := by
        simp [hgrant, hlive]
      rw [if_pos hcounted] at hlimit
      simp only at hone ⊢
      omega
    · have hfree' := hfree g hg hgrant.symm
      rw [length_liveSessions, hsessions, countP_append, countP_cons] at hfree'
      simp only at hone ⊢
      omega
  · have hother : (x.grantId == g.id) = false := by simpa using hgrant
    simp only [hother, Bool.false_and] at hlimit ⊢
    exact hlimit

/-! ### Runs -/

/-- Every renewal that is admitted finds its lease still running, or the grant with room for it. -/
def RenewalOk (l : LockState) (e : LockEvent) : Prop :=
  match e.action with
  | .renewSession i checkedAt _ _ =>
    ∀ ticket ∈ l.admitted i checkedAt, HasRoom l.node.state e.time ticket.session.id
  | _ => True

/-- The time that a mutation has read is not past the acquisition. -/
lemma LockState.now_le_of_mutation (hm : l.mutation a = some m) (htimes : l.TimesOk time a) :
    ∀ now ∈ m.now, now ≤ time := by
  cases a with
  | admitSession =>
    obtain ⟨ticket, -, rfl⟩ := Option.map_eq_some_iff.mp hm
    rintro _ ⟨⟩
    exact htimes.1
  | renewSession =>
    obtain ⟨ticket, -, rfl⟩ := Option.map_eq_some_iff.mp hm
    rintro _ ⟨⟩
    exact htimes.2.1
  | endSession =>
    obtain ⟨ticket, -, rfl⟩ := Option.map_eq_some_iff.mp hm
    rintro _ ⟨⟩
  | createGrant | updateGrant | expireSessions | recordUsage =>
    cases hm
    rintro _ ⟨⟩
    exact htimes
  | revokeGrant =>
    cases hm
    rintro _ ⟨⟩
  | findGrant | findSession | stop | start => cases hm

lemma RenewalOk.hasRoom (hm : l.mutation a = some (.renewSession ticket now))
    (h : RenewalOk l ⟨time, a⟩) : HasRoom l.node.state time ticket.session.id := by
  cases a with
  | renewSession i checkedAt now o =>
    obtain ⟨ticket', hticket, heq⟩ := Option.map_eq_some_iff.mp hm
    cases heq
    exact h _ hticket
  | admitSession | endSession =>
    obtain ⟨ticket', -, heq⟩ := Option.map_eq_some_iff.mp hm
    cases heq
  | _ => cases hm

/-- What the mutation of a step computes is within the limit. -/
lemma withinLimit_of_computes (hinv : StateInv C cfg l.node.state)
    (hl : WithinLimit l.node.state time) (htimes : l.TimesOk time a)
    (hrenewal : RenewalOk l ⟨time, a⟩) (hm : l.mutation a = some m)
    (h : Computes C cfg l.node.state m next) : WithinLimit next time := by
  cases h with
  | createGrant h => exact withinLimit_createGrant hinv.valid hl h
  | updateGrant h =>
    exact withinLimit_updateGrant hinv.valid hl (LockState.now_le_of_mutation hm htimes _ rfl) h
  | revokeGrant h => exact withinLimit_revokeGrant hl h
  | admitSession h =>
    exact withinLimit_admitSession hinv hl (LockState.now_le_of_mutation hm htimes _ rfl) h
  | renewSession h => exact withinLimit_renewSession hl (RenewalOk.hasRoom hm hrenewal) h
  | endSession h => exact withinLimit_endSession hl h
  | expireSessions h => exact withinLimit_expireSessions hl h
  | recordUsage h => exact withinLimit_recordUsage hl h

instance (l : LockState) (e : LockEvent) : Decidable (RenewalOk l e) :=
  match e with
  | ⟨_, .renewSession ..⟩ => inferInstanceAs (Decidable (∀ ticket ∈ l.admitted _ _, _))
  | ⟨_, .createGrant ..⟩ | ⟨_, .updateGrant ..⟩ | ⟨_, .revokeGrant ..⟩ | ⟨_, .findGrant ..⟩
  | ⟨_, .admitSession ..⟩ | ⟨_, .findSession ..⟩ | ⟨_, .endSession ..⟩ | ⟨_, .expireSessions ..⟩
  | ⟨_, .recordUsage ..⟩ | ⟨_, .stop⟩ | ⟨_, .start ..⟩ => inferInstanceAs (Decidable True)

/-- **The device limit.**  With a clock that never goes back, in every run whose renewals all
find their lease still running or their grant with room for it, no grant ever has more running
leases than it allows. -/
theorem device_limit {C : Crypto} {cfg : Config} {l : LockState}
    (h : (lockSystem C cfg).Reachable (fun l e => l.ClockOk e ∧ RenewalOk l e) l) :
    WithinLimit l.node.state l.clock := by
  have hempty : WithinLimit PersistedState.empty 0 := fun _ hg => absurd hg not_mem_nil
  suffices hlimit : l.node.Holds fun s => WithinLimit s l.clock from hlimit.state
  refine h.invariant (I := fun l => l.node.Holds fun s => WithinLimit s l.clock)
    ⟨hempty, hempty⟩ ?_
  intro l e l' hreach hl ⟨⟨hclock, htimes⟩, hrenewal⟩ hstep
  have hinv := stateInv_of_reachable hreach
  have hl' : l.node.Holds fun s => WithinLimit s e.time :=
    ⟨hl.state.later hclock, hl.file.later hclock⟩
  rw [LockState.clock_step hstep]
  refine LockState.holds_step hl' (fun _ _ hm hc _ =>
    withinLimit_of_computes hinv.state hl'.state htimes hrenewal hm hc) ?_ hstep
  intro now loaded prepared changed hload hprepare
  rw [(hinv.file.prepared hload hprepare).1]
  exact withinLimit_dropExpired hl'.file now

/-- The first device is renewed while its lease runs. -/
def timelyRenewal : List LockEvent :=
  Sample.twoDevices 12 ++ [⟨69, .findSession Sample.token⟩, ⟨70, .renewSession 0 69 70 .stored⟩]

theorem device_limit_timelyRenewal : ∃ l, (lockSystem Sample.crypto Sample.config).Reachable
        (fun l e => l.ClockOk e ∧ RenewalOk l e) l ∧
      (liveSessions l.node.state "Grant00001" l.clock).length = 2 ∧
      WithinLimit l.node.state l.clock := by
  obtain ⟨l, hl, hlive⟩ := System.exists_reachable_of_run
    (lockSystem Sample.crypto Sample.config) (fun l e => l.ClockOk e ∧ RenewalOk l e)
    (fun l => (liveSessions l.node.state "Grant00001" l.clock).length = 2) timelyRenewal
    (by decide +kernel)
  exact ⟨l, hl, hlive, device_limit hl⟩

/-- The renewal of the first device is authenticated at 70.  At 71 its lease has run out, and the
invite is changed to one device, which keeps the second.  Then the renewal is made. -/
def lateRenewal : List LockEvent :=
  Sample.twoDevices 12 ++ [⟨70, .findSession Sample.token⟩,
    ⟨71, .updateGrant "Grant00001" Sample.oneDevice 71 .stored⟩, ⟨71, .renewSession 0 70 71 .stored⟩]

/-- A renewal that was authenticated before its lease ran out exceeds a limit that was lowered
after. -/
theorem late_renewal_exceeds_limit :
    ∃ l, (lockSystem Sample.crypto Sample.config).Reachable LockState.ClockOk l ∧
      ¬ WithinLimit l.node.state l.clock :=
  System.exists_reachable_of_run _ _ _ lateRenewal (by decide +kernel)

end Ket.Server
