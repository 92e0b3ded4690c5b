import Ket.Server.Validity

/-!
# What the operations do to the records

For each operation of the service, the state it computes when it succeeds and the checks that
were passed.  A session's record changes only in the end of its lease; the rest of it is the
session's `identity`.
-/

namespace Ket.Server

open Ket.Core Ket.Lib List

variable {C : Crypto} {cfg : Config} {s next : PersistedState}

/-- What a session's record is from its creation on, whatever happens to its lease. -/
def SessionRecord.identity (x : SessionRecord) : SessionRecord := { x with expiresAt := 0 }

namespace SessionRecord

variable {x y : SessionRecord}

section

variable (h : x.identity = y.identity)
include h

lemma id_eq_of_identity_eq : x.id = y.id :=
  (congrArg SessionRecord.id h :)

lemma grantId_eq_of_identity_eq : x.grantId = y.grantId :=
  (congrArg SessionRecord.grantId h :)

lemma resourceSlot_eq_of_identity_eq :
    x.resourceSlot = y.resourceSlot := (congrArg SessionRecord.resourceSlot h :)

lemma issuedAt_eq_of_identity_eq : x.issuedAt = y.issuedAt :=
  (congrArg SessionRecord.issuedAt h :)

end

@[simp] lemma isLive_eq_true {now : ℕ} : x.isLive now = true ↔ now < x.expiresAt :=
  decide_eq_true_iff

end SessionRecord

/-! ### Allocations -/

variable {a : SessionAllocation} {x : SessionRecord} {as ended : List SessionAllocation}
  {xs : List SessionRecord} {maxSessions slot now : ℕ} {used : List ℕ}
  {code secretHash id : String} {request : CreateAccessGrantRequest} {ticket : SessionTicket}

lemma sessionAllocation_eq_ok :
    sessionAllocation x = .ok a ↔ x.resourceSlot = some a.resourceSlot ∧ x.id = a.id := by
  unfold sessionAllocation
  cases hx : x.resourceSlot with
  | none => simp
  | some slot =>
    simp only [Except.ok.injEq, Option.some.injEq]
    constructor
    · rintro rfl
      exact ⟨rfl, rfl⟩
    · rintro ⟨rfl, hid⟩
      rw [hid]

/-- The allocations of sessions are those of its members. -/
lemma mem_sessionAllocations (h : sessionAllocations xs = .ok as) (a : SessionAllocation) :
    a ∈ as ↔ ∃ x ∈ xs, x.resourceSlot = some a.resourceSlot ∧ x.id = a.id := by
  induction xs generalizing as with
  | nil =>
    cases h
    simp
  | cons x xs ih =>
    obtain ⟨b, hb, h⟩ := bind_eq_ok.mp h
    obtain ⟨bs, hbs, h⟩ := bind_eq_ok.mp h
    cases h
    have hhead : a = b ↔ x.resourceSlot = some a.resourceSlot ∧ x.id = a.id := by
      rw [← sessionAllocation_eq_ok, hb, Except.ok.injEq, eq_comm]
    rw [mem_cons, ih hbs, hhead]
    simp

/-- Every session of a list whose allocations are returned has a slot. -/
lemma slot_of_sessionAllocations (h : sessionAllocations xs = .ok as) (hx : x ∈ xs) :
    ∃ slot, x.resourceSlot = some slot ∧ ⟨x.id, slot⟩ ∈ as := by
  induction xs generalizing as with
  | nil => cases hx
  | cons y xs ih =>
    obtain ⟨b, hb, h⟩ := bind_eq_ok.mp h
    obtain ⟨bs, hbs, h⟩ := bind_eq_ok.mp h
    cases h
    rcases mem_cons.mp hx with rfl | hx
    · obtain ⟨hslot, hid⟩ := sessionAllocation_eq_ok.mp hb
      exact ⟨b.resourceSlot, hslot, by rw [hid]; exact mem_cons_self⟩
    · obtain ⟨slot, hslot, hmem⟩ := ih hbs hx
      exact ⟨slot, hslot, mem_cons_of_mem _ hmem⟩

/-- Where all sessions have a slot, the allocations are returned. -/
lemma exists_sessionAllocations (h : ∀ x ∈ xs, ∃ slot, x.resourceSlot = some slot) :
    ∃ as, sessionAllocations xs = .ok as := by
  induction xs with
  | nil => exact ⟨[], rfl⟩
  | cons x xs ih =>
    obtain ⟨slot, hslot⟩ := h x mem_cons_self
    obtain ⟨as, has⟩ := ih fun y hy => h y (mem_cons_of_mem _ hy)
    have hx : sessionAllocation x = .ok ⟨x.id, slot⟩ := sessionAllocation_eq_ok.mpr ⟨hslot, rfl⟩
    exact ⟨⟨x.id, slot⟩ :: as, by rw [sessionAllocations, hx, has]; rfl⟩

/-- The allocations name the sessions they are of, in order. -/
lemma map_of_sessionAllocations (h : sessionAllocations xs = .ok as) :
    as.map (fun a => (a.id, some a.resourceSlot)) = xs.map fun x => (x.id, x.resourceSlot) := by
  induction xs generalizing as with
  | nil =>
    cases h
    rfl
  | cons x xs ih =>
    obtain ⟨a, ha, h⟩ := bind_eq_ok.mp h
    obtain ⟨rest, hrest, h⟩ := bind_eq_ok.mp h
    cases h
    obtain ⟨hslot, hid⟩ := sessionAllocation_eq_ok.mp ha
    rw [map_cons, map_cons, ih hrest, hslot, hid]

/-! ### Slots -/

/-- The lowest free slot is below the bound and not used. -/
lemma lowestFreeSlot_spec (h : lowestFreeSlot used maxSessions = some slot) :
    slot < maxSessions ∧ slot ∉ used := by
  refine ⟨mem_range.mp (mem_of_find?_eq_some h), ?_⟩
  simpa using find?_some h

/-- With fewer slots in use than there are, one is free. -/
lemma exists_lowestFreeSlot (h : used.length < maxSessions) :
    ∃ slot, lowestFreeSlot used maxSessions = some slot := by
  rw [← Option.isSome_iff_exists, lowestFreeSlot, find?_isSome]
  by_contra hnone
  simp only [not_exists, not_and, Bool.not_eq_true, Bool.not_eq_false'] at hnone
  -- otherwise all of `0, …, maxSessions - 1` are in use
  have hsub : List.range maxSessions ⊆ used := by
    intro slot hslot
    simpa using hnone slot hslot
  have hle := (List.nodup_range.subperm hsub).length_le
  rw [length_range] at hle
  omega

lemma length_filterMap_resourceSlot_le (xs : List SessionRecord) :
    (xs.filterMap SessionRecord.resourceSlot).length ≤ xs.length := length_filterMap_le _ _

/-- **Slot allocation.**  While fewer sessions than slots are recorded, a slot is found. -/
theorem exists_nextResourceSlot (h : s.sessions.length < maxSessions) :
    ∃ slot, nextResourceSlot s maxSessions = some slot :=
  exists_lowestFreeSlot (lt_of_le_of_lt (length_filterMap_resourceSlot_le _) h)

/-! ### Grants -/

/-- The limits that an admin asks for are within what the node allows. -/
structure WithinLimits (cfg : Config) (maxConnections validForMinutes : ℕ)
    (protocols : ProtocolAccess) (allowance : Option DataAllowance) : Prop where
  maxConnections : maxConnections ≠ 0 ∧ maxConnections ≤ cfg.maxSessions
  validForMinutes : validForMinutes ≠ 0 ∧ validForMinutes ≤ maxAccessGrantValidityMinutes
  protocols : protocols.isValid = true
  allowance : allowance.all DataAllowance.isValid = true

lemma newGrant_eq_ok {record : AccessGrantRecord} :
    newGrant cfg request now code secretHash = .ok record ↔
      ∃ label parts, validateText request.label "label" maxLabelLength = .ok label ∧
        WithinLimits cfg request.maxConnections request.validForMinutes request.protocols
          request.allowance ∧ splitAccessCode code = some parts ∧
        record = ⟨parts.id, secretHash, label, request.maxConnections,
          some (saturatingAdd now (request.validForMinutes * 60)), now, false, request.protocols,
          request.allowance, request.allowance.map fun _ => now, none⟩ := by
  unfold newGrant validateMaxConnections validateProtocols validateAllowance
  simp only [bind_eq_ok, require_eq_ok, decide_eq_true_iff]
  constructor
  · rintro ⟨label, hlabel, -, hmax, -, hminutes, -, hprotocols, -, hallowance, h⟩
    cases hcode : splitAccessCode code with
    | none =>
      rw [hcode] at h
      cases h
    | some parts =>
      rw [hcode] at h
      cases h
      exact ⟨label, parts, hlabel, ⟨hmax, hminutes, hprotocols, hallowance⟩, rfl, rfl⟩
  · rintro ⟨label, parts, hlabel, hlimits, hcode, rfl⟩
    refine ⟨label, hlabel, (), hlimits.maxConnections, (), hlimits.validForMinutes, (),
      hlimits.protocols, (), hlimits.allowance, ?_⟩
    rw [hcode]
    rfl

/-- The state with one more grant. -/
def withGrant (s : PersistedState) (record : AccessGrantRecord) : PersistedState :=
  { s with grants := s.grants ++ [record] }

lemma createGrant_eq_ok {response : CreateAccessGrantResponse} :
    createGrant cfg s request now code secretHash = .ok (next, response) ↔
      ∃ record, newGrant cfg request now code secretHash = .ok record ∧
        (∀ g ∈ s.grants, g.id ≠ record.id) ∧ next = withGrant s record ∧
        response = ⟨record.id, code, record.label, request.maxConnections, request.validForMinutes,
          saturatingAdd now (request.validForMinutes * 60), now, request.protocols,
          request.allowance⟩ := by
  have hfresh : ∀ record : AccessGrantRecord, (!(s.grants.any fun g => g.id == record.id)) = true ↔
      ∀ g ∈ s.grants, g.id ≠ record.id := by
    intro record
    simp
  unfold createGrant insertGrant
  simp only [bind_eq_ok, require_eq_ok, hfresh]
  constructor
  · rintro ⟨record, hrecord, next', ⟨-, hnew, hnext⟩, h⟩
    cases hnext
    cases h
    exact ⟨record, hrecord, hnew, rfl, rfl⟩
  · rintro ⟨record, hrecord, hnew, rfl, rfl⟩
    exact ⟨record, hrecord, _, ⟨(), hnew, rfl⟩, rfl⟩

lemma createGrant_spec {response : CreateAccessGrantResponse}
    (h : createGrant cfg s request now code secretHash = .ok (next, response)) :
    ∃ record : AccessGrantRecord, record.paused = false ∧ (∀ g ∈ s.grants, g.id ≠ record.id) ∧
      next = withGrant s record := by
  obtain ⟨record, hrecord, hfresh, rfl, -⟩ := createGrant_eq_ok.mp h
  obtain ⟨_, _, -, -, -, rfl⟩ := newGrant_eq_ok.mp hrecord
  exact ⟨_, rfl, hfresh, rfl⟩

lemma revokeGrant_spec (h : revokeGrant s id = .ok (next, ended)) :
    sessionAllocations (s.sessions.filter fun x => x.grantId == id) = .ok ended ∧
      next = { s with
        grants := s.grants.filter fun g => !(g.id == id)
        sessions := s.sessions.filter fun x => !(x.grantId == id) } := by
  obtain ⟨-, h⟩ := require_bind_eq_ok.mp h
  obtain ⟨revoked, hrevoked, h⟩ := bind_eq_ok.mp h
  cases h
  exact ⟨hrevoked, rfl⟩

/-! ### Changes to a grant -/

namespace GrantAdmin

/-- When every session is to end, the loop ends every one. -/
lemma ending_true (maxConnections now active : ℕ) (xs : List SessionRecord) :
    ending true maxConnections now active xs = xs.map SessionRecord.id := by
  induction xs generalizing active with
  | nil => rfl
  | cons x xs ih => simp [ending, ih]

/-- What the loop leaves live is within the limit. -/
lemma length_live_le (now : ℕ) (endAll : Bool) {maxConnections active : ℕ}
    {xs : List SessionRecord} (hids : (xs.map SessionRecord.id).Nodup)
    (hactive : active ≤ maxConnections) :
    active + (xs.filter fun x =>
      x.isLive now && !((ending endAll maxConnections now active xs).contains x.id)).length
        ≤ maxConnections := by
  induction xs generalizing active with
  | nil => simpa using hactive
  | cons x xs ih =>
    obtain ⟨hx, hxs⟩ := nodup_cons.mp hids
    have hother : ∀ (ids : List String) (y : SessionRecord), y ∈ xs →
        ((x.id :: ids).contains y.id) = ids.contains y.id := by
      intro ids y hy
      have hne : y.id ≠ x.id := fun heq => hx (mem_map.mpr ⟨y, hy, heq⟩)
      simp [hne]
    by_cases hend : (endAll || (x.isLive now && decide (maxConnections ≤ active))) = true
    · have hids' : ending endAll maxConnections now active (x :: xs)
          = x.id :: ending endAll maxConnections now active xs := if_pos hend
      have hrest := ih hxs hactive
      rw [hids', filter_cons_of_neg (by simp)]
      rwa [filter_congr fun y hy => by rw [hother _ y hy]]
    · have hids' : ending endAll maxConnections now active (x :: xs)
          = ending endAll maxConnections now (if x.isLive now then active + 1 else active) xs :=
        if_neg hend
      rw [hids']
      by_cases hlive : x.isLive now = true
      · rw [if_pos hlive]
        have hlt : active + 1 ≤ maxConnections := by
          simp only [hlive, Bool.true_and, Bool.or_eq_true, decide_eq_true_eq, not_or,
            not_le] at hend
          exact hend.2
        have hrest := ih hxs hlt
        rw [filter_cons]
        split
        · rw [length_cons]
          omega
        · omega
      · rw [if_neg hlive, filter_cons_of_neg (by simp [hlive])]
        exact ih hxs hactive

/-- The state after a change: the grant is replaced, its sessions are cut to its end, and those
that the loop chose are gone. -/
def changed (s : PersistedState) (grant : AccessGrantRecord) (id : String)
    (changes : UpdateAccessGrantRequest) (now : ℕ) : PersistedState :=
  let g := changeGrant grant changes now
  let sessions := s.sessions.map (cutLease id g.expiresAt)
  let ids := ending (endsAll grant changes now) g.maxConnections now 0
    ((sessions.filter fun x => x.grantId = id).insertionSort olderOrEqual)
  { s with
    grants := replaceGrant id g s.grants
    sessions := sessions.filter fun x => x.id ∉ ids }

variable {changes : UpdateAccessGrantRequest} {id : String} {now : ℕ} {grant : AccessGrantRecord}
  {y : SessionRecord}

/-- The sessions that are chosen are handed over, with their leases cut. -/
lemma apply_spec {ended : List SessionAllocation} (h : apply s id changes now = .ok (next, ended)) :
    ∃ grant, s.findGrant id = some grant ∧ next = changed s grant id changes now ∧
      ∃ q : SessionRecord → Bool,
        let sessions := s.sessions.map (cutLease id (changeGrant grant changes now).expiresAt)
        sessionAllocations (sessions.filter q) = .ok ended ∧
          next.sessions = sessions.filter fun x => !(q x) := by
  unfold apply at h
  cases hfind : s.findGrant id with
  | none =>
    rw [hfind] at h
    cases h
  | some grant =>
    rw [hfind] at h
    obtain ⟨ended', hended, h⟩ := bind_eq_ok.mp h
    cases h
    exact ⟨grant, rfl, rfl, _, hended, by simp only [decide_not]⟩

@[simp] lemma identity_cutLease (id : String) (expiresAt : Option ℕ) (x : SessionRecord) :
    (cutLease id expiresAt x).identity = x.identity := by
  unfold cutLease
  split <;> rfl

@[simp] lemma id_cutLease (id : String) (expiresAt : Option ℕ) (x : SessionRecord) :
    (cutLease id expiresAt x).id = x.id :=
  SessionRecord.id_eq_of_identity_eq (identity_cutLease id expiresAt x)

@[simp] lemma grantId_cutLease (id : String) (expiresAt : Option ℕ) (x : SessionRecord) :
    (cutLease id expiresAt x).grantId = x.grantId :=
  SessionRecord.grantId_eq_of_identity_eq (identity_cutLease id expiresAt x)

/-- A grant after the change is the changed one or an old one, with another identifier if no two
have the same. -/
lemma mem_replaceGrant {g g' : AccessGrantRecord} {grants : List AccessGrantRecord}
    (h : g' ∈ replaceGrant id g grants) : g' = g ∨ g' ∈ grants ∧
      ((grants.map AccessGrantRecord.id).Nodup → g'.id ≠ id) := by
  induction grants with
  | nil => cases h
  | cons grant grants ih =>
    unfold replaceGrant at h
    split at h
    · rename_i heq
      rcases mem_cons.mp h with h | h
      · exact .inl h
      · refine .inr ⟨mem_cons_of_mem _ h, fun hids hid => (nodup_cons.mp hids).1 ?_⟩
        exact mem_map.mpr ⟨g', h, hid.trans heq.symm⟩
    · rename_i hne
      rcases mem_cons.mp h with rfl | h
      · exact .inr ⟨mem_cons_self, fun _ => hne⟩
      · rcases ih h with h | ⟨h, hids⟩
        · exact .inl h
        · exact .inr ⟨mem_cons_of_mem _ h, fun hnodup => hids (nodup_cons.mp hnodup).2⟩

/-- A session that is left comes from one that was there. -/
lemma mem_changed (h : y ∈ (changed s grant id changes now).sessions) :
    ∃ x ∈ s.sessions, y = cutLease id (changeGrant grant changes now).expiresAt x := by
  obtain ⟨x, hx, rfl⟩ := mem_map.mp (mem_of_mem_filter h)
  exact ⟨x, hx, rfl⟩

/-- When the change ends every session of the grant, none is left. -/
lemma grantId_ne_of_endsAll (hall : endsAll grant changes now = true)
    (h : y ∈ (changed s grant id changes now).sessions) : y.grantId ≠ id := by
  intro hid
  obtain ⟨hy, hout⟩ := List.mem_filter.mp h
  rw [hall, ending_true, decide_eq_true_eq] at hout
  refine hout (mem_map_of_mem ((mem_insertionSort _).mpr ?_))
  exact List.mem_filter.mpr ⟨hy, decide_eq_true hid⟩

end GrantAdmin

lemma updateGrant_spec {changes : UpdateAccessGrantRequest} {summary : AccessGrantSummary}
    (h : updateGrant cfg s id changes now = .ok (next, summary, ended)) :
    ∃ changes', GrantAdmin.apply s id changes' now = .ok (next, ended) := by
  obtain ⟨changes', -, h⟩ := bind_eq_ok.mp h
  obtain ⟨⟨next', ended'⟩, happly, h⟩ := bind_eq_ok.mp h
  simp only at h
  split at h
  · cases h
  · cases h
    exact ⟨changes', happly⟩

/-! ### Sessions -/

/-- The checks under the lock, with the slot that is found. -/
lemma admission_eq_ok {grantId : String} {grant : AccessGrantRecord} :
    admission cfg s grantId now = .ok (grant, slot) ↔ s.findGrant grantId = some grant ∧
      (grant.expiresAt.all fun expiresAt => decide (now < expiresAt)) = true ∧
      grant.paused = false ∧ grant.usedUpUntil now = none ∧
      countU32 (liveSessions s grant.id now) < grant.maxConnections ∧
      countU32 (s.sessions.filter (SessionRecord.isLive now)) < cfg.maxSessions ∧
        nextResourceSlot s cfg.maxSessions = some slot := by
  unfold admission
  cases hfind : s.findGrant grantId with
  | none => simp
  | some g =>
    simp only [require_bind_eq_ok, Bool.not_eq_true', Option.some.injEq]
    constructor
    · rintro ⟨hexpiry, hpaused, h⟩
      cases hused : g.usedUpUntil now with
      | some resetsAt =>
        rw [hused] at h
        cases h
      | none =>
        simp only [hused, require_bind_eq_ok, decide_eq_true_iff] at h
        obtain ⟨hdevices, hsessions, h⟩ := h
        cases hslot : nextResourceSlot s cfg.maxSessions with
        | none =>
          rw [hslot] at h
          cases h
        | some slot' =>
          rw [hslot] at h
          cases h
          exact ⟨rfl, hexpiry, hpaused, hused, hdevices, hsessions, rfl⟩
    · rintro ⟨rfl, hexpiry, hpaused, hused, hdevices, hsessions, hslot⟩
      simp only [hused, require_bind_eq_ok, decide_eq_true_iff, hslot]
      exact ⟨hexpiry, hpaused, hdevices, hsessions, rfl⟩

/-- A session that is admitted: the expired ones are taken out, the grant has room, and the
new session gets the lowest free slot. -/
lemma admitSession_spec {ticket : EnrollmentTicket} {token scopedSecret : String}
    {created : CreatedSession}
    (h : admitSession C cfg s ticket now token scopedSecret = .ok (next, created)) :
    ∃ grant slot tokenParts dataPlaneParts,
      s.findGrant ticket.grant.id = some grant ∧ grant.paused = false ∧
      countU32 (liveSessions (dropExpiredSessions s now) grant.id now) < grant.maxConnections ∧
      nextResourceSlot (dropExpiredSessions s now) cfg.maxSessions = some slot ∧
      (∀ x ∈ s.sessions, x.isLive now = true → x.id ≠ created.id) ∧
      sessionAllocations (expiredSessions s now) = .ok created.expiredAllocations ∧
      splitSessionToken token = some tokenParts ∧ created.id = tokenParts.id ∧
      created.resourceSlot = slot ∧ created.token = token ∧
      next = { s with sessions := s.sessions.filter (SessionRecord.isLive now) ++
        [newSession C cfg grant slot now ticket.clientName tokenParts dataPlaneParts] } := by
  obtain ⟨_, -, h⟩ := bind_eq_ok.mp h
  cases htoken : splitSessionToken token with
  | none =>
    rw [htoken] at h
    cases h
  | some tokenParts =>
    rw [htoken] at h
    cases hscoped : splitSessionToken (tokenParts.id ++ scopedSecret) with
    | none =>
      simp only [hscoped] at h
      cases h
    | some dataPlaneParts =>
      simp only [hscoped] at h
      obtain ⟨expired, hexpired, h⟩ := bind_eq_ok.mp h
      obtain ⟨⟨grant, slot⟩, hadmission, h⟩ := bind_eq_ok.mp h
      obtain ⟨hfresh, h⟩ := require_bind_eq_ok.mp h
      cases h
      obtain ⟨hfind, -, hpaused, -, hlimit, -, hslot⟩ := admission_eq_ok.mp hadmission
      refine ⟨grant, slot, tokenParts, dataPlaneParts, hfind, hpaused, hlimit, hslot, ?_,
        hexpired, rfl, rfl, rfl, rfl, rfl⟩
      intro x hx hlive heq
      simp only [dropExpiredSessions, Bool.not_eq_true', any_eq_false,
        List.mem_filter, beq_iff_eq, and_imp] at hfresh
      exact hfresh x hx hlive heq

/-- A renewed lease: one session, the first with the ID, has a new end. -/
lemma renewLease_spec {expiresAt : ℕ} {ys : List SessionRecord}
    (h : renewLease id expiresAt xs = some ys) :
    ∃ pre x post, xs = pre ++ x :: post ∧ x.id = id ∧
      ys = pre ++ { x with expiresAt } :: post := by
  induction xs generalizing ys with
  | nil => cases h
  | cons x xs ih =>
    unfold renewLease at h
    split at h
    · rename_i hid
      cases h
      exact ⟨[], x, xs, rfl, hid, rfl⟩
    · obtain ⟨zs, hzs, rfl⟩ := Option.map_eq_some_iff.mp h
      obtain ⟨pre, x', post, rfl, hid, rfl⟩ := ih hzs
      exact ⟨x :: pre, x', post, rfl, hid, rfl⟩

lemma renewSession_spec {view : Except ServiceError SessionView}
    (h : renewSession cfg s ticket now = .ok (next, view)) :
    ∃ pre x post, s.sessions = pre ++ x :: post ∧ x.id = ticket.session.id ∧
      next = { s with
        sessions := pre ++ { x with expiresAt := leaseEnd cfg ticket.grant now } :: post } := by
  simp only [renewSession] at h
  cases hrenew : renewLease ticket.session.id (leaseEnd cfg ticket.grant now) s.sessions with
  | none =>
    rw [hrenew] at h
    cases h
  | some sessions =>
    rw [hrenew] at h
    cases h
    obtain ⟨pre, x, post, hs, hid, rfl⟩ := renewLease_spec hrenew
    exact ⟨pre, x, post, hs, hid, rfl⟩

lemma endSession_spec (h : endSession s ticket = .ok (next, a)) :
    ticket.session.resourceSlot = some a.resourceSlot ∧ ticket.session.id = a.id ∧
      next = { s with sessions := s.sessions.filter fun x => !(x.id == ticket.session.id) } := by
  obtain ⟨a', ha, h⟩ := bind_eq_ok.mp h
  cases h
  obtain ⟨hslot, hid⟩ := sessionAllocation_eq_ok.mp ha
  exact ⟨hslot, hid, rfl⟩

lemma expireSessions_spec {next : Option PersistedState} {expired : List SessionAllocation}
    (h : expireSessions s now = .ok (next, expired)) :
    sessionAllocations (expiredSessions s now) = .ok expired ∧
      ((next = none ∧ expired = []) ∨
        next = some (forgetStaleGrants (dropExpiredSessions s now) now)) := by
  obtain ⟨expired', hexpired, h⟩ := bind_eq_ok.mp h
  simp only at h
  split at h
  · rename_i hnothing
    cases h
    exact ⟨hexpired, .inl ⟨rfl, hnothing.1⟩⟩
  · cases h
    exact ⟨hexpired, .inr rfl⟩

lemma recordUsage_spec {moved : String → Option ℕ} {u : UsageRecorded}
    (h : recordUsage s moved now = .ok u) :
    sessionAllocations (s.sessions.filter (isUsedUp (chargeGrants s moved now) now)) = .ok u.ended ∧
      u.next = { s with
        grants := chargeGrants s moved now
        sessions := s.sessions.filter fun x => !(isUsedUp (chargeGrants s moved now) now x) } := by
  obtain ⟨ended, hended, h⟩ := bind_eq_ok.mp h
  cases h
  exact ⟨hended, rfl⟩

/-- Counting changes only the running totals, and only under an allowance. -/
lemma chargeGrants_eq (s : PersistedState) (moved : String → Option ℕ) (now : ℕ) :
    ∃ usage : AccessGrantRecord → Option PeriodUsage,
      (∀ g, g.allowance = none → usage g = g.usage) ∧
        chargeGrants s moved now = s.grants.map fun g => { g with usage := usage g } := by
  have hadd : ∀ g : AccessGrantRecord, ∃ usage,
      (movedByGrant moved g.id s.sessions none).elim g (fun bytes => g.add bytes now)
        = { g with usage } ∧ (g.allowance = none → usage = g.usage) := by
    intro g
    cases movedByGrant moved g.id s.sessions none with
    | none => exact ⟨g.usage, rfl, fun _ => rfl⟩
    | some bytes => exact g.add_eq bytes now
  choose usage heq hnone using hadd
  refine ⟨usage, hnone, map_congr_left fun g _ => ?_⟩
  rw [← heq g]
  cases movedByGrant moved g.id s.sessions none <;> rfl

end Ket.Server
