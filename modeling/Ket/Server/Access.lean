import Ket.Server.StateInvariant

/-!
# The operations of the service as the control plane sees them

To the request handlers each operation of the service is atomic: it changes the state and hands
over sessions, those that it ended, which the caller has to disconnect from the data plane, and
the one that it created.  `Transfer` says that nothing gets lost on the way: a record that was there
before is there after or is handed over as ended, and one that is there after was there before or is
the one that was created.
-/

namespace Ket.Server

open Ket.Core Ket.Lib List

/-- `authenticate`. -/
def authenticate (C : Crypto) (s : PersistedState) (token : String) (now : ℕ) :
    Except ServiceError SessionTicket := do
  let ticket ← authenticateLookup C s token
  authenticateAdmits ticket now
  return ticket

/-- The operations, with what they read and generate. -/
inductive Access where
  | createGrant (request : CreateAccessGrantRequest) (now : ℕ) (code secretHash : String)
  | updateGrant (id : String) (changes : UpdateAccessGrantRequest) (now : ℕ)
  | revokeGrant (id : String)
  | createSession (accessCode clientName : String) (now : ℕ) (token scopedSecret : String)
  | renewSession (token : String) (now : ℕ)
  /-- `release_session` and `discard_session`. -/
  | endSession (token : String) (now : ℕ)
  | expireSessions (now : ℕ)
  | recordUsage (moved : String → Option ℕ) (now : ℕ)

/-- What an operation computes under the lock, once its first lookup has succeeded. -/
def Access.mutation (C : Crypto) (s : PersistedState) : Access → Option Mutation
  | .createGrant request now code secretHash => some (.createGrant request now code secretHash)
  | .updateGrant id changes now => some (.updateGrant id changes now)
  | .revokeGrant id => some (.revokeGrant id)
  | .createSession accessCode clientName now token scopedSecret =>
    (createSessionGrant s accessCode clientName).toOption.map
      fun ticket => .admitSession ticket now token scopedSecret
  | .renewSession token now =>
    (authenticate C s token now).toOption.map fun ticket => .renewSession ticket now
  | .endSession token now => (authenticate C s token now).toOption.map .endSession
  | .expireSessions now => some (.expireSessions now)
  | .recordUsage moved now => some (.recordUsage moved now)

/-- The sessions an operation hands over. -/
structure Handed where
  ended : List SessionAllocation
  created : Option CreatedSession

/-- The part of a created session that the data plane needs. -/
def CreatedSession.allocation (c : CreatedSession) : SessionAllocation := ⟨c.id, c.resourceSlot⟩

namespace Node

variable (C : Crypto) (cfg : Config)

/-- What an operation hands over, out of what it returns. -/
def hand {α : Type} (r : Node × Except ServiceError α) (f : α → Handed) :
    Node × Except ServiceError Handed :=
  (r.1, r.2.map f)

@[simp] lemma hand_snd_eq_ok {α : Type} {r : Node × Except ServiceError α} {f : α → Handed}
    {h : Handed} : (hand r f).2 = .ok h ↔ ∃ a, r.2 = .ok a ∧ f a = h := by
  obtain ⟨n, r⟩ := r
  cases r <;> simp [hand, Except.map]

/-- An operation of the service. -/
def access (n : Node) (op : Access) (o : StoreOutcome) : Node × Except ServiceError Handed :=
  match op with
  | .createGrant request now code secretHash =>
    hand (n.createGrant C cfg request now code secretHash o) fun _ => ⟨[], none⟩
  | .updateGrant id changes now =>
    hand (n.updateGrant C cfg id changes now o) fun r => ⟨r.2, none⟩
  | .revokeGrant id => hand (n.revokeGrant C id o) fun ended => ⟨ended, none⟩
  | .createSession accessCode clientName now token scopedSecret =>
    match createSessionGrant n.state accessCode clientName with
    | .error e => (n, .error e)
    | .ok ticket =>
      hand (n.admitSession C cfg ticket now token scopedSecret o)
        fun created => ⟨created.expiredAllocations, some created⟩
  | .renewSession token now =>
    match authenticate C n.state token now with
    | .error e => (n, .error e)
    | .ok ticket => hand (n.renewSession C cfg ticket now o) fun _ => ⟨[], none⟩
  | .endSession token now =>
    match authenticate C n.state token now with
    | .error e => (n, .error e)
    | .ok ticket => hand (n.endSession C ticket o) fun a => ⟨[a], none⟩
  | .expireSessions now => hand (n.expireSessions C now o) fun ended => ⟨ended, none⟩
  | .recordUsage moved now => hand (n.recordUsage C moved now o) fun ended => ⟨ended, none⟩

end Node

/-- An operation that succeeds has taken the state from `s` to `next`, and has handed sessions
over. -/
inductive Performs (C : Crypto) (cfg : Config) (s : PersistedState) :
    Access → PersistedState → Handed → Prop
  | createGrant {request now code secretHash next response}
      (h : createGrant cfg s request now code secretHash = .ok (next, response)) :
      Performs C cfg s (.createGrant request now code secretHash) next ⟨[], none⟩
  | updateGrant {id changes now next summary ended}
      (h : updateGrant cfg s id changes now = .ok (next, summary, ended)) :
      Performs C cfg s (.updateGrant id changes now) next ⟨ended, none⟩
  | revokeGrant {id next ended} (h : revokeGrant s id = .ok (next, ended)) :
      Performs C cfg s (.revokeGrant id) next ⟨ended, none⟩
  | createSession {accessCode clientName now token scopedSecret ticket next created}
      (h : admitSession C cfg s ticket now token scopedSecret = .ok (next, created)) :
      Performs C cfg s (.createSession accessCode clientName now token scopedSecret) next
        ⟨created.expiredAllocations, some created⟩
  | renewSession {token now ticket next view} (h : renewSession cfg s ticket now = .ok (next, view)) :
      Performs C cfg s (.renewSession token now) next ⟨[], none⟩
  | endSession {token now ticket next a} (hticket : authenticate C s token now = .ok ticket)
      (h : endSession s ticket = .ok (next, a)) :
      Performs C cfg s (.endSession token now) next ⟨[a], none⟩
  | expireNothing {now expired} (h : expireSessions s now = .ok (none, expired)) :
      Performs C cfg s (.expireSessions now) s ⟨expired, none⟩
  | expireSessions {now next expired} (h : expireSessions s now = .ok (some next, expired)) :
      Performs C cfg s (.expireSessions now) next ⟨expired, none⟩
  | recordUsage {moved now u} (h : recordUsage s moved now = .ok u) :
      Performs C cfg s (.recordUsage moved now) u.next ⟨u.ended, none⟩

/-! ### What is recorded -/

/-- The state records a session with this ID and this slot. -/
def PersistedState.Records (s : PersistedState) (a : SessionAllocation) : Prop :=
  ∃ x ∈ s.sessions, x.id = a.id ∧ x.resourceSlot = some a.resourceSlot

instance (s : PersistedState) (a : SessionAllocation) : Decidable (s.Records a) :=
  inferInstanceAs (Decidable (∃ x ∈ s.sessions, _))

variable {C : Crypto} {cfg : Config} {s next : PersistedState} {a b : SessionAllocation}

lemma StateInv.eq_of_slot (hs : StateInv C cfg s) (ha : s.Records a) (hb : s.Records b)
    (h : a.resourceSlot = b.resourceSlot) : a.id = b.id := by
  obtain ⟨x, hx, hxid, hxslot⟩ := ha
  obtain ⟨y, hy, hyid, hyslot⟩ := hb
  have heq : x = y := by
    by_contra hne
    have : Std.Symm fun x y : SessionRecord => x.resourceSlot ≠ y.resourceSlot :=
      ⟨fun _ _ h => h.symm⟩
    exact hs.slots_pairwise.forall hx hy hne (by rw [hxslot, hyslot, h])
  rw [← hxid, ← hyid, heq]

/-- The state has the record of `x`, whatever has become of its lease. -/
def PersistedState.Keeps (s : PersistedState) (x : SessionRecord) : Prop :=
  ∃ y ∈ s.sessions, y.identity = x.identity

instance (s : PersistedState) (x : SessionRecord) : Decidable (s.Keeps x) :=
  inferInstanceAs (Decidable (∃ y ∈ s.sessions, _))

/-- What an operation that takes the state from `s` to `next` hands over: the records that are gone,
each with its slot, and none that is still there, and what it has created. -/
structure Transfer (s next : PersistedState) (h : Handed) : Prop where
  removed : ∀ x ∈ s.sessions, ¬ next.Keeps x →
    ∃ a ∈ h.ended, a.id = x.id ∧ x.resourceSlot = some a.resourceSlot
  present : ∀ x ∈ s.sessions, next.Keeps x → ∀ a ∈ h.ended, a.id ≠ x.id
  added : ∀ y ∈ next.sessions, s.Keeps y ∨ ∃ c ∈ h.created, y.id = c.id ∧
    y.resourceSlot = some c.resourceSlot
  ended : ∀ a ∈ h.ended, s.Records a
  created : ∀ c ∈ h.created, next.Records c.allocation

variable {ended : List SessionAllocation} {now : ℕ} {ticket : SessionTicket} {token : String}

namespace Transfer

variable {h : Handed} (ht : Transfer s next h)
include ht

lemma kept (a : SessionAllocation) (ha : s.Records a) : next.Records a ∨ a ∈ h.ended := by
  obtain ⟨x, hx, hid, hslot⟩ := ha
  by_cases hkeeps : next.Keeps x
  · obtain ⟨y, hy, heq⟩ := hkeeps
    exact .inl ⟨y, hy, (SessionRecord.id_eq_of_identity_eq heq).trans hid,
      (SessionRecord.resourceSlot_eq_of_identity_eq heq).trans hslot⟩
  · obtain ⟨b, hb, hbid, hbslot⟩ := ht.removed x hx hkeeps
    have heq : b = a :=
      SessionAllocation.ext (hbid.trans hid) (Option.some.inj (hbslot.symm.trans hslot))
    exact .inr (heq ▸ hb)

lemma recorded (a : SessionAllocation) (ha : next.Records a) :
    s.Records a ∨ a ∈ h.created.map CreatedSession.allocation := by
  obtain ⟨y, hy, hid, hslot⟩ := ha
  rcases ht.added y hy with ⟨x, hx, heq⟩ | ⟨c, hc, hcid, hcslot⟩
  · exact .inl ⟨x, hx, (SessionRecord.id_eq_of_identity_eq heq).trans hid,
      (SessionRecord.resourceSlot_eq_of_identity_eq heq).trans hslot⟩
  · refine .inr (Option.mem_map.mpr ⟨c, hc, ?_⟩)
    exact SessionAllocation.ext (hcid.symm.trans hid) (Option.some.inj (hcslot.symm.trans hslot))

/-- A session that has ended is recorded after only if one was created with its ID. -/
lemma gone (a : SessionAllocation) (ha : a ∈ h.ended) (b : SessionAllocation)
    (hb : next.Records b) (hid : b.id = a.id) : b ∈ h.created.map CreatedSession.allocation := by
  obtain ⟨y, hy, hyid, hyslot⟩ := hb
  rcases ht.added y hy with ⟨x, hx, heq⟩ | ⟨c, hc, hcid, hcslot⟩
  · refine absurd ?_ (ht.present x hx ⟨y, hy, heq.symm⟩ a ha)
    rw [SessionRecord.id_eq_of_identity_eq heq, hyid, hid]
  · refine Option.mem_map.mpr ⟨c, hc, ?_⟩
    exact SessionAllocation.ext (hcid.symm.trans hyid) (Option.some.inj (hcslot.symm.trans hyslot))

end Transfer

/-- Two states with the same records, whatever their leases are. -/
lemma keeps_of_identity (h : next.sessions.map SessionRecord.identity
    = s.sessions.map SessionRecord.identity) {x : SessionRecord} (hx : x ∈ s.sessions) :
    next.Keeps x := by
  have hx := mem_map_of_mem (f := SessionRecord.identity) hx
  rw [← h] at hx
  exact mem_map.mp hx

lemma Transfer.of_identity (h : next.sessions.map SessionRecord.identity
    = s.sessions.map SessionRecord.identity) : Transfer s next ⟨[], none⟩ :=
  ⟨fun _ hx hgone => absurd (keeps_of_identity h hx) hgone, by simp,
    fun _ hy => .inl (keeps_of_identity h.symm hy), by simp, by simp⟩

lemma Transfer.refl (s : PersistedState) : Transfer s s ⟨[], none⟩ := .of_identity rfl

/-- The operations that take out the sessions with `q` and hand them over.  The leases may be cut
before. -/
lemma transfer_filter {sessions : List SessionRecord} {q : SessionRecord → Bool}
    (hids : (s.sessions.map SessionRecord.id).Nodup)
    (hsessions : sessions.map SessionRecord.identity = s.sessions.map SessionRecord.identity)
    (hended : sessionAllocations (sessions.filter q) = .ok ended)
    (hnext : next.sessions = sessions.filter fun x => !(q x)) :
    Transfer s next ⟨ended, none⟩ := by
  have hids : (sessions.map SessionRecord.id).Nodup := by
    have hcongr := congrArg (List.map SessionRecord.id) hsessions
    simp only [map_map] at hcongr
    exact (hcongr : sessions.map SessionRecord.id = s.sessions.map SessionRecord.id) ▸ hids
  have hback : ∀ y ∈ sessions, s.Keeps y := fun y hy =>
    keeps_of_identity (s := { s with sessions }) hsessions.symm hy
  refine ⟨?_, ?_, ?_, ?_, by simp⟩
  · intro x hx hgone
    have hcut : { s with sessions }.Keeps x := keeps_of_identity hsessions hx
    obtain ⟨y, hy, heq⟩ := hcut
    have hq : q y = true := by
      by_contra hq
      refine hgone ⟨y, ?_, heq⟩
      rw [hnext]
      exact List.mem_filter.mpr ⟨hy, by simpa using hq⟩
    obtain ⟨slot, hslot, ha⟩ := slot_of_sessionAllocations hended (List.mem_filter.mpr ⟨hy, hq⟩)
    refine ⟨_, ha, SessionRecord.id_eq_of_identity_eq heq, ?_⟩
    rw [← SessionRecord.resourceSlot_eq_of_identity_eq heq]
    exact hslot
  · rintro x hx ⟨y, hy, heq⟩ a ha hid
    obtain ⟨z, hz, -, hza⟩ := (mem_sessionAllocations hended a).mp ha
    obtain ⟨hz, hq⟩ := List.mem_filter.mp hz
    rw [hnext] at hy
    obtain ⟨hy, hq'⟩ := List.mem_filter.mp hy
    have hyz : y = z := inj_on_of_nodup_map hids hy hz
      (by rw [SessionRecord.id_eq_of_identity_eq heq, ← hid, hza])
    rw [hyz, hq] at hq'
    cases hq'
  · intro y hy
    rw [hnext] at hy
    exact .inl (hback y (mem_of_mem_filter hy))
  · intro a ha
    obtain ⟨y, hy, hslot, hid⟩ := (mem_sessionAllocations hended a).mp ha
    obtain ⟨x, hx, heq⟩ := hback y (mem_of_mem_filter hy)
    exact ⟨x, hx, (SessionRecord.id_eq_of_identity_eq heq).trans hid,
      (SessionRecord.resourceSlot_eq_of_identity_eq heq).trans hslot⟩

/-- The session that a token authenticates is the one with the ID of the token. -/
lemma authenticate_spec (h : authenticate C s token now = .ok ticket) :
    ∃ parts, splitSessionToken token = some parts ∧
      s.findSession parts.id = some ticket.session := by
  obtain ⟨ticket', hlookup, h⟩ := bind_eq_ok.mp h
  obtain ⟨_, -, h⟩ := bind_eq_ok.mp h
  cases h
  unfold authenticateLookup at hlookup
  split at hlookup
  · cases hlookup
  · rename_i parts hparts
    refine ⟨parts, hparts, ?_⟩
    split at hlookup
    · cases hlookup
    · rename_i session hfind
      split at hlookup
      · cases hlookup
      · split at hlookup
        · obtain ⟨-, heq⟩ := require_bind_eq_ok.mp hlookup
          cases heq
          exact hfind
        · obtain ⟨-, heq⟩ := require_bind_eq_ok.mp hlookup
          cases heq
          exact hfind
        · cases hlookup

lemma mem_of_authenticate (h : authenticate C s token now = .ok ticket) :
    ticket.session ∈ s.sessions := by
  obtain ⟨parts, -, hfind⟩ := authenticate_spec h
  exact mem_of_find?_eq_some hfind

section

variable (hs : StateInv C cfg s)
include hs

/-- A record is issued before its lease runs out. -/
lemma StateInv.issuedAt_lt {x : SessionRecord} (hx : x ∈ s.sessions) :
    x.issuedAt < x.expiresAt := by
  have h := hs.valid.sessions x hx
  simp only [SessionRecord.WellFormed, SessionRecord.validate, require_bind_eq_ok] at h
  obtain ⟨-, -, -, h⟩ := h
  split at h
  · cases h
  · obtain ⟨_, -, h⟩ := bind_eq_ok.mp h
    simp only [require_bind_eq_ok, decide_eq_true_eq] at h
    exact h.2.1

lemma transfer_updateGrant {id : String} {changes : UpdateAccessGrantRequest}
    {summary : AccessGrantSummary}
    (h : updateGrant cfg s id changes now = .ok (next, summary, ended)) :
    Transfer s next ⟨ended, none⟩ := by
  obtain ⟨changes', happly⟩ := updateGrant_spec h
  obtain ⟨grant, -, -, q, hended, hnext⟩ := GrantAdmin.apply_spec happly
  exact transfer_filter hs.valid.sessionIds (by simp [Function.comp_def]) hended hnext

lemma transfer_endSession {a : SessionAllocation}
    (hticket : authenticate C s token now = .ok ticket) (h : endSession s ticket = .ok (next, a)) :
    Transfer s next ⟨[a], none⟩ := by
  have hmem := mem_of_authenticate hticket
  obtain ⟨hslot, hid, rfl⟩ := endSession_spec h
  refine ⟨?_, ?_, fun y hy => .inl ⟨y, mem_of_mem_filter hy, rfl⟩, ?_, by simp⟩
  · intro x hx hgone
    have heq : x.id = ticket.session.id := by
      by_contra hne
      exact hgone ⟨x, List.mem_filter.mpr ⟨hx, by simpa using hne⟩, rfl⟩
    have hx' : x = ticket.session := inj_on_of_nodup_map hs.valid.sessionIds hx hmem heq
    exact ⟨a, mem_singleton_self a, by rw [hx', hid], by rw [hx', hslot]⟩
  · rintro x hx ⟨y, hy, heq⟩ b hb hid'
    have hne : y.id ≠ ticket.session.id := by simpa using of_mem_filter hy
    rw [mem_singleton.mp hb] at hid'
    exact hne (by rw [SessionRecord.id_eq_of_identity_eq heq, ← hid', hid])
  · intro b hb
    rw [mem_singleton.mp hb]
    exact ⟨ticket.session, hmem, hid, hslot⟩

/-- An invite is forgotten after the leases of its sessions have run out. -/
lemma forgetStaleGrants_sessions (now : ℕ) :
    (forgetStaleGrants (dropExpiredSessions s now) now).sessions
      = s.sessions.filter (SessionRecord.isLive now) := by
  refine filter_eq_self.mpr fun x hx => ?_
  obtain ⟨hx, hlive⟩ := List.mem_filter.mp hx
  obtain ⟨g, hg, hid, hexpiry⟩ := hs.valid.grant_of_session hx
  rw [SessionRecord.isLive_eq_true] at hlive
  simp only [Bool.not_eq_true', contains_eq_mem, decide_eq_false_iff_not, mem_map,
    List.mem_filter, not_exists, not_and, and_imp]
  intro g' hg' hstale hid'
  have heq : g' = g := inj_on_of_nodup_map hs.valid.grantIds hg' hg (hid'.trans hid.symm)
  subst heq
  obtain ⟨expiry, hsome, hle⟩ := (Option.any_eq_true _ _).mp hstale
  have hend := hexpiry expiry hsome
  have hpos : 0 < expiredGrantRetentionSeconds := by decide
  have hle := of_decide_eq_true hle
  omega

lemma transfer_expireSessions {expired : List SessionAllocation}
    (h : expireSessions s now = .ok (some next, expired)) : Transfer s next ⟨expired, none⟩ := by
  obtain ⟨hexpired, ⟨h, -⟩ | h⟩ := expireSessions_spec h
  · cases h
  · cases h
    refine transfer_filter hs.valid.sessionIds rfl hexpired ?_
    rw [forgetStaleGrants_sessions hs]
    simp

/-- An enrollment takes out the expired sessions and adds its own.  Its record is none of theirs, even
with the ID of one of them: they were issued before. -/
lemma transfer_admitSession {ticket : EnrollmentTicket} {scopedSecret : String}
    {created : CreatedSession}
    (h : admitSession C cfg s ticket now token scopedSecret = .ok (next, created)) :
    Transfer s next ⟨created.expiredAllocations, some created⟩ := by
  obtain ⟨grant, slot, tokenParts, dataPlaneParts, -, -, -, -, -, hexpired, -, hid, hslot, -, rfl⟩ :=
    admitSession_spec h
  have ht : Transfer s (dropExpiredSessions s now) ⟨created.expiredAllocations, none⟩ :=
    transfer_filter hs.valid.sessionIds rfl hexpired (by simp [dropExpiredSessions])
  refine ⟨fun x hx hgone => ht.removed x hx ?_, ?_, ?_, ht.ended, ?_⟩
  · rintro ⟨y, hy, heq⟩
    exact hgone ⟨y, mem_append_left _ hy, heq⟩
  · rintro x hx ⟨y, hy, heq⟩ a ha
    rcases mem_append.mp hy with hy | hy
    · exact ht.present x hx ⟨y, hy, heq⟩ a ha
    · -- the new record was issued at `now`, so `x` is not expired then
      have hissued : x.issuedAt = now := by
        rw [← SessionRecord.issuedAt_eq_of_identity_eq heq, mem_singleton.mp hy]
        rfl
      have hlive : x.isLive now = true := by
        rw [SessionRecord.isLive_eq_true, ← hissued]
        exact hs.issuedAt_lt hx
      exact ht.present x hx ⟨x, List.mem_filter.mpr ⟨hx, hlive⟩, rfl⟩ a ha
  · intro y hy
    rcases mem_append.mp hy with hy | hy
    · exact .inl ⟨y, mem_of_mem_filter hy, rfl⟩
    · rw [mem_singleton.mp hy]
      exact .inr ⟨created, rfl, hid.symm, congrArg some hslot.symm⟩
  · rintro c ⟨⟩
    exact ⟨_, mem_append_right _ (mem_singleton_self _), hid.symm, congrArg some hslot.symm⟩

end

/-! ### What an operation does -/

/-- What can become of an operation on `n`: its state satisfies the invariant, and it has handed
over what it took from the state or, when it failed, left the state as it was. -/
structure Node.Lands (C : Crypto) (cfg : Config) (n : Node)
    (r : Node × Except ServiceError Handed) : Prop where
  holds : r.1.Holds (StateInv C cfg)
  ok : ∀ h, r.2 = .ok h → Transfer n.state r.1.state h
  error : ∀ e, r.2 = .error e → r.1.state = n.state

namespace Node

variable {n : Node} {o : StoreOutcome} {handed : Handed}

/-- A transaction that succeeds has made current what was computed. -/
lemma exists_of_transact_eq_ok {α : Type} {r : Except ServiceError (PersistedState × α)} {a : α}
    (h : (n.transact C r o).2 = .ok a) :
    ∃ next, r = .ok (next, a) ∧ (n.transact C r o).1.state = next := by
  obtain ⟨next, rfl, hstores⟩ := transact_eq_ok.mp h
  exact ⟨next, rfl, by rw [transact_of_stores hstores]⟩

/-- The operations that store what they compute. -/
lemma performs_of_transact {α : Type} {r : Except ServiceError (PersistedState × α)}
    {f : α → Handed} {op : Access}
    (hr : ∀ next a, r = .ok (next, a) → Performs C cfg n.state op next (f a))
    (h : (hand (n.transact C r o) f).2 = .ok handed) :
    Performs C cfg n.state op (hand (n.transact C r o) f).1.state handed := by
  obtain ⟨a, ha, rfl⟩ := hand_snd_eq_ok.mp h
  obtain ⟨next, hnext, hstate⟩ := exists_of_transact_eq_ok ha
  rw [← hstate] at hnext
  exact hr _ a hnext

/-- **What an operation did.**  Its state is the one that it computed. -/
theorem performs_of_access {op : Access} (h : (n.access C cfg op o).2 = .ok handed) :
    Performs C cfg n.state op (n.access C cfg op o).1.state handed := by
  cases op with
  | createGrant => exact performs_of_transact (fun _ _ => .createGrant) h
  | updateGrant => exact performs_of_transact (fun _ _ => .updateGrant) h
  | revokeGrant => exact performs_of_transact (fun _ _ => .revokeGrant) h
  | createSession =>
    simp only [access] at h ⊢
    split at h
    · cases h
    · exact performs_of_transact (fun _ _ => .createSession) h
  | renewSession =>
    simp only [access] at h ⊢
    split at h
    · cases h
    · exact performs_of_transact (fun _ _ => .renewSession) h
  | endSession =>
    simp only [access] at h ⊢
    split at h
    · cases h
    · rename_i hticket
      exact performs_of_transact (fun _ _ => .endSession hticket) h
  | expireSessions =>
    simp only [access, Node.expireSessions] at h ⊢
    split at h
    · cases h
    · rename_i hexpire
      cases h
      exact .expireNothing hexpire
    · rename_i hexpire
      refine performs_of_transact ?_ h
      rintro _ _ ⟨⟩
      exact .expireSessions hexpire
  | recordUsage =>
    simp only [access, Node.recordUsage] at h ⊢
    split at h
    · cases h
    · rename_i u hu
      split at h
      · rename_i hstores
        rw [if_pos hstores]
        split at h
        · rename_i n' ended htransact
          cases h
          obtain ⟨next, hnext, hstate⟩ := exists_of_transact_eq_ok (congrArg Prod.snd htransact)
          cases hnext
          rw [htransact] at hstate
          change Performs C cfg n.state _ n'.state _
          rw [show n'.state = u.next from hstate]
          exact .recordUsage hu
        · cases h
      · rename_i hstores
        cases h
        rw [if_neg hstores]
        exact .recordUsage hu

/-- Each operation hands over what it takes out. -/
lemma transfer_of_performs {op : Access} (hs : StateInv C cfg s)
    (h : Performs C cfg s op next handed) : Transfer s next handed := by
  cases h with
  | createGrant h =>
    obtain ⟨record, -, -, rfl⟩ := createGrant_spec h
    exact .of_identity rfl
  | updateGrant h => exact transfer_updateGrant hs h
  | revokeGrant h =>
    obtain ⟨hended, rfl⟩ := revokeGrant_spec h
    exact transfer_filter hs.valid.sessionIds rfl hended rfl
  | createSession h => exact transfer_admitSession hs h
  | renewSession h =>
    obtain ⟨pre, x, post, hsessions, -, rfl⟩ := renewSession_spec h
    refine .of_identity ?_
    rw [hsessions]
    simp [SessionRecord.identity]
  | endSession hticket h => exact transfer_endSession hs hticket h
  | expireNothing h =>
    obtain ⟨-, ⟨-, rfl⟩ | h⟩ := expireSessions_spec h
    · exact .refl _
    · cases h
  | expireSessions h => exact transfer_expireSessions hs h
  | recordUsage h =>
    obtain ⟨hended, hnext⟩ := recordUsage_spec h
    exact transfer_filter hs.valid.sessionIds rfl hended (by rw [hnext])

lemma transfer_of_access {op : Access} (hs : StateInv C cfg n.state)
    (h : (n.access C cfg op o).2 = .ok handed) :
    Transfer n.state (n.access C cfg op o).1.state handed :=
  transfer_of_performs hs (performs_of_access h)

/-- What an operation computes it stores or makes current, or neither. -/
lemma Holds.access {P : PersistedState → Prop} {op : Access} (hn : n.Holds P)
    (h : ∀ m next, op.mutation C n.state = some m → Computes C cfg n.state m next →
      (m.checks = true → isStorable C next = true) → P next) : (n.access C cfg op o).1.Holds P := by
  cases op with
  | createGrant =>
    simp only [Node.access, hand, Node.createGrant]
    exact hn.transact o fun next _ hr hst => h _ next rfl (.createGrant hr) fun _ => hst
  | updateGrant =>
    simp only [Node.access, hand, Node.updateGrant]
    exact hn.transact o fun next _ hr hst => h _ next rfl (.updateGrant hr) fun _ => hst
  | revokeGrant =>
    simp only [Node.access, hand, Node.revokeGrant]
    exact hn.transact o fun next _ hr hst => h _ next rfl (.revokeGrant hr) fun _ => hst
  | createSession =>
    simp only [Node.access]
    split
    · exact hn
    · rename_i hticket
      refine hn.transact o fun next _ hr hst => h _ next ?_ (.admitSession hr) fun _ => hst
      simp only [Access.mutation, hticket]
      rfl
  | renewSession =>
    simp only [Node.access]
    split
    · exact hn
    · rename_i hticket
      refine hn.transact o fun next _ hr hst => h _ next ?_ (.renewSession hr) fun _ => hst
      simp only [Access.mutation, hticket]
      rfl
  | endSession =>
    simp only [Node.access]
    split
    · exact hn
    · rename_i hticket
      refine hn.transact o fun next _ hr hst => h _ next ?_ (.endSession hr) fun _ => hst
      simp only [Access.mutation, hticket]
      rfl
  | expireSessions now =>
    exact hn.expireSessions now o fun next _ hr hst => h _ next rfl (.expireSessions hr) fun _ => hst
  | recordUsage moved now =>
    exact hn.recordUsage moved now o fun u hu => h _ _ rfl (.recordUsage hu)
      fun hchecks => absurd hchecks Bool.false_ne_true

lemma state_of_transact_eq_error {α : Type} {r : Except ServiceError (PersistedState × α)}
    {f : α → Handed} {e : ServiceError} (h : (hand (n.transact C r o) f).2 = .error e) :
    (hand (n.transact C r o) f).1.state = n.state := by
  match r with
  | .error _ => rfl
  | .ok (next, a) =>
    by_cases hstores : stores C next o = true
    · rw [transact_of_stores hstores] at h
      cases h
    · rw [transact_of_not_stores hstores]
      rfl

/-- An operation that fails leaves the state as it was. -/
lemma state_of_access_eq_error {op : Access} {e : ServiceError}
    (h : (n.access C cfg op o).2 = .error e) : (n.access C cfg op o).1.state = n.state := by
  cases op with
  | createGrant | updateGrant | revokeGrant => exact state_of_transact_eq_error h
  | createSession | renewSession | endSession =>
    simp only [access] at h ⊢
    split at h
    · rfl
    · exact state_of_transact_eq_error h
  | expireSessions =>
    simp only [access, Node.expireSessions] at h ⊢
    split at h
    · rfl
    · cases h
    · exact state_of_transact_eq_error h
  | recordUsage =>
    simp only [access, Node.recordUsage] at h ⊢
    split at h
    · rfl
    · rename_i u hu
      split at h
      · rename_i hstores
        rw [if_pos hstores]
        split at h
        · cases h
        · rename_i n' e' htransact
          have hstate : (hand (n', (.error e' : Except ServiceError (List SessionAllocation)))
              fun ended => ⟨ended, none⟩).1.state = n.state := by
            rw [← htransact]
            exact state_of_transact_eq_error (by rw [htransact]; rfl)
          exact hstate
      · cases h

/-- **What an operation does.**  It keeps the invariant of the state, and what it takes out of
the state or puts into it it hands over. -/
theorem lands_access (hn : n.Holds (StateInv C cfg)) (op : Access) :
    n.Lands C cfg (n.access C cfg op o) where
  holds := hn.access fun _ _ _ hcomputes hst => hn.state.of_computes hcomputes hst
  ok _ h := transfer_of_access hn.state h
  error _ h := state_of_access_eq_error h

/-- A session that an operation creates has the ID of its token, and is handed over with those that
were found expired. -/
lemma created_of_access {op : Access} {created : CreatedSession}
    (h : (n.access C cfg op o).2 = .ok handed) (hcreated : created ∈ handed.created) :
    handed.ended = created.expiredAllocations ∧
      ∃ accessCode clientName now token scopedSecret parts,
        op = .createSession accessCode clientName now token scopedSecret ∧
          splitSessionToken token = some parts ∧ created.id = parts.id ∧ created.token = token := by
  have hperforms := performs_of_access h
  generalize (n.access C cfg op o).1.state = next at hperforms
  cases hperforms with
  | createSession hadmit =>
    cases hcreated
    obtain ⟨-, -, parts, -, -, -, -, -, -, -, hparts, hid, -, htoken, -⟩ :=
      admitSession_spec hadmit
    exact ⟨rfl, _, _, _, _, _, parts, rfl, hparts, hid, htoken⟩
  | _ => cases hcreated

end Node

end Ket.Server
