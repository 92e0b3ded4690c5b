import Ket.Server.Access

/-!
# Sessions that are removed

What becomes of a session whose record is taken out of the state.  The operation that takes it
out hands it back to its caller (`Transfer`); an invite that is forgotten takes no session with
it that is not handed back, since no lease outlives its invite.  And a record that was taken out
does not come back: in memory and in the file, through every interleaving of the acquisitions of
the lock, store failures and restarts (`Gone`).
-/

namespace Ket.Server

open Ket.Core Ket.Lib List

variable {C : Crypto} {cfg : Config} {s next : PersistedState}

variable {ended : List SessionAllocation} {now : ℕ} {token id : String} {op : Access} {m : Mutation}

/-! ### Removed sessions are handed back -/

/-- **Every removed session is handed back.**  In every state that the service reaches, an operation
that succeeds returns each session whose record was there before and is not there after, with the
slot of the record, and returns none whose record is still there. -/
theorem removed_handed_back {C : Crypto} {cfg : Config} {l : LockState}
    (h : (lockSystem C cfg).Reachable (fun _ _ => True) l) (op : Access) (o : StoreOutcome)
    {handed : Handed} (hok : (l.node.access C cfg op o).2 = .ok handed) :
    ∀ x ∈ l.node.state.sessions, (¬ (l.node.access C cfg op o).1.state.Keeps x →
        ∃ a ∈ handed.ended, a.id = x.id ∧ x.resourceSlot = some a.resourceSlot) ∧
      ((l.node.access C cfg op o).1.state.Keeps x → ∀ a ∈ handed.ended, a.id ≠ x.id) := by
  have hback := Node.transfer_of_access (stateInv_of_reachable h).state hok
  exact fun x hx => ⟨hback.removed x hx, hback.present x hx⟩

/-- Two devices are enrolled, and the lease of the first has run out at 75. -/
theorem removed_handed_back_twoEnrolled :
    ∃ l, (lockSystem Sample.crypto Sample.config).Reachable (fun _ _ => True) l ∧
      (l.node.access Sample.crypto Sample.config (.expireSessions 75) .stored).2.toOption.map
        Handed.ended = some [⟨"Session00001", 0⟩] ∧ ∀ x ∈ l.node.state.sessions,
        (l.node.access Sample.crypto Sample.config (.expireSessions 75) .stored).1.state.Keeps x →
          x.id ≠ "Session00001" := by
  obtain ⟨l, hl, hended⟩ := System.exists_reachable_of_run
    (lockSystem Sample.crypto Sample.config) (fun _ _ => True)
    (fun l => (l.node.access Sample.crypto Sample.config (.expireSessions 75)
      .stored).2.toOption.map Handed.ended = some [⟨"Session00001", 0⟩]) (Sample.twoDevices 20)
    (by decide +kernel)
  refine ⟨l, hl, hended, fun x hx hkeeps heq => ?_⟩
  obtain ⟨handed, hok, hids⟩ := Option.map_eq_some_iff.mp hended
  have hback := (removed_handed_back hl _ _ (Mutation.toOption_eq_some.mp hok) x hx).2 hkeeps
  exact hback ⟨"Session00001", 0⟩ (by simp [hids]) heq.symm

/-! ### Removed sessions do not come back -/

/-- The IDs that were generated for sessions, and those whose record was in memory and is not any
more. -/
structure SessionHistory where
  generated : List String
  removed : List String

/-- The IDs of the sessions in the state. -/
def PersistedState.ids (s : PersistedState) : List String := s.sessions.map SessionRecord.id

/-- The ID that an action has generated. -/
def LockAction.generates : LockAction → Option String
  | .admitSession _ _ token _ _ => (splitSessionToken token).map TokenParts.id
  | _ => none

namespace SessionHistory

def none : SessionHistory := ⟨[], []⟩

/-- The history after an event. -/
def after (C : Crypto) (cfg : Config) (h : SessionHistory) (l : LockState) (e : LockEvent) :
    SessionHistory where
  generated := h.generated ++ e.action.generates.toList
  removed := h.removed ++ (l.step C cfg e).elim [] fun l' =>
    l.node.state.ids.filter fun id => !(l'.node.state.ids.contains id)

/-- The event generates no ID again. -/
def Fresh (h : SessionHistory) (e : LockEvent) : Prop := ∀ id ∈ e.action.generates, id ∉ h.generated

instance (h : SessionHistory) (e : LockEvent) : Decidable (h.Fresh e) :=
  inferInstanceAs (Decidable (∀ id ∈ e.action.generates, _))

end SessionHistory

/-- The service at the granularity of its lock, with the sessions that came and went. -/
def sessionSystem (C : Crypto) (cfg : Config) : System (LockState × SessionHistory) LockEvent :=
  (lockSystem C cfg).withHistory SessionHistory.none (SessionHistory.after C cfg)

/-- The ID that a mutation has generated. -/
def Mutation.generates : Mutation → Option String
  | .admitSession _ _ token _ => (splitSessionToken token).map TokenParts.id
  | _ => .none

/-- A record of a computed state was there before, up to its lease, or it is new. -/
lemma session_of_computes (h : Computes C cfg s m next) {y : SessionRecord} (hy : y ∈ next.sessions)
    : (∃ x ∈ s.sessions, x.identity = y.identity) ∨
      y.id ∈ m.generates ∧ m.now = some y.issuedAt := by
  cases h with
  | createGrant h =>
    obtain ⟨record, -, -, rfl⟩ := createGrant_spec h
    exact .inl ⟨y, hy, rfl⟩
  | updateGrant h =>
    obtain ⟨changes, happly⟩ := updateGrant_spec h
    obtain ⟨grant, -, rfl, -⟩ := GrantAdmin.apply_spec happly
    obtain ⟨x, hx, rfl⟩ := GrantAdmin.mem_changed hy
    exact .inl ⟨x, hx, (GrantAdmin.identity_cutLease _ _ x).symm⟩
  | revokeGrant h => exact .inl ((shrinks_revokeGrant h).sessions y hy)
  | admitSession h =>
    obtain ⟨grant, slot, parts, dataPlaneParts, -, -, -, -, -, -, hparts, -, -, -, rfl⟩ :=
      admitSession_spec h
    rcases mem_append.mp hy with hy | hy
    · exact .inl ⟨y, mem_of_mem_filter hy, rfl⟩
    · rw [mem_singleton.mp hy]
      exact .inr ⟨by rw [Mutation.generates, hparts]; rfl, rfl⟩
  | renewSession h => exact .inl ((shrinks_renewSession h).sessions y hy)
  | endSession h => exact .inl ((shrinks_endSession h).sessions y hy)
  | expireSessions h => exact .inl ((shrinks_expireSessions h).sessions y hy)
  | recordUsage h => exact .inl ((shrinks_recordUsage h).sessions y hy)

lemma id_of_computes (h : Computes C cfg s m next) (hid : id ∈ next.ids) :
    id ∈ s.ids ∨ id ∈ m.generates := by
  obtain ⟨y, hy, rfl⟩ := mem_map.mp hid
  rcases session_of_computes h hy with ⟨x, hx, heq⟩ | ⟨hnew, -⟩
  · exact .inl (mem_map.mpr ⟨x, hx, SessionRecord.id_eq_of_identity_eq heq⟩)
  · exact .inr hnew

/-- The ID that an operation has generated for a session. -/
def Access.generates : Access → Option String
  | .createSession _ _ _ token _ => (splitSessionToken token).map TokenParts.id
  | _ => none

lemma Access.generates_of_mutation (hm : op.mutation C s = some m) :
    m.generates = op.generates := by
  cases op with
  | createSession | renewSession | endSession =>
    obtain ⟨ticket, -, rfl⟩ := Option.map_eq_some_iff.mp hm
    rfl
  | _ =>
    cases hm
    rfl

/-- The IDs in memory and in the file after an operation were there before, or it has generated
them. -/
lemma Node.holds_ids_access {n : Node} {o : StoreOutcome} {p : String → Prop}
    (hp : n.Holds fun t => ∀ id ∈ t.ids, p id) (hnew : ∀ id ∈ op.generates, p id) :
    (n.access C cfg op o).1.Holds fun t => ∀ id ∈ t.ids, p id := by
  refine hp.access fun m next hm hcomputes _ id hid => ?_
  rcases id_of_computes hcomputes hid with hid | hid
  · exact hp.state id hid
  · rw [Access.generates_of_mutation hm] at hid
    exact hnew id hid

namespace LockState

variable {l l' : LockState} {e : LockEvent}

lemma generates_of_mutation {a : LockAction} {m : Mutation} (h : l.mutation a = some m) :
    m.generates = a.generates := by
  cases a with
  | admitSession | renewSession | endSession =>
    obtain ⟨t, -, rfl⟩ := Option.map_eq_some_iff.mp h
    rfl
  | createGrant | updateGrant | revokeGrant | expireSessions | recordUsage =>
    cases h
    rfl
  | _ => cases h

/-- The IDs in memory and in the file after a step were there before, or the step has generated
them. -/
lemma holds_ids_step {p : String → Prop} (hl : l.node.Holds (StateInv C cfg))
    (hp : l.node.Holds fun s => ∀ id ∈ s.ids, p id) (hnew : ∀ id ∈ e.action.generates, p id)
    (h : l.step C cfg e = some l') : l'.node.Holds fun s => ∀ id ∈ s.ids, p id := by
  refine holds_step hp ?_ ?_ h
  · intro m next hm hcomputes _ id hid
    rcases id_of_computes hcomputes hid with hid | hid
    · exact hp.state id hid
    · rw [generates_of_mutation hm] at hid
      exact hnew id hid
  · intro now loaded prepared changed hload hprepare id hid
    rw [(hl.file.prepared hload hprepare).1] at hid
    obtain ⟨x, hx, rfl⟩ := mem_map.mp hid
    exact hp.file _ (mem_map_of_mem (mem_of_mem_filter hx))

end LockState

/-- What has become of the sessions in memory is in the file, unless nothing has. -/
def Node.Mirrors (n n' : Node) : Prop :=
  n'.state.ids = n.state.ids ∨ n'.state.ids = n'.file.ids

namespace Node

variable {n : Node} {o : StoreOutcome}

lemma mirrors_transact {α : Type} (r : Except ServiceError (PersistedState × α)) :
    n.Mirrors (n.transact C r o).1 := by
  match r with
  | .error e => exact .inl rfl
  | .ok (next, a) =>
    simp only [transact]
    split
    · exact .inr rfl
    · exact .inl rfl

lemma mirrors_expireSessions (now : ℕ) : n.Mirrors (n.expireSessions C now o).1 := by
  unfold Node.expireSessions
  split
  · exact .inl rfl
  · exact .inl rfl
  · exact mirrors_transact _

/-- Counting that is not stored ends no session. -/
lemma mirrors_recordUsage (moved : String → Option ℕ) (now : ℕ) :
    n.Mirrors (n.recordUsage C moved now o).1 := by
  unfold Node.recordUsage
  split
  · exact .inl rfl
  · rename_i u hu
    split
    · have hm := mirrors_transact (n := n) (C := C) (o := o) (.ok (u.next, u.ended))
      split
      · rename_i n' ended htransact
        rw [htransact] at hm
        exact hm
      · rename_i n' e htransact
        rwa [htransact] at hm
    · rename_i hstores
      obtain ⟨ended, -, heq⟩ := bind_eq_ok.mp hu
      cases heq
      simp only [UsageRecorded.stores, Bool.or_eq_true, not_or, decide_eq_true_eq, not_not,
        filter_eq_nil_iff] at hstores
      refine .inl (congrArg (List.map SessionRecord.id) ?_)
      exact filter_eq_self.mpr fun x hx => by simpa using hstores.1 x hx

/-- A start that stores nothing has found the sessions of the file as they are. -/
lemma mirrors_load (hn : n.Holds (StateInv C cfg)) (now : ℕ) :
    n.Mirrors (n.load C cfg now o).1 := by
  unfold Node.load
  split
  · exact .inl rfl
  · rename_i loaded hload
    split
    · exact .inl rfl
    · rename_i prepared hprepare
      obtain ⟨hprepared, -⟩ := hn.file.prepared hload hprepare
      rw [loadFile_of_stateInv hn.file] at hload
      cases hload
      obtain ⟨used, -, h⟩ := bind_eq_ok.mp hprepare
      obtain ⟨sessions, -, h⟩ := bind_eq_ok.mp h
      have hchanged : (decide ((n.file.sessions.filter (SessionRecord.isLive now)).length
          ≠ n.file.sessions.length) || _) = false := congrArg Prod.snd (Except.ok.inj h)
      have hlength := (Bool.or_eq_false_iff.mp hchanged).1
      simp only [ne_eq, decide_not, Bool.not_eq_false', decide_eq_true_eq] at hlength
      refine .inr ?_
      rw [hprepared]
      exact congrArg (List.map SessionRecord.id) (List.filter_sublist.eq_of_length hlength)
    · split
      · exact .inr rfl
      · exact .inl rfl

end Node

namespace LockState

variable {l l' : LockState} {e : LockEvent}

lemma mirrors_act {a : LockAction} (h : l.act C cfg a = some l') : l.node.Mirrors l'.node := by
  cases a with
  | createGrant | updateGrant | revokeGrant =>
    obtain rfl := Option.some.inj h
    exact Node.mirrors_transact _
  | findGrant | findSession =>
    simp only [act] at h
    split at h <;> cases h <;> exact .inl rfl
  | admitSession =>
    obtain ⟨ticket, -, rfl⟩ := Option.map_eq_some_iff.mp h
    exact Node.mirrors_transact _
  | renewSession | endSession =>
    obtain ⟨ticket, -, rfl⟩ := Option.map_eq_some_iff.mp h
    simp only
    split
    · exact .inl rfl
    · exact Node.mirrors_transact _
  | expireSessions =>
    obtain rfl := Option.some.inj h
    exact Node.mirrors_expireSessions _
  | recordUsage =>
    obtain rfl := Option.some.inj h
    exact Node.mirrors_recordUsage _ _
  | stop =>
    cases h
    exact .inl rfl
  | start => cases h

lemma mirrors_step (hl : l.node.Holds (StateInv C cfg)) (h : l.step C cfg e = some l') :
    l.node.Mirrors l'.node := by
  simp only [step] at h
  split at h
  · exact mirrors_act (l := { l with clock := e.time }) h
  · split at h
    · cases h
      exact Node.mirrors_load hl _
    · cases h

end LockState

/-- The sessions that were removed are neither in memory nor in the file. -/
structure Gone (C : Crypto) (cfg : Config) (s : LockState × SessionHistory) : Prop where
  node : s.1.node.Holds (StateInv C cfg)
  generated : s.1.node.Holds fun t => ∀ id ∈ t.ids, id ∈ s.2.generated
  known : ∀ id ∈ s.2.removed, id ∈ s.2.generated
  absent : s.1.node.Holds fun t => ∀ id ∈ t.ids, id ∉ s.2.removed

lemma Gone.initial : Gone C cfg (LockState.initial, SessionHistory.none) where
  node := ⟨stateInv_empty, stateInv_empty⟩
  generated := ⟨nofun, nofun⟩
  known := nofun
  absent := ⟨nofun, nofun⟩

lemma Gone.step {l l' : LockState} {h : SessionHistory} {e : LockEvent} (hg : Gone C cfg (l, h))
    (hfresh : h.Fresh e) (hstep : l.step C cfg e = some l') :
    Gone C cfg (l', h.after C cfg l e) := by
  have hremoved : (h.after C cfg l e).removed = h.removed ++
      l.node.state.ids.filter fun id => !(l'.node.state.ids.contains id) := by
    simp only [SessionHistory.after, hstep, Option.elim_some]
  have hkept : l'.node.Holds fun t => ∀ id ∈ t.ids, id ∉ h.removed :=
    LockState.holds_ids_step hg.node hg.absent
      (fun id hid hgone => hfresh id hid (hg.known id hgone)) hstep
  refine ⟨?_, ?_, ?_, ?_, ?_⟩
  · exact LockState.holds_step hg.node (fun _ _ _ hc hcheck => hg.node.state.of_computes hc hcheck)
      (fun _ _ _ _ hload hprepare => (hg.node.file.prepared hload hprepare).2) hstep
  · refine LockState.holds_ids_step hg.node ⟨?_, ?_⟩ ?_ hstep
    · exact fun id hid => mem_append_left _ (hg.generated.state id hid)
    · exact fun id hid => mem_append_left _ (hg.generated.file id hid)
    · exact fun id hid => mem_append_right _ (Option.mem_toList.mpr hid)
  · intro id hid
    rw [hremoved] at hid
    refine mem_append_left _ ?_
    rcases mem_append.mp hid with hid | hid
    · exact hg.known id hid
    · exact hg.generated.state id (mem_of_mem_filter hid)
  · intro id hid hgone
    rw [hremoved] at hgone
    rcases mem_append.mp hgone with hgone | hgone
    · exact hkept.state id hid hgone
    · simpa [hid] using of_mem_filter hgone
  · intro id hid hgone
    rw [hremoved] at hgone
    rcases mem_append.mp hgone with hgone | hgone
    · exact hkept.file id hid hgone
    · -- a record that goes from memory goes from the file with it
      obtain ⟨hold, hnew⟩ := List.mem_filter.mp hgone
      have hnew : id ∉ l'.node.state.ids := by simpa using hnew
      rcases LockState.mirrors_step hg.node hstep with heq | heq
      · exact hnew (heq ▸ hold)
      · exact hnew (heq ▸ hid)

/-- A token whose session is not there signs nobody in. -/
lemma refused_of_not_mem {parts : TokenParts} (hparts : splitSessionToken token = some parts)
    (hid : parts.id ∉ s.ids) : authenticateLookup C s token = .error .unauthorized ∧
      ∀ protocol username now,
        authenticateDataPlane C s token protocol username now = .error .unauthorized := by
  have hfind : s.findSession parts.id = none := by
    refine List.find?_eq_none.mpr fun x hx heq => hid ?_
    exact mem_map.mpr ⟨x, hx, by simpa using heq⟩
  refine ⟨by simp only [authenticateLookup, hparts, hfind], fun protocol username now => ?_⟩
  simp only [authenticateDataPlane, hparts, verifyDataPlane, hfind]
  cases username.all fun username => username == parts.id <;> rfl

/-- **No resurrection.**  In every run of the service at the granularity of its lock, with store
failures and restarts, in which no session ID is generated twice, a record that was taken out of
the state is not in it again, and whoever shows a token of the session is refused. -/
theorem no_resurrection {C : Crypto} {cfg : Config} {s : LockState × SessionHistory}
    (hs : (sessionSystem C cfg).Reachable (fun s e => s.2.Fresh e) s) {id : String}
    (hid : id ∈ s.2.removed) : (∀ x ∈ s.1.node.state.sessions, x.id ≠ id) ∧
      ∀ token parts, splitSessionToken token = some parts → parts.id = id →
        authenticateLookup C s.1.node.state token = .error .unauthorized ∧
          ∀ protocol username now, authenticateDataPlane C s.1.node.state token protocol username now
            = .error .unauthorized := by
  have hgone : Gone C cfg s := by
    refine hs.invariant Gone.initial ?_
    rintro ⟨l, h⟩ e ⟨l', h'⟩ - hg hfresh hstep
    obtain ⟨hstep, rfl⟩ := System.withHistory_step.mp hstep
    exact hg.step hfresh hstep
  have habsent : id ∉ s.1.node.state.ids := fun hmem => hgone.absent.state id hmem hid
  refine ⟨fun x hx heq => habsent (mem_map.mpr ⟨x, hx, heq⟩), ?_⟩
  rintro token parts hparts rfl
  exact refused_of_not_mem hparts habsent

/-- A session is released while a renewal and a second release of it have authenticated; both go
on, and the process is restarted. -/
def staleTickets : List LockEvent :=
  [⟨10, .start 10 .stored⟩, ⟨10, .createGrant Sample.request 10 Sample.code "hash" .stored⟩,
    ⟨11, .findGrant Sample.code "phone"⟩,
    ⟨11, .admitSession 0 11 Sample.token Sample.secret .stored⟩,
    ⟨20, .findSession Sample.token⟩, ⟨20, .findSession Sample.token⟩,
    ⟨20, .findSession Sample.token⟩, ⟨21, .endSession 0 20 .stored⟩,
    ⟨21, .renewSession 0 20 21 .stored⟩, ⟨21, .endSession 0 20 .stored⟩,
    ⟨22, .stop⟩, ⟨23, .start 23 .stored⟩]

theorem no_resurrection_staleTickets :
    ∃ s, (sessionSystem Sample.crypto Sample.config).Reachable (fun s e => s.2.Fresh e) s ∧
      "Session00001" ∈ s.2.removed ∧ s.1.running = true ∧
      authenticateLookup Sample.crypto s.1.node.state Sample.token = .error .unauthorized := by
  obtain ⟨s, hs, hid, hrunning⟩ := System.exists_reachable_of_run
    (sessionSystem Sample.crypto Sample.config) (fun s e => s.2.Fresh e)
    (fun s => "Session00001" ∈ s.2.removed ∧ s.1.running = true) staleTickets (by decide +kernel)
  exact ⟨s, hs, hid, hrunning, ((no_resurrection hs hid).2 Sample.token
    ⟨"Session00001", Sample.secret⟩ (by decide +kernel) rfl).1⟩

end Ket.Server
