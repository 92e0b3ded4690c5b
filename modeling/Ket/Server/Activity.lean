import Ket.Lib.OrderedMap
import Ket.Lib.Recency
import Ket.Server.Ledger
import Ket.Server.Locks

/-!
# The activity log (`ket-server/src/activity.rs` and the notes of `service.rs`)

What devices recently did with each grant.  The log is in memory only; a grant's entries are the
most recent distinct things that happened, each with its count.  The operations of the service note
what they did under the state lock, and forget the grants that are gone.
-/

namespace Ket.Server

open Ket.Core Ket.Lib List

inductive GrantActivityEvent where
  | enrolled
  | checkedIn
  | left
  | leaseEnded
  | endedByChange
  | endedAllowanceUsed
  | refusedWrongCode
  | refusedExpired
  | refusedPaused
  | refusedAllowanceUsed
  | refusedDeviceLimit
  | refusedServerFull
  | refusedUpdateRequired
  | refusedNoProtocol
  | refusedServerUnavailable
  | signedIn
  | signInRefused
  | signInRefusedProtocol
deriving DecidableEq, Repr

/-- One thing that happened, before it is counted. -/
structure Activity where
  event : GrantActivityEvent
  sessionId : Option String
  clientName : String
  protocol : Option TransportProtocol
deriving DecidableEq, Repr

namespace Activity

/-- Something a device did or had done to it through its session. -/
def session (event : GrantActivityEvent) (sessionId clientName : String) : Activity :=
  ⟨event, some sessionId, clientName, none⟩

/-- An enrollment the grant refused, before any session existed. -/
def enrollment (event : GrantActivityEvent) (clientName : String) : Activity :=
  ⟨event, none, clientName, none⟩

/-- `over`. -/
def overProtocol (activity : Activity) (protocol : TransportProtocol) : Activity :=
  { activity with protocol := some protocol }

end Activity

/-- `GrantActivity`: the activity with its count and times.  `same_as` is equality of keys. -/
abbrev GrantActivity := Recency.Entry Activity ℕ

def maxEntriesPerGrant : ℕ := 24

/-- The entries of each grant, the oldest first. -/
abbrev ActivityLog := OrderedMap String (List GrantActivity)

namespace ActivityLog

def entries (log : ActivityLog) (grantId : String) : List GrantActivity :=
  (log.get? grantId).getD []

def record (log : ActivityLog) (grantId : String) (activity : Activity) (now : ℕ) : ActivityLog :=
  OrderedMap.insert log grantId
    (Recency.record maxEntriesPerGrant u32Max (log.entries grantId) activity now)

/-- Forgets every grant that `keep` refuses. -/
def retain (log : ActivityLog) (keep : String → Bool) : ActivityLog := OrderedMap.retain log keep

/-- The grant's entries, newest first. -/
def recent (log : ActivityLog) (grantId : String) : List GrantActivity := (log.entries grantId).reverse

/-! ### Sequences of calls -/

inductive Call where
  | record (grantId : String) (activity : Activity) (now : ℕ)
  | retain (keep : String → Bool)

/-- The log after a sequence of calls, which has the newest first. -/
def after : List Call → ActivityLog
  | [] => .empty
  | .record grantId activity now :: calls => (after calls).record grantId activity now
  | .retain keep :: calls => (after calls).retain keep

/-- The records of a grant since it was last forgotten, the newest first. -/
def history (grantId : String) : List Call → List (Activity × ℕ)
  | [] => []
  | .record grantId' activity now :: calls =>
    if grantId' = grantId then (activity, now) :: history grantId calls else history grantId calls
  | .retain keep :: calls => if keep grantId then history grantId calls else []

/-- The entries of a grant depend on its own records only. -/
lemma entries_after (grantId : String) (calls : List Call) : (after calls).entries grantId =
      Recency.run maxEntriesPerGrant u32Max (history grantId calls) := by
  induction calls with
  | nil => rfl
  | cons call calls ih =>
    cases call with
    | record grantId' activity now =>
      simp only [after, record, history, entries, OrderedMap.get?_insert]
      by_cases h : grantId' = grantId
      · subst h
        rw [if_pos rfl, if_pos rfl, Option.getD_some, Recency.run]
        exact congrArg (Recency.record _ _ · activity now) ih
      · rw [if_neg fun heq => h heq.symm, if_neg h]
        exact ih
    | retain keep =>
      simp only [after, retain, history, entries, OrderedMap.get?_retain]
      split
      · exact ih
      · rfl

end ActivityLog

/-! ### The notes of the service -/

variable (s : PersistedState)

/-- The grants of a state, by their IDs. -/
def PersistedState.hasGrant (grantId : String) : Bool :=
  s.grants.any fun grant => grant.id == grantId

/-- `note`: records the activity if the state still holds the grant. -/
def note (grantId : String) (activity : Activity) (now : ℕ)
    (log : ActivityLog) : ActivityLog :=
  if s.hasGrant grantId then log.record grantId activity now else log

/-- `note_ended`.  The clock is read for each session. -/
def noteEnded (s : PersistedState) (event : GrantActivityEvent) :
    List SessionRecord → (ℕ → ℕ) → ActivityLog → ActivityLog
  | [], _, log => log
  | session :: sessions, clock, log =>
    noteEnded s event sessions (fun i => clock (i + 1))
      (note s session.grantId (.session event session.id session.clientName) (clock 0) log)

/-- `forget_missing_activity`. -/
def forgetMissingActivity (log : ActivityLog) : ActivityLog :=
  log.retain s.hasGrant

/-- `enrollment_refusal`. -/
def enrollmentRefusal : ServiceError → Option GrantActivityEvent
  | .unauthorized => some .refusedWrongCode
  | .grantExpired => some .refusedExpired
  | .grantPaused => some .refusedPaused
  | .allowanceUsed _ => some .refusedAllowanceUsed
  | .grantCapacity => some .refusedDeviceLimit
  | .nodeCapacity => some .refusedServerFull
  | _ => none

/-- What `authenticate_data_plane` records. -/
def signInEvent : Except ServiceError SessionView → GrantActivityEvent
  | .ok _ => .signedIn
  | .error .forbidden => .signInRefusedProtocol
  | .error _ => .signInRefused

/-- The service with its log. -/
structure LoggedNode where
  node : Node
  log : ActivityLog

/-- What is done under the state lock.  `clock` is what `unix_time` gives to the notes. -/
inductive LoggedOperation where
  | createGrant (request : CreateAccessGrantRequest) (now : ℕ) (code secretHash : String)
      (o : StoreOutcome)
  | updateGrant (id : String) (changes : UpdateAccessGrantRequest) (now : ℕ) (o : StoreOutcome)
      (clock : ℕ → ℕ)
  | revokeGrant (id : String) (o : StoreOutcome)
  | admitSession (ticket : EnrollmentTicket) (now : ℕ) (token scopedSecret : String)
      (o : StoreOutcome) (clock : ℕ → ℕ)
  /-- The end of `create_session` after an error. -/
  | noteRefusal (grantId clientName : String) (error : ServiceError) (now : ℕ)
  | renewSession (ticket : SessionTicket) (now : ℕ) (o : StoreOutcome) (clock : ℕ → ℕ)
  /-- `release_session` with `left`, `discard_session` with nothing. -/
  | endSession (ticket : SessionTicket) (event : Option GrantActivityEvent) (o : StoreOutcome)
      (clock : ℕ → ℕ)
  /-- The end of `authenticate_data_plane`. -/
  | noteSignIn (sessionId : String) (result : Except ServiceError SessionView)
      (protocol : TransportProtocol) (now : ℕ)
  | recordActivity (grantId : String) (activity : Activity) (now : ℕ)
  | expireSessions (now : ℕ) (o : StoreOutcome) (clock : ℕ → ℕ)
  | recordUsage (moved : String → Option ℕ) (now : ℕ) (o : StoreOutcome) (clock : ℕ → ℕ)
  /-- A new start of the server, whose log is empty. -/
  | load (now : ℕ) (o : StoreOutcome)

namespace LoggedNode

variable (C : Crypto) (cfg : Config)

/-- The log changes only where the operation succeeds. -/
def afterOk {α : Type} (log : ActivityLog) (notes : PersistedState → α → ActivityLog → ActivityLog)
    (result : Node × Except ServiceError α) : LoggedNode :=
  match result.2 with
  | .ok a => ⟨result.1, notes result.1.state a log⟩
  | .error _ => ⟨result.1, log⟩

def step (n : LoggedNode) : LoggedOperation → LoggedNode
  | .createGrant request now code secretHash o =>
    afterOk n.log (fun _ _ log => log) (n.node.createGrant C cfg request now code secretHash o)
  | .updateGrant id changes now o clock =>
    afterOk n.log (fun s a log => noteEnded s .endedByChange
        (n.node.state.sessions.filter fun session => a.2.any fun e => e.id == session.id) clock log)
      (n.node.updateGrant C cfg id changes now o)
  | .revokeGrant id o =>
    afterOk n.log (fun s _ log => forgetMissingActivity s log) (n.node.revokeGrant C id o)
  | .admitSession ticket now token scopedSecret o clock =>
    afterOk n.log (fun s _ log => noteEnded s .leaseEnded (expiredSessions n.node.state now) clock log)
      (n.node.admitSession C cfg ticket now token scopedSecret o)
  | .noteRefusal grantId clientName error now =>
    match enrollmentRefusal error with
    | some event => { n with
        log := note n.node.state grantId (.enrollment event clientName) now n.log }
    | none => n
  | .renewSession ticket now o clock =>
    afterOk n.log (fun s _ log => note s ticket.grant.id
        (.session .checkedIn ticket.session.id ticket.session.clientName) (clock 0) log)
      (n.node.renewSession C cfg ticket now o)
  | .endSession ticket event o clock =>
    afterOk n.log (fun s _ log => event.elim log fun event =>
        noteEnded s event [ticket.session] clock log)
      (n.node.endSession C ticket o)
  | .noteSignIn sessionId result protocol now =>
    match n.node.state.findSession sessionId with
    | some session => { n with
        log := note n.node.state session.grantId
          ((Activity.session (signInEvent result) session.id session.clientName).overProtocol
            protocol) now n.log }
    | none => n
  | .recordActivity grantId activity now =>
    { n with log := note n.node.state grantId activity now n.log }
  | .expireSessions now o clock =>
    match Server.expireSessions n.node.state now with
    -- nothing has expired: nothing is stored and nothing noted
    | .ok (none, _) => n
    | _ =>
      afterOk n.log (fun s _ log => forgetMissingActivity s
          (noteEnded s .leaseEnded (expiredSessions n.node.state now) clock log))
        (n.node.expireSessions C now o)
  | .recordUsage moved now o clock =>
    afterOk n.log (fun s _ log => noteEnded s .endedAllowanceUsed
        (n.node.state.sessions.filter (isUsedUp (chargeGrants n.node.state moved now) now))
        clock log)
      (n.node.recordUsage C moved now o)
  | .load now o => ⟨(n.node.load C cfg now o).1, .empty⟩

/-- The service after operations, the newest first, from a start with an empty log. -/
def run (start : Node) : List LoggedOperation → LoggedNode
  | [] => ⟨start, .empty⟩
  | operation :: operations => (run start operations).step C cfg operation

end LoggedNode

/-! ### The log holds existing grants only -/

/-- Every grant of the log is one of the state. -/
def Covers (log : ActivityLog) : Prop :=
  ∀ grantId, log.get? grantId ≠ none → s.hasGrant grantId = true

section Covers

variable {s next : PersistedState} {log : ActivityLog}

lemma covers_empty : Covers s (.empty : ActivityLog) := fun _ h => absurd rfl h

lemma Covers.note (h : Covers s log) (grantId : String) (activity : Activity) (now : ℕ) :
    Covers s (note s grantId activity now log) := by
  unfold Server.note
  split
  · rename_i hgrant
    intro id hid
    rw [ActivityLog.record, OrderedMap.get?_insert] at hid
    split at hid
    · rename_i heq
      rw [heq]
      exact hgrant
    · exact h id hid
  · exact h

lemma Covers.noteEnded (h : Covers s log) (event : GrantActivityEvent)
    (sessions : List SessionRecord) (clock : ℕ → ℕ) :
    Covers s (noteEnded s event sessions clock log) := by
  induction sessions generalizing clock log with
  | nil => exact h
  | cons session sessions ih => exact ih (h.note _ _ _) _

/-- Forgetting makes the log cover the state, whatever it held. -/
lemma covers_forgetMissing (s : PersistedState) (log : ActivityLog) :
    Covers s (forgetMissingActivity s log) := by
  intro id hid
  rw [forgetMissingActivity, ActivityLog.retain, OrderedMap.get?_retain] at hid
  split at hid
  · assumption
  · exact absurd rfl hid

lemma Covers.mono (h : Covers s log) (hgrants : ∀ id, s.hasGrant id = true → next.hasGrant id = true) :
    Covers next log := fun id hid => hgrants id (h id hid)

end Covers

/-! ### Which operations keep the grants -/

section Keeps

variable {C : Crypto} {cfg : Config} {s next : PersistedState}

lemma hasGrant_iff {id : String} : s.hasGrant id = true ↔ id ∈ s.grants.map AccessGrantRecord.id := by
  simp [PersistedState.hasGrant]

/-- The grants of `s` are still there in `next`. -/
def Keeps (s next : PersistedState) : Prop := ∀ id, s.hasGrant id = true → next.hasGrant id = true

lemma Keeps.of_ids (h : ∀ id ∈ s.grants.map AccessGrantRecord.id,
    id ∈ next.grants.map AccessGrantRecord.id) : Keeps s next := fun id hid =>
  hasGrant_iff.mpr (h id (hasGrant_iff.mp hid))

lemma Keeps.of_grants_eq (h : next.grants = s.grants) : Keeps s next :=
  .of_ids fun id hid => by rwa [h]

lemma ids_replaceGrant {id : String} {g : AccessGrantRecord} (hg : g.id = id)
    (grants : List AccessGrantRecord) :
    (GrantAdmin.replaceGrant id g grants).map AccessGrantRecord.id =
      grants.map AccessGrantRecord.id := by
  induction grants with
  | nil => rfl
  | cons grant grants ih =>
    rw [GrantAdmin.replaceGrant]
    split
    · rename_i heq
      rw [map_cons, map_cons, hg, heq]
    · rw [map_cons, map_cons, ih]

lemma keeps_createGrant {request : CreateAccessGrantRequest} {now : ℕ} {code secretHash : String}
    {response : CreateAccessGrantResponse}
    (h : createGrant cfg s request now code secretHash = .ok (next, response)) : Keeps s next := by
  obtain ⟨record, -, -, rfl⟩ := createGrant_spec h
  exact .of_ids fun id hid => by simp [withGrant, mem_map.mp hid]

lemma keeps_updateGrant {id : String} {changes : UpdateAccessGrantRequest} {now : ℕ}
    {result : AccessGrantSummary × List SessionAllocation}
    (h : updateGrant cfg s id changes now = .ok (next, result)) : Keeps s next := by
  obtain ⟨changes', happly⟩ := updateGrant_spec h
  obtain ⟨grant, hgrant, rfl, -⟩ := GrantAdmin.apply_spec happly
  have hfound : grant.id = id := by simpa using find?_some hgrant
  have hid : (GrantAdmin.changeGrant grant changes' now).id = id := hfound
  refine .of_ids fun id' hid' => ?_
  show id' ∈ (GrantAdmin.replaceGrant id _ s.grants).map AccessGrantRecord.id
  rw [ids_replaceGrant hid]
  exact hid'

lemma keeps_admitSession {ticket : EnrollmentTicket} {now : ℕ} {token scopedSecret : String}
    {created : CreatedSession}
    (h : admitSession C cfg s ticket now token scopedSecret = .ok (next, created)) :
    Keeps s next := by
  obtain ⟨grant, slot, tokenParts, dataPlaneParts, -, -, -, -, -, -, -, -, -, -, rfl⟩ :=
    admitSession_spec h
  exact .of_grants_eq rfl

lemma keeps_recordUsage {moved : String → Option ℕ} {now : ℕ} {u : UsageRecorded}
    (h : recordUsage s moved now = .ok u) : Keeps s u.next := by
  obtain ⟨-, hnext⟩ := recordUsage_spec h
  obtain ⟨usage, -, hgrants⟩ := chargeGrants_eq s moved now
  refine .of_ids fun id hid => ?_
  rw [hnext, hgrants]
  simpa using hid

end Keeps

namespace LoggedNode

variable {C : Crypto} {cfg : Config} {n : LoggedNode}

/-- The invariant: the log covers the state in memory. -/
def Covered (n : LoggedNode) : Prop := Covers n.node.state n.log

/-- A transaction that succeeds makes its state current before anything is noted. -/
lemma covered_transact {α : Type} {notes : PersistedState → α → ActivityLog → ActivityLog}
    {r : Except ServiceError (PersistedState × α)} (h : n.Covered) (o : StoreOutcome)
    (hok : ∀ next a, r = .ok (next, a) → Covers next (notes next a n.log)) :
    (afterOk n.log notes (n.node.transact C r o)).Covered := by
  cases r with
  | error e => exact h
  | ok result =>
    obtain ⟨next, a⟩ := result
    by_cases hstores : Node.stores C next o = true
    · rw [Node.transact_of_stores hstores]
      exact hok next a rfl
    · rw [Node.transact_of_not_stores hstores]
      exact h

/-- A transaction that keeps the grants may note what it likes. -/
lemma covered_transact_of_keeps {α : Type} {notes : PersistedState → α → ActivityLog → ActivityLog}
    {r : Except ServiceError (PersistedState × α)} (h : n.Covered) (o : StoreOutcome)
    (hkeeps : ∀ next a, r = .ok (next, a) → Keeps n.node.state next)
    (hnotes : ∀ next a, Covers next n.log → Covers next (notes next a n.log)) :
    (afterOk n.log notes (n.node.transact C r o)).Covered :=
  covered_transact h o fun next a hr => hnotes next a (h.mono (hkeeps next a hr))

/-- Counted data is made current also when it is not stored. -/
lemma covered_recordUsage (h : n.Covered) (moved : String → Option ℕ) (now : ℕ) (o : StoreOutcome)
    (event : GrantActivityEvent) (sessions : List SessionRecord) (clock : ℕ → ℕ) :
    (afterOk n.log (fun s _ log => noteEnded s event sessions clock log)
      (n.node.recordUsage C moved now o)).Covered := by
  unfold Node.recordUsage
  split
  · exact h
  · rename_i u hu
    have hcovers : Covers u.next (noteEnded u.next event sessions clock n.log) :=
      (h.mono (keeps_recordUsage hu)).noteEnded event sessions clock
    split
    · by_cases hstores : Node.stores C u.next o = true
      · rw [Node.transact_of_stores hstores]
        exact hcovers
      · rw [Node.transact_of_not_stores hstores]
        exact h
    · exact hcovers

lemma Covered.step (h : n.Covered) (operation : LoggedOperation) :
    (n.step C cfg operation).Covered := by
  cases operation with
  | createGrant request now code secretHash o =>
    exact covered_transact_of_keeps h o (fun _ _ hr => keeps_createGrant hr) fun _ _ hc => hc
  | updateGrant id changes now o clock =>
    exact covered_transact_of_keeps h o (fun _ _ hr => keeps_updateGrant hr) fun _ _ hc =>
      hc.noteEnded _ _ _
  | revokeGrant id o => exact covered_transact h o fun next _ _ => covers_forgetMissing next _
  | admitSession ticket now token scopedSecret o clock =>
    exact covered_transact_of_keeps h o (fun _ _ hr => keeps_admitSession hr) fun _ _ hc =>
      hc.noteEnded _ _ _
  | renewSession ticket now o clock =>
    refine covered_transact_of_keeps h o (fun next _ hr => ?_) fun _ _ hc => hc.note _ _ _
    obtain ⟨_, _, _, -, -, rfl⟩ := renewSession_spec hr
    exact .of_grants_eq rfl
  | endSession ticket event o clock =>
    refine covered_transact_of_keeps h o (fun next _ hr => ?_) fun _ _ hc => ?_
    · obtain ⟨-, -, rfl⟩ := endSession_spec hr
      exact .of_grants_eq rfl
    · cases event with
      | none => exact hc
      | some event => exact hc.noteEnded _ _ _
  | recordActivity grantId activity now => exact Covers.note h _ _ _
  | expireSessions now o clock =>
    simp only [LoggedNode.step]
    split
    · exact h
    · rename_i hsome
      unfold Node.expireSessions
      split
      · exact h
      · rename_i hnone
        exact (hsome _ hnone).elim
      · exact covered_transact h o fun next _ _ => covers_forgetMissing next _
  | recordUsage moved now o clock => exact covered_recordUsage h _ _ _ _ _ _
  | load now o => exact covers_empty
  | _ =>
    simp only [LoggedNode.step]
    split
    · exact Covers.note h _ _ _
    · exact h

lemma covered_run (start : Node) (operations : List LoggedOperation) :
    (run C cfg start operations).Covered := by
  induction operations with
  | nil => exact covers_empty
  | cons operation operations ih => exact ih.step operation

end LoggedNode

/-! ### The log of a grant -/

open Recency in
/-- **The activity log keeps the most recent distinct events.**  After every sequence of calls a
grant has at most its capacity of entries, with distinct keys, in the order in which they were last
recorded, and for the most recent keys.  The count and the times of an entry are those of the
records of its key since it last entered the log; the count stops at the largest that it can hold.
After every run of the service the grants of the log exist. -/
theorem log_keeps_recent (C : Crypto) (cfg : Config) :
    (∀ (calls : List ActivityLog.Call) (grantId : String),
      let entries := (ActivityLog.after calls).entries grantId
      let records := ActivityLog.history grantId calls
      entries.length ≤ maxEntriesPerGrant ∧ (entries.map Entry.key).Nodup ∧
        entries.Pairwise (fun e e' =>
          (records.map Prod.fst).idxOf e'.key < (records.map Prod.fst).idxOf e.key) ∧
        ((ActivityLog.after calls).recent grantId).map Entry.key =
          kept maxEntriesPerGrant (records.map Prod.fst) ∧
        ∀ e ∈ entries, Describes u32Max e (episode maxEntriesPerGrant e.key records)) ∧
      ∀ (start : Node) (operations : List LoggedOperation) (grantId : String),
        (LoggedNode.run C cfg start operations).log.get? grantId ≠ none →
          (LoggedNode.run C cfg start operations).node.state.hasGrant grantId = true := by
  refine ⟨fun calls grantId => ?_, fun start operations => LoggedNode.covered_run start operations⟩
  have hcapacity : 0 < maxEntriesPerGrant := by decide
  have hkeys : ((Recency.run maxEntriesPerGrant u32Max
      (ActivityLog.history grantId calls)).map Entry.key).reverse = _ := keys_run hcapacity _
  have hlength := length_kept_le maxEntriesPerGrant
    ((ActivityLog.history grantId calls).map Prod.fst)
  have hordered := pairwise_kept maxEntriesPerGrant
    ((ActivityLog.history grantId calls).map Prod.fst)
  rw [← hkeys] at hlength hordered
  simp only [ActivityLog.recent, map_reverse, ActivityLog.entries_after]
  refine ⟨by simpa using hlength, nodup_keys_run hcapacity _, ?_, hkeys,
    describes_run hcapacity (by decide) _⟩
  rw [pairwise_reverse, pairwise_map] at hordered
  exact hordered

/-- The log after one thing is recorded again and again. -/
lemma ActivityLog.history_replicate (n : ℕ) (grantId : String) (activity : Activity) (now : ℕ) :
    history grantId (List.replicate n (.record grantId activity now)) =
      List.replicate n (activity, now) := by
  induction n with
  | zero => rfl
  | succ n ih => rw [replicate_succ, history, if_pos rfl, ih, replicate_succ]

namespace Sample

def checkIn : Activity := .session .checkedIn "aaaa" "android/1.2.0"

def refusal : Activity := .enrollment .refusedDeviceLimit "linux/1.2.0"

/-- A check-in, a refusal and another check-in, the newest first. -/
def calls : List ActivityLog.Call :=
  [.record "g" checkIn 200, .record "g" refusal 150, .record "g" checkIn 100]

/-- A check-in with a new invite. -/
def operations : List LoggedOperation :=
  [.recordActivity grant.id checkIn 11, .createGrant request 10 code "hash" .stored]

end Sample

theorem log_keeps_recent_checkIns :
    ((ActivityLog.after Sample.calls).recent "g").map Recency.Entry.key =
        [Sample.checkIn, Sample.refusal] ∧
      (LoggedNode.run Sample.crypto Sample.config .initial Sample.operations).node.state.hasGrant
        Sample.grant.id = true := by
  have h := log_keeps_recent Sample.crypto Sample.config
  refine ⟨(h.1 Sample.calls "g").2.2.2.1.trans (by decide), h.2 _ _ _ ?_⟩
  decide

/-- The entry of one thing that is recorded again and again. -/
lemma exists_count_replicate (n : ℕ) :
    ∃ e ∈ (ActivityLog.after (List.replicate (n + 1) (.record "g" Sample.checkIn 0))).entries "g",
      e.count = min (n + 1) u32Max ∧
        (Recency.episode maxEntriesPerGrant e.key (ActivityLog.history "g"
          (List.replicate (n + 1) (.record "g" Sample.checkIn 0)))).length = n + 1 := by
  have hcapacity : 0 < maxEntriesPerGrant := by decide
  rw [ActivityLog.entries_after, ActivityLog.history_replicate]
  have hmem : Sample.checkIn ∈ (Recency.run maxEntriesPerGrant u32Max
      (List.replicate (n + 1) (Sample.checkIn, 0))).map Recency.Entry.key := by
    rw [← mem_reverse, Recency.keys_run hcapacity, map_replicate, replicate_succ]
    exact Recency.mem_kept_cons hcapacity _ _
  obtain ⟨e, he, hkey⟩ := mem_map.mp hmem
  have hcount := (Recency.describes_run hcapacity (by decide) _ e he).count
  rw [hkey, Recency.episode_replicate hcapacity, length_replicate] at hcount
  refine ⟨e, he, hcount, ?_⟩
  rw [hkey, Recency.episode_replicate hcapacity, length_replicate]

/-- The count of an entry is a `u32` that stops at its largest value: one record later the count is
short by one. -/
theorem count_saturates : ∃ (calls : List ActivityLog.Call) (grantId : String),
      ∃ e ∈ (ActivityLog.after calls).entries grantId,
        e.count ≠ (Recency.episode maxEntriesPerGrant e.key
          (ActivityLog.history grantId calls)).length := by
  obtain ⟨e, he, hcount, hlength⟩ := exists_count_replicate u32Max
  refine ⟨_, _, e, he, ?_⟩
  rw [hcount, hlength]
  omega

end Ket.Server
