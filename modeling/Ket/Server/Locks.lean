import Ket.Lib.System
import Ket.Server.Node

/-!
# The service at the granularity of its lock

A system whose steps are the acquisitions of the state lock.  An operation that takes the lock
once is one step.  `create_session`, `renew_session`, `release_session` and `discard_session`
take it twice: the first step leaves a ticket with what it found, and a later step uses it.  The
times an operation reads are arguments of the step, and so is the outcome of its store.

Every step carries the time at which the lock was acquired.  Nothing here ties the times to
each other; `ClockOk` does, for the results that need a clock that never goes back.
-/

namespace Ket.Server

open Ket.Core Ket.Lib

structure LockState where
  node : Node
  running : Bool
  /-- The time of the last acquisition. -/
  clock : ℕ
  /-- Enrollments between their two acquisitions, with the time of the first. -/
  enrollments : List (EnrollmentTicket × ℕ)
  /-- Operations of a session token between their two acquisitions. -/
  authenticated : List (SessionTicket × ℕ)
deriving DecidableEq

inductive LockAction where
  | createGrant (request : CreateAccessGrantRequest) (now : ℕ) (code secretHash : String)
      (o : StoreOutcome)
  | updateGrant (id : String) (changes : UpdateAccessGrantRequest) (now : ℕ) (o : StoreOutcome)
  | revokeGrant (id : String) (o : StoreOutcome)
  /-- The first acquisition of `create_session`. -/
  | findGrant (accessCode clientName : String)
  /-- The second acquisition of `create_session`. -/
  | admitSession (i now : ℕ) (token scopedSecret : String) (o : StoreOutcome)
  /-- The first acquisition of `renew_session` and `end_session`. -/
  | findSession (token : String)
  /-- The second acquisition of `renew_session`; `authenticate` read the time `checkedAt`. -/
  | renewSession (i checkedAt now : ℕ) (o : StoreOutcome)
  /-- The second acquisition of `end_session`. -/
  | endSession (i checkedAt : ℕ) (o : StoreOutcome)
  | expireSessions (now : ℕ) (o : StoreOutcome)
  | recordUsage (moved : String → Option ℕ) (now : ℕ) (o : StoreOutcome)
  /-- The process ends. -/
  | stop
  /-- The process starts and loads the state file. -/
  | start (now : ℕ) (o : StoreOutcome)

structure LockEvent where
  /-- The time of the acquisition. -/
  time : ℕ
  action : LockAction

namespace LockState

variable (C : Crypto) (cfg : Config)

variable (s : LockState)

/-- An action of the running service. -/
def act : LockAction → Option LockState
  | .createGrant request now code secretHash o =>
    some { s with node := (s.node.createGrant C cfg request now code secretHash o).1 }
  | .updateGrant id changes now o =>
    some { s with node := (s.node.updateGrant C cfg id changes now o).1 }
  | .revokeGrant id o => some { s with node := (s.node.revokeGrant C id o).1 }
  | .findGrant accessCode clientName =>
    match createSessionGrant s.node.state accessCode clientName with
    | .error _ => some s
    | .ok ticket => some { s with enrollments := s.enrollments ++ [(ticket, s.clock)] }
  | .admitSession i now token scopedSecret o =>
    s.enrollments[i]?.map fun ticket =>
      { s with
        enrollments := s.enrollments.eraseIdx i
        node := (s.node.admitSession C cfg ticket.1 now token scopedSecret o).1 }
  | .findSession token =>
    match authenticateLookup C s.node.state token with
    | .error _ => some s
    | .ok ticket => some { s with authenticated := s.authenticated ++ [(ticket, s.clock)] }
  | .renewSession i checkedAt now o =>
    s.authenticated[i]?.map fun ticket =>
      let s := { s with authenticated := s.authenticated.eraseIdx i }
      match authenticateAdmits ticket.1 checkedAt with
      | .error _ => s
      | .ok _ => { s with node := (s.node.renewSession C cfg ticket.1 now o).1 }
  | .endSession i checkedAt o =>
    s.authenticated[i]?.map fun ticket =>
      let s := { s with authenticated := s.authenticated.eraseIdx i }
      match authenticateAdmits ticket.1 checkedAt with
      | .error _ => s
      | .ok _ => { s with node := (s.node.endSession C ticket.1 o).1 }
  | .expireSessions now o => some { s with node := (s.node.expireSessions C now o).1 }
  | .recordUsage moved now o => some { s with node := (s.node.recordUsage C moved now o).1 }
  | .stop => some { s with running := false, enrollments := [], authenticated := [] }
  | .start _ _ => none

/-- A start loads the state file; it may fail and be tried again. -/
def start (now : ℕ) (o : StoreOutcome) : LockState :=
  { s with node := (s.node.load C cfg now o).1, running := (s.node.load C cfg now o).2 }

def step (e : LockEvent) : Option LockState :=
  let s := { s with clock := e.time }
  if s.running then s.act C cfg e.action
  else
    match e.action with
    | .start now o => some (s.start C cfg now o)
    | _ => none

/-- Before the first start there is no state file. -/
def initial : LockState := ⟨Node.initial, false, 0, [], []⟩

/-- The time a step read before or at its acquisition lies between the first acquisition of its
operation and this one. -/
def TimesOk (time : ℕ) : LockAction → Prop
  | .createGrant _ now _ _ _ => now ≤ time
  | .updateGrant _ _ now _ => now ≤ time
  | .admitSession i now _ _ _ => now ≤ time ∧ ∀ ticket ∈ s.enrollments[i]?, ticket.2 ≤ now
  | .renewSession i checkedAt now _ =>
    checkedAt ≤ now ∧ now ≤ time ∧ ∀ ticket ∈ s.authenticated[i]?, ticket.2 ≤ checkedAt
  | .endSession i checkedAt _ =>
    checkedAt ≤ time ∧ ∀ ticket ∈ s.authenticated[i]?, ticket.2 ≤ checkedAt
  | .expireSessions now _ => now ≤ time
  | .recordUsage _ now _ => now ≤ time
  | .start now _ => now ≤ time
  | _ => True

/-- The clock never goes back, and the times an operation reads are readings of it. -/
def ClockOk (e : LockEvent) : Prop := s.clock ≤ e.time ∧ s.TimesOk e.time e.action

instance (s : LockState) (time : ℕ) : (a : LockAction) → Decidable (s.TimesOk time a)
  | .createGrant .. => inferInstanceAs (Decidable (_ ≤ _))
  | .updateGrant .. => inferInstanceAs (Decidable (_ ≤ _))
  | .revokeGrant .. => inferInstanceAs (Decidable True)
  | .findGrant .. => inferInstanceAs (Decidable True)
  | .admitSession .. => inferInstanceAs (Decidable (_ ∧ _))
  | .findSession .. => inferInstanceAs (Decidable True)
  | .renewSession .. => inferInstanceAs (Decidable (_ ∧ _))
  | .endSession .. => inferInstanceAs (Decidable (_ ∧ _))
  | .expireSessions .. => inferInstanceAs (Decidable (_ ≤ _))
  | .recordUsage .. => inferInstanceAs (Decidable (_ ≤ _))
  | .stop => inferInstanceAs (Decidable True)
  | .start .. => inferInstanceAs (Decidable (_ ≤ _))

instance (s : LockState) (e : LockEvent) : Decidable (s.ClockOk e) :=
  inferInstanceAs (Decidable (_ ∧ _))

end LockState

/-- The session of a ticket that `authenticate` admits. -/
def LockState.admitted (l : LockState) (i checkedAt : ℕ) : Option SessionTicket :=
  l.authenticated[i]?.bind fun ticket =>
    if (authenticateAdmits ticket.1 checkedAt).isOk then some ticket.1 else none

/-- The mutation that an action makes, with its ticket. -/
def LockState.mutation (l : LockState) : LockAction → Option Mutation
  | .createGrant request now code secretHash _ => some (.createGrant request now code secretHash)
  | .updateGrant id changes now _ => some (.updateGrant id changes now)
  | .revokeGrant id _ => some (.revokeGrant id)
  | .admitSession i now token scopedSecret _ =>
    l.enrollments[i]?.map fun ticket => .admitSession ticket.1 now token scopedSecret
  | .renewSession i checkedAt now _ => (l.admitted i checkedAt).map (.renewSession · now)
  | .endSession i checkedAt _ => (l.admitted i checkedAt).map .endSession
  | .expireSessions now _ => some (.expireSessions now)
  | .recordUsage moved now _ => some (.recordUsage moved now)
  | _ => none

namespace LockState

variable {C : Crypto} {cfg : Config} {P : PersistedState → Prop} {l l' : LockState}

/-- After a step the clock is at the time of the step. -/
lemma clock_step {e : LockEvent} (h : l.step C cfg e = some l') : l'.clock = e.time := by
  have hact : ∀ {l l' : LockState} {a : LockAction}, l.act C cfg a = some l' → l'.clock = l.clock := by
    intro l l' a h
    cases a with
    | findGrant | findSession =>
      simp only [act] at h
      split at h <;> cases h <;> rfl
    | admitSession =>
      obtain ⟨ticket, -, rfl⟩ := Option.map_eq_some_iff.mp h
      rfl
    | renewSession | endSession =>
      obtain ⟨ticket, -, rfl⟩ := Option.map_eq_some_iff.mp h
      simp only
      split <;> rfl
    | start => cases h
    | _ =>
      obtain rfl := Option.some.inj h
      rfl
  simp only [step] at h
  split at h
  · exact hact h
  · split at h
    · cases h
      rfl
    · cases h

lemma admitted_eq {i checkedAt : ℕ} {ticket : SessionTicket × ℕ} {u : Unit}
    (hticket : l.authenticated[i]? = some ticket)
    (hadmits : authenticateAdmits ticket.1 checkedAt = .ok u) :
    l.admitted i checkedAt = some ticket.1 := by
  simp [admitted, hticket, hadmits, Except.isOk, Except.toBool]

/-- What an action of the running service leaves in memory and in the file is what was there or
what its mutation computed. -/
lemma holds_act {a : LockAction} (hl : l.node.Holds P)
    (hnext : ∀ m next, l.mutation a = some m → Computes C cfg l.node.state m next →
      (m.checks = true → isStorable C next = true) → P next)
    (h : l.act C cfg a = some l') : l'.node.Holds P := by
  cases a with
  | createGrant request now code secretHash o =>
    obtain rfl := Option.some.inj h
    exact hl.transact o fun _ _ h hs => hnext _ _ rfl (.createGrant h) fun _ => hs
  | updateGrant id changes now o =>
    obtain rfl := Option.some.inj h
    exact hl.transact o fun _ _ h hs => hnext _ _ rfl (.updateGrant h) fun _ => hs
  | revokeGrant id o =>
    obtain rfl := Option.some.inj h
    exact hl.transact o fun _ _ h hs => hnext _ _ rfl (.revokeGrant h) fun _ => hs
  | admitSession i now token scopedSecret o =>
    obtain ⟨ticket, hticket, rfl⟩ := Option.map_eq_some_iff.mp h
    exact hl.transact o fun _ _ h hs =>
      hnext _ _ (by rw [mutation, hticket]; rfl) (.admitSession h) fun _ => hs
  | renewSession i checkedAt now o =>
    obtain ⟨ticket, hticket, rfl⟩ := Option.map_eq_some_iff.mp h
    simp only
    split
    · exact hl
    · rename_i hadmits
      exact hl.transact o fun _ _ h hs =>
        hnext _ _ (by rw [mutation, admitted_eq hticket hadmits]; rfl) (.renewSession h) fun _ => hs
  | endSession i checkedAt o =>
    obtain ⟨ticket, hticket, rfl⟩ := Option.map_eq_some_iff.mp h
    simp only
    split
    · exact hl
    · rename_i hadmits
      exact hl.transact o fun _ _ h hs =>
        hnext _ _ (by rw [mutation, admitted_eq hticket hadmits]; rfl) (.endSession h) fun _ => hs
  | expireSessions now o =>
    obtain rfl := Option.some.inj h
    exact hl.expireSessions now o fun _ _ h hs => hnext _ _ rfl (.expireSessions h) fun _ => hs
  | recordUsage moved now o =>
    obtain rfl := Option.some.inj h
    exact hl.recordUsage moved now o fun u h =>
      hnext _ _ rfl (.recordUsage h) fun hchecks => absurd hchecks Bool.false_ne_true
  | stop =>
    cases h
    exact hl
  | start now o => cases h
  | _ =>
    simp only [act] at h
    split at h <;> cases h <;> exact hl

/-- What a step leaves in memory and in the file is what was there, what the step's mutation
computed, or what a start prepared from the file. -/
theorem holds_step {e : LockEvent} (hl : l.node.Holds P)
    (hnext : ∀ m next, l.mutation e.action = some m → Computes C cfg l.node.state m next →
      (m.checks = true → isStorable C next = true) → P next)
    (hstart : ∀ now loaded prepared changed, loadFile C l.node.file = some loaded →
      prepareResourceSlots loaded cfg.maxSessions now = .ok (prepared, changed) → P prepared)
    (h : l.step C cfg e = some l') : l'.node.Holds P := by
  simp only [step] at h
  split at h
  · have hmutation : mutation { l with clock := e.time } e.action = l.mutation e.action := by
      cases e.action <;> rfl
    exact holds_act (l := { l with clock := e.time }) hl (by rwa [hmutation]) h
  · split at h
    · cases h
      exact hl.load _ _ (hstart _)
    · cases h

end LockState

/-- The service at the granularity of its lock. -/
def lockSystem (C : Crypto) (cfg : Config) : System LockState LockEvent :=
  ⟨LockState.initial, LockState.step C cfg⟩

/-! ### A sample node

Concrete settings on which runs can be evaluated. -/

namespace Sample

/-- Hashing that knows one secret hash and gives every token the same digest. -/
def crypto : Crypto where
  isSupportedSecretHash hash := decide (hash = "hash")
  verifySecret _ hash := decide (hash = "hash")
  hashTokenSecret _ := Vector.replicate 32 0

/-- Two sessions, with leases of a minute. -/
def config : Config := ⟨2, 60, by decide, by decide⟩

def code : String := "Grant00001abcdefghijklmnopqrstuv"
def code' : String := "Grant00002abcdefghijklmnopqrstuv"
def secret : String := "0123456789abcdef0123456789abcdef"
def token : String := "Session00001" ++ secret
def token' : String := "Session00002" ++ secret

/-- An invite for two devices and a day, without an allowance. -/
def request : CreateAccessGrantRequest := ⟨"family", 2, 24 * 60, .all, none⟩

/-- Two devices of an invite for two; the lease of the first ends at 71, that of the second a minute
after it was enrolled. -/
def twoDevices (second : ℕ) : List LockEvent :=
  [⟨10, .start 10 .stored⟩, ⟨10, .createGrant request 10 code "hash" .stored⟩,
    ⟨11, .findGrant code "phone"⟩, ⟨11, .admitSession 0 11 token secret .stored⟩,
    ⟨second, .findGrant code "laptop"⟩,
    ⟨second, .admitSession 0 second token' secret .stored⟩]

/-- The change to an invite for one device. -/
def oneDevice : UpdateAccessGrantRequest := { UpdateAccessGrantRequest.unchanged with
  maxConnections := some 1 }

/-- An invite with an allowance of 1 MiB a month. -/
def metered : CreateAccessGrantRequest := { request with allowance := some ⟨2 ^ 20, .month⟩ }

/-- The record of an invite with an allowance of 1 MiB a month, of which nothing is used. -/
def grant : AccessGrantRecord where
  id := "Grant00001"
  secretHash := "hash"
  label := "family"
  maxConnections := 2
  expiresAt := some 86410
  createdAt := 10
  paused := false
  protocols := .all
  allowance := some ⟨2 ^ 20, .month⟩
  allowanceSince := some 10
  usage := none

/-- A session of that invite, which began at 10. -/
def session (id : String) (slot : ℕ) : SessionRecord where
  id
  grantId := grant.id
  secretHash := none
  controlSecretHash := some (Vector.replicate 32 0)
  dataPlaneSecretHash := some (Vector.replicate 32 0)
  resourceSlot := some slot
  clientName := "phone"
  issuedAt := 10
  expiresAt := 70

/-- The invite with two devices. -/
def state : PersistedState :=
  ⟨currentStateSchemaVersion, [grant], [session "Session00001" 0, session "Session00002" 1]⟩

end Sample

end Ket.Server
