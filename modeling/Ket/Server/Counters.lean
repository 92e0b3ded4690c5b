import Ket.Server.Service

/-!
# The counters of enrollments (`api/mod.rs`, `create_session`)

An enrollment is counted as accepted when its session is provisioned, and only then does the server
look for a transport that the invite allows.  If there is none the request is counted again, as
rejected (`counted_twice`).  The counters have 64 bits, which no run fills.
-/

namespace Ket.Server.Api

open Ket.Core Ket.Lib

/-- `Metrics`. -/
structure Metrics where
  accepted : ℕ
  rejected : ℕ
deriving DecidableEq, Repr

def Metrics.accept (m : Metrics) : Metrics := { m with accepted := m.accepted + 1 }
def Metrics.reject (m : Metrics) : Metrics := { m with rejected := m.rejected + 1 }

/-- A request, with what the steps of its enrollment come to. -/
structure EnrollmentRequest where
  /-- `enrollment_nonce` finds none, or one that it can read. -/
  nonceValid : Bool
  dataPlaneReady : Bool
  service : Except ServiceError CreatedSession
  updateRequired : Bool
  provisioned : Bool
  /-- The protocols of the transports that are configured. -/
  offered : List TransportProtocol
  /-- `signed_manifest_response` succeeds. -/
  signed : Bool

inductive EnrollmentAnswer where
  | invalidEnrollmentNonce
  | dataPlaneNotReady
  | refused (e : ServiceError)
  | clientUpdateRequired
  | dataPlaneUnavailable
  | grantProtocolsUnavailable
  | internal
  | manifest
deriving DecidableEq, Repr

/-- `session_transports`, of which only the protocols matter here. -/
def sessionTransports (r : EnrollmentRequest) (created : CreatedSession) : List TransportProtocol :=
  r.offered.filter created.protocols.allows

def createSession (m : Metrics) (r : EnrollmentRequest) : Metrics × EnrollmentAnswer :=
  if !r.nonceValid then (m, .invalidEnrollmentNonce)
  else if !r.dataPlaneReady then (m, .dataPlaneNotReady)
  else
    match r.service with
    | .error e => (m.reject, .refused e)
    | .ok created =>
      if r.updateRequired then (m.reject, .clientUpdateRequired)
      else if !r.provisioned then (m.reject, .dataPlaneUnavailable)
      else if (sessionTransports r created).isEmpty && !created.protocols.isAll then
        (m.accept.reject, .grantProtocolsUnavailable)
      else (m.accept, if r.signed then .manifest else .internal)

/-- The requests that are completed one after another, with their answers. -/
def createSessions (m : Metrics) : List EnrollmentRequest → Metrics × List EnrollmentAnswer
  | [] => (m, [])
  | r :: rest =>
    let (m', answer) := createSession m r
    let (last, answers) := createSessions m' rest
    (last, answer :: answers)

/-- The session is provisioned, and then no manifest can be made of it: the invite is for certain
protocols and the server offers none of them, or the manifest cannot be signed. -/
def EnrollmentRequest.stranded (r : EnrollmentRequest) : Bool :=
  r.nonceValid && r.dataPlaneReady && !r.updateRequired && r.provisioned &&
    match r.service with
    | .error _ => false
    | .ok created =>
      (sessionTransports r created).isEmpty && !created.protocols.isAll || !r.signed

/-- What a request comes to. -/
inductive Counted (m : Metrics) (r : EnrollmentRequest) : Metrics × EnrollmentAnswer → Prop where
  | ignored {answer} (hr : r.stranded = false) (ha : answer ≠ .manifest) : Counted m r (m, answer)
  | rejected {answer} (hr : r.stranded = false) (ha : answer ≠ .manifest) :
    Counted m r (m.reject, answer)
  | twice {answer} (hr : r.stranded = true) (ha : answer ≠ .manifest) :
    Counted m r (m.accept.reject, answer)
  | unsigned {answer} (hr : r.stranded = true) (ha : answer ≠ .manifest) :
    Counted m r (m.accept, answer)
  | returned (hr : r.stranded = false) : Counted m r (m.accept, .manifest)

lemma counted_createSession (m : Metrics) (r : EnrollmentRequest) :
    Counted m r (createSession m r) := by
  obtain ⟨nonceValid, ready, service, updateRequired, provisioned, offered, signed⟩ := r
  cases nonceValid <;> cases ready <;> try exact .ignored rfl nofun
  cases service with
  | error e => cases updateRequired <;> cases provisioned <;> exact .rejected rfl nofun
  | ok created =>
    cases updateRequired <;> cases provisioned <;> try exact .rejected rfl nofun
    -- the session is provisioned
    by_cases hnone : ((offered.filter created.protocols.allows).isEmpty
      && !created.protocols.isAll) = true
    · have heq : createSession m ⟨true, true, .ok created, false, true, offered, signed⟩
          = (m.accept.reject, .grantProtocolsUnavailable) := if_pos hnone
      rw [heq]
      exact .twice (by simp [EnrollmentRequest.stranded, sessionTransports, hnone]) nofun
    · have heq : createSession m ⟨true, true, .ok created, false, true, offered, signed⟩
          = (m.accept, if signed then .manifest else .internal) := if_neg hnone
      rw [heq]
      cases signed with
      | true => exact .returned (by simpa [EnrollmentRequest.stranded, sessionTransports] using hnone)
      | false => exact .unsigned (by simp [EnrollmentRequest.stranded]) nofun

/-- What a request adds to the number of accepted sessions. -/
lemma accepted_createSession (m : Metrics) (r : EnrollmentRequest) :
    (createSession m r).1.accepted = m.accepted
      + (if (createSession m r).2 = .manifest then 1 else 0) + (if r.stranded then 1 else 0) := by
  have h := counted_createSession m r
  generalize createSession m r = result at h ⊢
  cases h with
  | ignored hr ha | rejected hr ha | twice hr ha | unsigned hr ha =>
    simp [hr, ha, Metrics.accept, Metrics.reject]
  | returned hr => simp [hr, Metrics.accept]

/-- A request that is counted both ways is one whose session was provisioned. -/
lemma stranded_of_twice {m : Metrics} {r : EnrollmentRequest}
    (haccepted : m.accepted < (createSession m r).1.accepted)
    (hrejected : m.rejected < (createSession m r).1.rejected) : r.stranded = true := by
  have h := counted_createSession m r
  generalize createSession m r = result at h haccepted hrejected
  cases h with
  | twice hr | unsigned hr => exact hr
  | ignored | rejected => exact absurd haccepted (lt_irrefl _)
  | returned => exact absurd hrejected (lt_irrefl _)

lemma accepted_createSessions (m : Metrics) (run : List EnrollmentRequest) :
    (createSessions m run).1.accepted = m.accepted + (createSessions m run).2.count .manifest
      + run.countP EnrollmentRequest.stranded := by
  induction run generalizing m with
  | nil => rfl
  | cons r rest ih =>
    simp only [createSessions, ih, accepted_createSession, List.count_cons, List.countP_cons,
      beq_iff_eq]
    omega

/-- **When the counters are exact.**  In a run from the start of the server, as many sessions are
counted as accepted as manifests are returned, and no request is counted both ways, exactly when no
session is provisioned of which no manifest can be made. -/
theorem counters_exact (run : List EnrollmentRequest) :
    ((createSessions ⟨0, 0⟩ run).1.accepted = (createSessions ⟨0, 0⟩ run).2.count .manifest ∧
      ∀ r ∈ run, ∀ m, ¬(m.accepted < (createSession m r).1.accepted ∧
        m.rejected < (createSession m r).1.rejected)) ↔ ∀ r ∈ run, r.stranded = false := by
  have hcount : run.countP EnrollmentRequest.stranded = 0 ↔ ∀ r ∈ run, r.stranded = false := by
    simp [List.countP_eq_zero]
  rw [accepted_createSessions, ← hcount]
  constructor
  · -- the first counter alone shows a stranded request
    rintro ⟨haccepted, -⟩
    simpa using haccepted
  · intro hnone
    refine ⟨by simp [hnone], fun r hr m htwice => ?_⟩
    have hstranded := stranded_of_twice htwice.1 htwice.2
    rw [hcount.mp hnone r hr] at hstranded
    cases hstranded

/-- An invite for WireGuard on a server that no longer offers it. -/
theorem counted_twice :
    let created : CreatedSession := ⟨"", "", "", "", 0, [], "", 0, none, .only {.wireGuard}, none⟩
    let r : EnrollmentRequest := ⟨true, true, .ok created, false, true, [.hysteria2], true⟩
    createSessions ⟨0, 0⟩ [r] = (⟨1, 1⟩, [.grantProtocolsUnavailable]) := by
  decide

end Ket.Server.Api
