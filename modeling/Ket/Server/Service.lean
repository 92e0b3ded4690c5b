import Ket.Server.GrantAdmin
import Ket.Server.Meter

/-!
# The access service (`ket-server/src/service.rs`)

Each operation of the service checks its input and then, under the state lock, computes a next
state from the current one, stores it and makes it current.  Here an operation is the function
that computes the next state and the result; the clock, what is generated at random and the
outcome of a store are arguments.  The lock, the store and the interleaving of operations are
added by the modules above this one.

Two operations take the lock twice: `createSession` first looks the grant up
(`createSessionGrant`) and later admits the session (`admitSession`), and the operations of a
session token first look the session up (`authenticateLookup`) and later change it.  What the
first acquisition found is passed to the second.  The activity log, which is in memory only and
which no operation reads, is added in `Activity`.
-/

namespace Ket.Server

open Ket.Core Ket.Lib

/-- The settings of the node that the service reads, within what `config.rs` admits. -/
structure Config where
  maxSessions : ℕ
  sessionTtl : ℕ
  maxSessions_pos : 1 ≤ maxSessions
  maxSessions_le : maxSessions ≤ u32Max

def expiredGrantRetentionSeconds : ℕ := 7 * 24 * 60 * 60
def usageStoreIntervalSeconds : ℕ := 60

/-! ### Input checks -/

/-- `validate_text`: the trimmed value. -/
def validateText (value field : String) (maximum : ℕ) : Except ServiceError String := do
  let value := Str.trim value
  require (decide (value ≠ "") && decide (Str.len value ≤ maximum) &&
      !(value.toList.any Str.isControl))
    (.invalidInput (field ++ " must contain between 1 and " ++ toString maximum ++
      " printable characters"))
  return value

def validateProtocols (protocols : ProtocolAccess) : Except ServiceError Unit :=
  require protocols.isValid (.invalidInput "protocols must name at least one protocol")

def validateAllowance (allowance : Option DataAllowance) : Except ServiceError Unit :=
  require (allowance.all DataAllowance.isValid)
    (.invalidInput ("allowance bytes must be between " ++ toString minAllowanceBytes ++ " and " ++
      toString maxAllowanceBytes))

variable (cfg : Config)

/-- The check of a device limit, at creation and at a change. -/
def validateMaxConnections (maxConnections : ℕ) : Except ServiceError Unit :=
  require (decide (maxConnections ≠ 0 ∧ maxConnections ≤ cfg.maxSessions))
    (.invalidInput ("max_connections must be between 1 and " ++ toString cfg.maxSessions))

/-! ### Sessions and slots -/

/-- A lease that is still running at `now`. -/
def SessionRecord.isLive (now : ℕ) (session : SessionRecord) : Bool := decide (now < session.expiresAt)

variable (s : PersistedState)

/-- `take_expired_sessions`: what is left of the state. -/
def dropExpiredSessions (now : ℕ) : PersistedState :=
  { s with sessions := s.sessions.filter (SessionRecord.isLive now) }

/-- `take_expired_sessions`: what is taken. -/
def expiredSessions (now : ℕ) : List SessionRecord :=
  s.sessions.filter fun session => !(session.isLive now)

/-- The lowest slot below `maxSessions` that is not among `used`. -/
def lowestFreeSlot (used : List ℕ) (maxSessions : ℕ) : Option ℕ :=
  (List.range maxSessions).find? fun slot => !(used.contains slot)

/-- `next_resource_slot`. -/
def nextResourceSlot (maxSessions : ℕ) : Option ℕ :=
  lowestFreeSlot (s.sessions.filterMap SessionRecord.resourceSlot) maxSessions

/-- The loop of `prepare_resource_slots` that gives a slot to every session without one. -/
def assignSlots (maxSessions : ℕ) (used : List ℕ) :
    List SessionRecord → Except ServiceError (List SessionRecord)
  | [] => .ok []
  | session :: sessions =>
    match session.resourceSlot with
    | some _ => do
        let rest ← assignSlots maxSessions used sessions
        return session :: rest
    | none =>
      match lowestFreeSlot used maxSessions with
      | none => .error (.invalidState "active sessions exceed node resource slots")
      | some slot => do
          let rest ← assignSlots maxSessions (used ++ [slot]) sessions
          return { session with resourceSlot := some slot } :: rest

/-- The loop of `prepare_resource_slots` that collects the slots in use. -/
def checkSlots (maxSessions : ℕ) (used : List ℕ) :
    List SessionRecord → Except ServiceError (List ℕ)
  | [] => .ok used
  | session :: sessions =>
    match session.resourceSlot with
    | none => checkSlots maxSessions used sessions
    | some slot => do
        require (decide (slot < maxSessions))
          (.invalidState "a session resource slot exceeds node capacity")
        require (!(used.contains slot)) (.invalidState "session resource slots are duplicated")
        checkSlots maxSessions (used ++ [slot]) sessions

/-- `prepare_resource_slots`, at the start of the service: the state, and whether it changed. -/
def prepareResourceSlots (maxSessions now : ℕ) :
    Except ServiceError (PersistedState × Bool) := do
  let live := s.sessions.filter (SessionRecord.isLive now)
  let used ← checkSlots maxSessions [] live
  let sessions ← assignSlots maxSessions used live
  return ({ s with sessions },
    decide (live.length ≠ s.sessions.length) || live.any fun session => session.resourceSlot.isNone)

/-- `forget_stale_grants`: an invite that expired at least seven days ago. -/
def isStale (now : ℕ) (g : AccessGrantRecord) : Bool :=
  g.expiresAt.any fun expiresAt => decide (expiredGrantRetentionSeconds ≤ now - expiresAt)

/-- `forget_stale_grants`: what is left of the state. -/
def forgetStaleGrants (now : ℕ) : PersistedState :=
  let forgotten := (s.grants.filter (isStale now)).map AccessGrantRecord.id
  { s with
    grants := s.grants.filter fun g => !(isStale now g)
    sessions := s.sessions.filter fun session => !(forgotten.contains session.grantId) }

/-- `admits`: the lease and the grant are current, the grant is not paused and its allowance
is not used up. -/
def admits (session : SessionRecord) (g : AccessGrantRecord) (now : ℕ) : Bool :=
  session.isLive now && !g.paused && (g.expiresAt.all fun expiry => decide (now < expiry)) &&
    (g.usedUpUntil now).isNone

/-- The sessions of the grant whose lease is still running at `now`. -/
def liveSessions (grantId : String) (now : ℕ) : List SessionRecord :=
  s.sessions.filter fun session => session.grantId == grantId && session.isLive now

/-- When a lease that is granted at `now` ends. -/
def leaseEnd (g : AccessGrantRecord) (now : ℕ) : ℕ :=
  let lease := saturatingAdd now cfg.sessionTtl
  g.expiresAt.elim lease (min lease)

/-- `count() as u32`. -/
def countU32 (sessions : List SessionRecord) : ℕ := truncate32 sessions.length

structure AccessGrantSummary where
  id : String
  label : String
  maxConnections : ℕ
  activeConnections : ℕ
  expiresAt : Option ℕ
  createdAt : ℕ
  paused : Bool
  protocols : ProtocolAccess
  allowance : Option AllowanceStatus
deriving DecidableEq

/-- `grant_summary`. -/
def grantSummary (g : AccessGrantRecord) (now : ℕ) : AccessGrantSummary where
  id := g.id
  label := g.label
  maxConnections := g.maxConnections
  activeConnections := countU32 (liveSessions s g.id now)
  expiresAt := g.expiresAt
  createdAt := g.createdAt
  paused := g.paused
  protocols := g.protocols
  allowance := g.status now

/-! ### Operations on grants -/

structure CreateAccessGrantResponse where
  id : String
  accessCode : String
  label : String
  maxConnections : ℕ
  validForMinutes : ℕ
  expiresAt : ℕ
  createdAt : ℕ
  protocols : ProtocolAccess
  allowance : Option DataAllowance
deriving DecidableEq

/-- The part of `create_grant` before the lock: the record of the new grant.  `code` is the
generated access code and `secretHash` the hash of its secret. -/
def newGrant (request : CreateAccessGrantRequest) (now : ℕ)
    (code secretHash : String) : Except ServiceError AccessGrantRecord := do
  let label ← validateText request.label "label" maxLabelLength
  validateMaxConnections cfg request.maxConnections
  require (decide (request.validForMinutes ≠ 0 ∧
      request.validForMinutes ≤ maxAccessGrantValidityMinutes))
    (.invalidInput ("valid_for_minutes must be between 1 and " ++
      toString maxAccessGrantValidityMinutes))
  validateProtocols request.protocols
  validateAllowance request.allowance
  match splitAccessCode code with
  | none => .error .crypto
  | some parts => return {
      id := parts.id
      secretHash
      label
      maxConnections := request.maxConnections
      expiresAt := some (saturatingAdd now (request.validForMinutes * 60))
      createdAt := now
      paused := false
      protocols := request.protocols
      allowance := request.allowance
      allowanceSince := request.allowance.map fun _ => now
      usage := none }

/-- The part of `create_grant` under the lock. -/
def insertGrant (record : AccessGrantRecord) :
    Except ServiceError PersistedState := do
  require (!(s.grants.any fun grant => grant.id == record.id)) .crypto
  return { s with grants := s.grants ++ [record] }

/-- `create_grant`. -/
def createGrant (s : PersistedState) (request : CreateAccessGrantRequest)
    (now : ℕ) (code secretHash : String) :
    Except ServiceError (PersistedState × CreateAccessGrantResponse) := do
  let record ← newGrant cfg request now code secretHash
  let next ← insertGrant s record
  return (next, {
    id := record.id
    accessCode := code
    label := record.label
    maxConnections := request.maxConnections
    validForMinutes := request.validForMinutes
    expiresAt := saturatingAdd now (request.validForMinutes * 60)
    createdAt := now
    protocols := request.protocols
    allowance := request.allowance })

/-- The checks of `update_grant` before the lock: the changes with the label trimmed. -/
def checkChanges (changes : UpdateAccessGrantRequest) (now : ℕ) :
    Except ServiceError UpdateAccessGrantRequest := do
  require (!changes.isEmpty) (.invalidInput "the request changes nothing")
  let label ← match changes.label with
    | none => pure none
    | some label => some <$> validateText label "label" maxLabelLength
  match changes.maxConnections with
  | none => pure ()
  | some maxConnections => validateMaxConnections cfg maxConnections
  let latestEnd := saturatingAdd now (maxAccessGrantValidityMinutes * 60)
  require (changes.expiresAt.all fun expiresAt =>
    decide (now < expiresAt ∧ expiresAt ≤ latestEnd))
    (.invalidInput "expires_at_epoch_seconds must be in the future and at most 365 days away")
  match changes.protocols with
  | none => pure ()
  | some protocols => validateProtocols protocols
  match changes.allowance with
  | none => pure ()
  | some allowance => validateAllowance allowance
  return { changes with label }

/-- `update_grant`: the changed grant and the sessions the change ended. -/
def updateGrant (s : PersistedState) (id : String)
    (changes : UpdateAccessGrantRequest) (now : ℕ) :
    Except ServiceError (PersistedState × AccessGrantSummary × List SessionAllocation) := do
  let changes ← checkChanges cfg changes now
  let (next, ended) ← GrantAdmin.apply s id changes now
  match next.findGrant id with
  | none => .error .notFound
  | some grant => return (next, grantSummary next grant now, ended)

/-- `revoke_grant`: the sessions of the grant, which end with it. -/
def revokeGrant (id : String) :
    Except ServiceError (PersistedState × List SessionAllocation) := do
  require (s.grants.any fun grant => grant.id == id) .notFound
  let revoked ← sessionAllocations (s.sessions.filter fun session => session.grantId == id)
  return ({ s with
    grants := s.grants.filter fun grant => !(grant.id == id)
    sessions := s.sessions.filter fun session => !(session.grantId == id) }, revoked)

/-! ### Operations on sessions -/

/-- What a session's owner is told of it. -/
structure SessionView where
  id : String
  grantId : String
  resourceSlot : ℕ
  clientName : String
  expiresAt : ℕ
  accessExpiresAt : Option ℕ
  protocols : ProtocolAccess
  allowance : Option AllowanceStatus
deriving DecidableEq

structure CreatedSession where
  token : String
  dataPlaneToken : String
  id : String
  grantId : String
  resourceSlot : ℕ
  /-- The sessions whose lease had run out when this one was created. -/
  expiredAllocations : List SessionAllocation
  clientName : String
  expiresAt : ℕ
  accessExpiresAt : Option ℕ
  protocols : ProtocolAccess
  allowance : Option AllowanceStatus
deriving DecidableEq

/-- What the first acquisition of `create_session` finds. -/
structure EnrollmentTicket where
  grant : AccessGrantRecord
  secret : String
  clientName : String
deriving DecidableEq

/-- `create_session` up to its first acquisition. -/
def createSessionGrant (accessCode clientName : String) :
    Except ServiceError EnrollmentTicket := do
  let clientName ← validateText clientName "client_name" maxClientNameLength
  match splitAccessCode accessCode with
  | none => .error .unauthorized
  | some code =>
    match s.findGrant code.id with
    | none => .error .unauthorized
    | some grant => return ⟨grant, code.secret, clientName⟩

variable (C : Crypto)

/-- The checks of `admit_session` between the two acquisitions, on the grant as it was found. -/
def precheckSession (ticket : EnrollmentTicket) (now : ℕ) :
    Except ServiceError Unit := do
  require (C.verifySecret ticket.secret ticket.grant.secretHash) .unauthorized
  require (!ticket.grant.paused) .grantPaused
  match ticket.grant.usedUpUntil now with
  | some resetsAt => .error (.allowanceUsed resetsAt)
  | none => return ()

/-- The checks of `admit_session` under the lock, on the state without the expired sessions:
the grant that admits the session, and the slot for it. -/
def admission (s : PersistedState) (grantId : String) (now : ℕ) :
    Except ServiceError (AccessGrantRecord × ℕ) := do
  match s.findGrant grantId with
  | none => .error .unauthorized
  | some grant =>
    require (grant.expiresAt.all fun expiresAt => decide (now < expiresAt)) .grantExpired
    require (!grant.paused) .grantPaused
    match grant.usedUpUntil now with
    | some resetsAt => .error (.allowanceUsed resetsAt)
    | none =>
      require (decide (countU32 (liveSessions s grant.id now) < grant.maxConnections))
        .grantCapacity
      require (decide (countU32 (s.sessions.filter (SessionRecord.isLive now))
        < cfg.maxSessions)) .nodeCapacity
      match nextResourceSlot s cfg.maxSessions with
      | none => .error .nodeCapacity
      | some slot => return (grant, slot)

/-- The record of a new session. -/
def newSession (cfg : Config) (grant : AccessGrantRecord) (slot now : ℕ)
    (clientName : String) (token dataPlaneToken : TokenParts) : SessionRecord where
  id := token.id
  grantId := grant.id
  secretHash := none
  controlSecretHash := some (C.hashTokenSecret token.secret)
  dataPlaneSecretHash := some (C.hashTokenSecret dataPlaneToken.secret)
  resourceSlot := some slot
  clientName := clientName
  issuedAt := now
  expiresAt := leaseEnd cfg grant now

/-- The part of `admit_session` under the lock. -/
def admitUnderLock (cfg : Config) (s : PersistedState) (ticket : EnrollmentTicket)
    (now : ℕ) (token dataPlaneToken : String) (tokenParts dataPlaneParts : TokenParts) :
    Except ServiceError (PersistedState × CreatedSession) := do
  let live := dropExpiredSessions s now
  let expiredAllocations ← sessionAllocations (expiredSessions s now)
  let (grant, slot) ← admission cfg live ticket.grant.id now
  let session := newSession C cfg grant slot now ticket.clientName tokenParts dataPlaneParts
  require (!(live.sessions.any fun item => item.id == session.id)) .crypto
  return ({ live with sessions := live.sessions ++ [session] }, {
    token
    dataPlaneToken
    id := session.id
    grantId := grant.id
    resourceSlot := slot
    expiredAllocations
    clientName := ticket.clientName
    expiresAt := session.expiresAt
    accessExpiresAt := grant.expiresAt
    protocols := grant.protocols
    allowance := grant.status now })

/-- `admit_session`.  `token` is the generated session token; the data-plane token is its
session ID followed by the generated `scopedSecret`. -/
def admitSession (cfg : Config) (s : PersistedState) (ticket : EnrollmentTicket)
    (now : ℕ) (token scopedSecret : String) :
    Except ServiceError (PersistedState × CreatedSession) := do
  precheckSession C ticket now
  let some tokenParts := splitSessionToken token | .error .crypto
  let dataPlaneToken := tokenParts.id ++ scopedSecret
  let some dataPlaneParts := splitSessionToken dataPlaneToken | .error .crypto
  admitUnderLock C cfg s ticket now token dataPlaneToken tokenParts dataPlaneParts

/-- What the first acquisition of `authenticate` finds. -/
structure SessionTicket where
  session : SessionRecord
  grant : AccessGrantRecord
deriving DecidableEq

/-- `authenticate` up to the verified token. -/
def authenticateLookup (s : PersistedState) (token : String) :
    Except ServiceError SessionTicket :=
  match splitSessionToken token with
  | none => .error .unauthorized
  | some parts =>
    match s.findSession parts.id with
    | none => .error .unauthorized
    | some session =>
      match s.findGrant session.grantId with
      | none => .error .unauthorized
      | some grant =>
        match session.controlSecretHash, session.secretHash with
        | some expected, none => do
            require (C.verifyTokenSecret parts.secret expected) .unauthorized
            return ⟨session, grant⟩
        | none, some legacy => do
            require (C.verifySecret parts.secret legacy) .unauthorized
            return ⟨session, grant⟩
        | _, _ => .error (.invalidState "session control-token hash is invalid")

/-- The last check of `authenticate`, on the session and grant as they were found. -/
def authenticateAdmits (ticket : SessionTicket) (now : ℕ) : Except ServiceError Unit :=
  require (admits ticket.session ticket.grant now) .unauthorized

/-- `verify_data_plane`, on the session and grant as the lock shows them.  OpenVPN also names the
session as `username`. -/
def verifyDataPlane (s : PersistedState) (parts : TokenParts)
    (protocol : TransportProtocol) (username : Option String) (now : ℕ) :
    Except ServiceError SessionView := do
  require (username.all fun username => username == parts.id) .unauthorized
  match s.findSession parts.id with
  | none => .error .unauthorized
  | some session =>
    match s.findGrant session.grantId with
    | none => .error .unauthorized
    | some grant =>
      match session.dataPlaneSecretHash with
      | none => .error .unauthorized
      | some expected => do
          require (C.verifyTokenSecret parts.secret expected) .unauthorized
          require (admits session grant now) .unauthorized
          require (grant.protocols.allows protocol) .forbidden
          let allocation ← sessionAllocation session
          return {
            id := session.id
            grantId := grant.id
            resourceSlot := allocation.resourceSlot
            clientName := session.clientName
            expiresAt := session.expiresAt
            accessExpiresAt := grant.expiresAt
            protocols := grant.protocols
            allowance := grant.status now }

/-- `authenticate_data_plane`, which tells the device nothing of why it is refused. -/
def authenticateDataPlane (s : PersistedState) (token : String)
    (protocol : TransportProtocol) (username : Option String) (now : ℕ) :
    Except ServiceError SessionView :=
  match splitSessionToken token with
  | none => .error .unauthorized
  | some parts =>
    (verifyDataPlane C s parts protocol username now).mapError fun _ => .unauthorized

/-- The first session with this ID gets a new lease. -/
def renewLease (id : String) (expiresAt : ℕ) : List SessionRecord → Option (List SessionRecord)
  | [] => none
  | session :: sessions =>
    if session.id = id then some ({ session with expiresAt } :: sessions)
    else (renewLease id expiresAt sessions).map (session :: ·)

/-- `renew_session` after `authenticate`.  The state is stored before the slot of the session is
looked at for the result. -/
def renewSession (s : PersistedState) (ticket : SessionTicket) (now : ℕ) :
    Except ServiceError (PersistedState × Except ServiceError SessionView) :=
  let expiresAt := leaseEnd cfg ticket.grant now
  match renewLease ticket.session.id expiresAt s.sessions with
  | none => .error .unauthorized
  | some sessions =>
    .ok ({ s with sessions }, do
      let allocation ← sessionAllocation ticket.session
      return {
        id := ticket.session.id
        grantId := ticket.grant.id
        resourceSlot := allocation.resourceSlot
        clientName := ticket.session.clientName
        expiresAt
        accessExpiresAt := ticket.grant.expiresAt
        protocols := ticket.grant.protocols
        allowance := ticket.grant.status now })

/-- `end_session` after `authenticate`, for `release_session` and `discard_session`. -/
def endSession (ticket : SessionTicket) :
    Except ServiceError (PersistedState × SessionAllocation) := do
  let allocation ← sessionAllocation ticket.session
  return ({ s with sessions := s.sessions.filter fun session => !(session.id == ticket.session.id) },
    allocation)

/-- `expire_sessions`: `none` when there is nothing to store. -/
def expireSessions (now : ℕ) :
    Except ServiceError (Option PersistedState × List SessionAllocation) := do
  let expired ← sessionAllocations (expiredSessions s now)
  let next := forgetStaleGrants (dropExpiredSessions s now) now
  if expired = [] ∧ next.grants.length = s.grants.length then return (none, expired)
  else return (some next, expired)

/-- `active_session_allocations`. -/
def activeSessionAllocations (now : ℕ) :
    Except ServiceError (List SessionAllocation) :=
  sessionAllocations (s.sessions.filter (SessionRecord.isLive now))

/-! ### Usage -/

/-- `metered_sessions`: the live sessions of every grant with an allowance. -/
def meteredSessions (now : ℕ) : List MeteredSession :=
  (s.sessions.filter (SessionRecord.isLive now)).filterMap fun session =>
    match s.grants.find? fun g => g.id == session.grantId && g.allowance.isSome,
        session.resourceSlot with
    | some grant, some slot =>
      some ⟨⟨session.id, slot⟩, session.issuedAt, grant.allowanceSince.getD 0⟩
    | _, _ => none

/-- What `moved` holds for the sessions of one grant: `none` when it holds nothing. -/
def movedByGrant (moved : String → Option ℕ) (grantId : String) :
    List SessionRecord → Option ℕ → Option ℕ
  | [], total => total
  | session :: sessions, total =>
    if session.grantId = grantId ∧ 0 < (moved session.id).getD 0 then
      movedByGrant moved grantId sessions
        (some (saturatingAdd (total.getD 0) ((moved session.id).getD 0)))
    else movedByGrant moved grantId sessions total

/-- The grants with what their sessions moved added. -/
def chargeGrants (moved : String → Option ℕ) (now : ℕ) :
    List AccessGrantRecord :=
  s.grants.map fun g =>
    match movedByGrant moved g.id s.sessions none with
    | some bytes => g.add bytes now
    | none => g

/-- The session's grant is among those that have used up their allowance. -/
def isUsedUp (grants : List AccessGrantRecord) (now : ℕ) (session : SessionRecord) : Bool :=
  grants.any fun g => (g.usedUpUntil now).isSome && g.id == session.grantId

/-- What `record_usage` computes under the lock. -/
structure UsageRecorded where
  next : PersistedState
  ended : List SessionAllocation
  /-- The state has to be stored whatever the time of the last store. -/
  mustStore : Bool
  /-- The state has to be stored once the interval has passed. -/
  mayStore : Bool

/-- `record_usage` up to the store. -/
def recordUsage (moved : String → Option ℕ) (now : ℕ) :
    Except ServiceError UsageRecorded := do
  let grants := chargeGrants s moved now
  let ending := s.sessions.filter (isUsedUp grants now)
  let ended ← sessionAllocations ending
  return {
    next := { s with
      grants
      sessions := s.sessions.filter fun session => !(isUsedUp grants now session) }
    ended
    mustStore := decide (ending ≠ [])
    mayStore := s.sessions.any fun session => decide (0 < (moved session.id).getD 0) }

/-- `record_usage` stores the state. -/
def UsageRecorded.stores (u : UsageRecorded) (usageStoredAt now : ℕ) : Bool :=
  u.mustStore || (u.mayStore && decide (usageStoreIntervalSeconds ≤ now - usageStoredAt))

end Ket.Server
