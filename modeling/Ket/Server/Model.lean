import Ket.Core.Grant
import Ket.Core.Secret
import Ket.Lib.Check
import Ket.Lib.Str
import Ket.Lib.Word

/-!
# The persisted state (`ket-server/src/model.rs`)

The records the control server keeps, and the check a state must pass before it is written and
after it is read.  The parser of encoded password hashes is not part of the repository; the
check takes it from `Crypto`.
-/

namespace Ket.Server

open Ket.Core Ket.Lib

/-- What a grant's devices have moved in one period. -/
structure PeriodUsage where
  periodStart : ℕ
  usedBytes : ℕ
deriving DecidableEq, Repr

structure AccessGrantRecord where
  id : String
  secretHash : String
  label : String
  maxConnections : ℕ
  expiresAt : Option ℕ
  createdAt : ℕ
  paused : Bool
  protocols : ProtocolAccess
  allowance : Option DataAllowance
  /-- When the allowance began to apply: traffic before it is not counted. -/
  allowanceSince : Option ℕ
  usage : Option PeriodUsage
deriving DecidableEq

structure SessionRecord where
  id : String
  grantId : String
  /-- The hash of a control token from before schema 2. -/
  secretHash : Option String
  controlSecretHash : Option TokenHash
  dataPlaneSecretHash : Option TokenHash
  resourceSlot : Option ℕ
  clientName : String
  issuedAt : ℕ
  expiresAt : ℕ
deriving DecidableEq

/-- A session and the slot that its data-plane resources are derived from. -/
@[ext]
structure SessionAllocation where
  id : String
  resourceSlot : ℕ
deriving DecidableEq, Repr

/-- `CURRENT_STATE_SCHEMA_VERSION`. -/
def currentStateSchemaVersion : ℕ := 2

structure PersistedState where
  schemaVersion : ℕ
  grants : List AccessGrantRecord
  sessions : List SessionRecord
deriving DecidableEq

namespace PersistedState

/-- `PersistedState::default`. -/
def empty : PersistedState := ⟨currentStateSchemaVersion, [], []⟩

/-- The first grant with this ID. -/
def findGrant (s : PersistedState) (id : String) : Option AccessGrantRecord :=
  s.grants.find? fun grant => grant.id == id

/-- The first session with this ID. -/
def findSession (s : PersistedState) (id : String) : Option SessionRecord :=
  s.sessions.find? fun session => session.id == id

end PersistedState

/-! ### The check -/

def maxSecretHashLength : ℕ := 512
def maxLabelLength : ℕ := 64
def maxClientNameLength : ℕ := 96

def validIdentifier (value : String) (length : ℕ) : Bool :=
  decide (Str.len value = length) && Str.allAsciiAlphanumeric value

def validText (value : String) (maximum : ℕ) : Bool :=
  decide (value ≠ "") && decide (Str.len value ≤ maximum) && decide (value = Str.trim value) &&
    !(value.toList.any Str.isControl)

/-- What `validate` refuses a state for. -/
inductive InvalidRecord where
  | grantId
  | duplicateGrantIds
  | grantHash
  | grantHashProfile
  | grantLabel
  | grantConnectionLimit
  | grantProtocols
  | grantAllowance
  | grantUsageWithoutAllowance
  | grantExpiry
  | sessionId
  | duplicateSessionIds
  | duplicateResourceSlots
  | sessionOfUnknownGrant
  | sessionHash
  | sessionHashProfile
  | sessionHashes
  | sessionHashMissing
  | sessionClientName
  | sessionExpiry
  | sessionOutlivesGrant
deriving DecidableEq, Repr

/-- The text of the refusal. -/
def InvalidRecord.message : InvalidRecord → String
  | grantId => "access grant ID is invalid"
  | duplicateGrantIds => "access grant IDs are duplicated"
  | grantHash => "access grant hash is invalid"
  | grantHashProfile => "access grant hash profile is unsupported"
  | grantLabel => "access grant label is invalid"
  | grantConnectionLimit => "access grant connection limit is invalid"
  | grantProtocols => "access grant allows no protocol"
  | grantAllowance => "access grant allowance is invalid"
  | grantUsageWithoutAllowance => "access grant counts usage without an allowance"
  | grantExpiry => "access grant expiry is invalid"
  | sessionId => "session ID is invalid"
  | duplicateSessionIds => "session IDs are duplicated"
  | duplicateResourceSlots => "session resource slots are duplicated"
  | sessionOfUnknownGrant => "session references an unknown access grant"
  | sessionHash => "session hash is invalid"
  | sessionHashProfile => "session hash profile is unsupported"
  | sessionHashes => "session has multiple control-token hashes"
  | sessionHashMissing => "session control-token hash is missing"
  | sessionClientName => "session client name is invalid"
  | sessionExpiry => "session expiry is invalid"
  | sessionOutlivesGrant => "session outlives its access grant"

section Validate

variable (C : Crypto)

/-- The body of the loop over the grants; `seen` are the IDs of the grants before this one. -/
def AccessGrantRecord.validate (seen : List String) (grant : AccessGrantRecord) :
    Except InvalidRecord Unit := do
  require (validIdentifier grant.id accessIdLength) .grantId
  require (!(seen.contains grant.id)) .duplicateGrantIds
  require (validText grant.secretHash maxSecretHashLength) .grantHash
  require (C.isSupportedSecretHash grant.secretHash) .grantHashProfile
  require (validText grant.label maxLabelLength) .grantLabel
  require (decide (grant.maxConnections ≠ 0)) .grantConnectionLimit
  require grant.protocols.isValid .grantProtocols
  require (grant.allowance.all DataAllowance.isValid) .grantAllowance
  require (!((grant.usage.isSome || grant.allowanceSince.isSome) && grant.allowance.isNone))
    .grantUsageWithoutAllowance
  require (grant.expiresAt.all fun expiresAt => decide (grant.createdAt < expiresAt)) .grantExpiry

/-- The control-token hash of a session: one of the two kinds, the legacy one well-formed. -/
def SessionRecord.validateHash (session : SessionRecord) : Except InvalidRecord Unit :=
  match session.controlSecretHash, session.secretHash with
  | some _, none => .ok ()
  | none, some secretHash => do
      require (validText secretHash maxSecretHashLength) .sessionHash
      require (C.isSupportedSecretHash secretHash) .sessionHashProfile
  | some _, some _ => .error .sessionHashes
  | none, none => .error .sessionHashMissing

/-- The body of the loop over the sessions; `seen` are the sessions before this one. -/
def SessionRecord.validate (grants : List AccessGrantRecord) (seen : List SessionRecord)
    (session : SessionRecord) : Except InvalidRecord Unit := do
  require (validIdentifier session.id sessionIdLength) .sessionId
  require (!((seen.map SessionRecord.id).contains session.id)) .duplicateSessionIds
  require (session.resourceSlot.all fun slot =>
    !((seen.filterMap SessionRecord.resourceSlot).contains slot)) .duplicateResourceSlots
  match grants.find? (fun grant => grant.id == session.grantId) with
  | none => .error .sessionOfUnknownGrant
  | some grant => do
      session.validateHash C
      require (validText session.clientName maxClientNameLength) .sessionClientName
      require (decide (session.issuedAt < session.expiresAt)) .sessionExpiry
      require (grant.expiresAt.all fun expiry => decide (session.expiresAt ≤ expiry))
        .sessionOutlivesGrant

/-- The loop over the grants. -/
def validateGrants (seen : List String) : List AccessGrantRecord → Except InvalidRecord Unit
  | [] => .ok ()
  | grant :: grants => do
      grant.validate C seen
      validateGrants (seen ++ [grant.id]) grants

/-- The loop over the sessions. -/
def validateSessions (grants : List AccessGrantRecord) (seen : List SessionRecord) :
    List SessionRecord → Except InvalidRecord Unit
  | [] => .ok ()
  | session :: sessions => do
      session.validate C grants seen
      validateSessions grants (seen ++ [session]) sessions

/-- `PersistedState::validate`. -/
def PersistedState.validate (s : PersistedState) : Except InvalidRecord Unit := do
  validateGrants C [] s.grants
  validateSessions C s.grants [] s.sessions

end Validate

end Ket.Server
