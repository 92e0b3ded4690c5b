import Ket.Client.TransportMemory
import Ket.Client.Validation
import Ket.Lib.Program

/-!
# The client (`ket-client-core/src/client.rs`)

`KetClient` joins a server, connects through one of the transports that the server offers, and keeps
the connection.  Its operations run one at a time, under the lock `operation`.

An operation is a program of commands: a section under the lock of the runtime state, an update of
the snapshot, a question to the clock, a request to the server, the adapters or a tunnel.  Waiting
for an adapter ends early when the attempt is cancelled; the answer then is `none`.  The settings of
a connection, which are only handed on to the adapters, are left out.
-/

namespace Ket.Client

open Ket.Core Ket.Lib

/-! ### The runtime state -/

structure ProbeIdentity where
  endpoint : String
  port : ℕ
  protocol : TransportProtocol
  tlsServerName : Option String
deriving DecidableEq

def ProbeIdentity.of (transport : SessionTransport) : ProbeIdentity :=
  ⟨transport.profile.endpoint, transport.profile.port, transport.profile.protocol,
    transport.profile.tlsServerName⟩

structure CachedProbe where
  identity : ProbeIdentity
  report : ProbeReport
deriving DecidableEq

structure Runtime where
  session : Option SessionManifest
  renewAt : Option ℕ
  controlFailures : ℕ
  tunnel : Option Tunnel
  connectionRequested : Bool
  preferredProtocol : Option TransportProtocol
  history : TransportHistory
  probes : OrderedMap String CachedProbe
  networkGeneration : ℕ
  /-- Whether a memory for the history is set. -/
  memory : Bool
  automaticExcluded : List TransportProtocol
deriving DecidableEq

def Runtime.initial : Runtime :=
  ⟨none, none, 0, none, false, none, .empty, .empty, 0, false, []⟩

namespace Runtime

/-- `tunnel.take()`, with what it leaves. -/
def withoutTunnel (r : Runtime) : Runtime := { r with tunnel := none }

/-- The session is forgotten, with what belongs to it. -/
def withoutSession (r : Runtime) : Runtime :=
  { r with session := none, renewAt := none, controlFailures := 0, probes := .empty }

/-- A tunnel that could not be stopped. -/
def retain (t : Tunnel) (r : Runtime) : Runtime :=
  if r.tunnel.isNone then { r with tunnel := some t } else r

/-- Whether the session should be renewed now. -/
def isRenewalDue (r : Runtime) (now : ℕ) : Bool := r.renewAt.any fun deadline => decide (deadline ≤ now)

/-- `session` and the deadline, after the server has sent a status. -/
def applyStatus (status : SessionStatus) (deadline : Option ℕ) (r : Runtime) : Runtime :=
  { r with
    session := r.session.map fun session => { session with
      node := status.node, sessionExpiresAt := status.expiresAt,
      accessExpiresAt := status.accessExpiresAt }
    renewAt := deadline.or r.renewAt
    controlFailures := 0 }

end Runtime

def renewalDeadline (now expiresAt : ℕ) : ℕ := saturatingAdd now ((expiresAt - now) / 2)

/-! ### Commands -/

inductive Command where
  /-- A section under the lock of the runtime state; the answer is the state before. -/
  | runtime (update : Runtime → Runtime)
  /-- `send_replace`; the answer is the snapshot before. -/
  | snapshot (update : ClientSnapshot → ClientSnapshot)
  | unixTime
  /-- The milliseconds since the attempt was started. -/
  | elapsed
  /-- `connect_cancellation.subscribe()`. -/
  | subscribe
  | hasChanged
  | createSession (accessCode : String)
  | renewSession (token : String)
  | sessionStatus (token : String)
  | releaseSession (token : String)
  | probe (transport : SessionTransport)
  | connect (transport : SessionTransport) (report : ProbeReport)
  /-- `status().borrow()`. -/
  | status (tunnel : Tunnel)
  /-- `network()`. -/
  | network (tunnel : Tunnel)
  | stop (tunnel : Tunnel)
  | isHealthy
  /-- A section under the lock of the runtime state: where a memory is set, the history is loaded.
  The answer is whether the file can be read. -/
  | load
  /-- A section under the lock of the runtime state: the history records something and is saved
  where a memory is set. -/
  | record (recording : Recording)

/-- What `memory.save` meets: a fresh salt, the time, and whether the file can be read and
written. -/
structure SaveOutcome where
  freshSalt : String
  now : ℕ
  readable : Bool
  written : Bool

abbrev Answer : Command → Type
  | .runtime _ => Runtime
  | .snapshot _ => ClientSnapshot
  | .unixTime => ℕ
  | .elapsed => ℕ
  | .subscribe => Unit
  | .hasChanged => Bool
  | .createSession _ => Except ClientError SessionManifest
  | .renewSession _ => Except ClientError SessionStatus
  | .sessionStatus _ => Except ClientError SessionStatus
  | .releaseSession _ => Except ClientError Unit
  | .probe _ => Option (Except ClientError ProbeReport)
  | .connect _ _ => Option (Except ClientError StartedTunnel)
  | .status _ => TunnelStatus
  | .network _ => NetworkReport
  | .stop _ => Except ClientError Unit
  | .isHealthy => Bool
  | .load => Bool
  | .record _ => SaveOutcome

abbrev Op := ExceptT ClientError (Program Command Answer)

namespace Op

def perform (c : Command) : Op (Answer c) := ExceptT.lift (Program.perform c)

def runtime (update : Runtime → Runtime) : Op Runtime := perform (.runtime update)

def readRuntime : Op Runtime := runtime id

def updateSnapshot (update : ClientSnapshot → ClientSnapshot) : Op Unit := do
  let _ ← perform (.snapshot update)

def snapshot : Op ClientSnapshot := perform (.snapshot id)

end Op

/-- A client, with what it is made from. -/
structure KetClient where
  clientName : String
  urls : Web.UrlParser
  adapters : List Adapter
  policy : SelectionPolicy

/-- What became of a transport that was tried. -/
inductive Trial where
  | finished (snapshot : ClientSnapshot)
  | next (error : ClientError)

namespace KetClient

open Op

/-! ### Parts of the operations -/

/-- `MAX_FALLBACKS`. -/
def maxFallbacks : ℕ := 8

variable (error : ClientError)

def fail : Op Unit :=
  updateSnapshot fun s => { s with phase := .error, issue := some error.issue }

def stopAndRetainOnFailure (tunnel : Tunnel) : Op Unit := do
  match ← perform (.stop tunnel) with
  | .ok () => pure ()
  | .error error =>
    let _ ← runtime (Runtime.retain tunnel)
    throw error

def noteFallback (fallback : TransportFallback) : Op Unit :=
  updateSnapshot fun s =>
    let fallbacks := s.fallbacks ++ [fallback]
    { s with fallbacks := fallbacks.drop (fallbacks.length - maxFallbacks) }

def record (recording : Recording) : Op Unit := do
  let _ ← perform (.record recording)

def cacheProbe (transport : SessionTransport) (report : ProbeReport) : Op Unit := do
  let _ ← runtime fun r =>
    { r with probes := r.probes.insert transport.profile.id ⟨.of transport, report⟩ }

def cachedProbe (transport : SessionTransport) (error : ClientError) : Op (Option ProbeReport) := do
  if !error.isDnsResolutionFailure then return none
  let r ← readRuntime
  return ((r.probes.get? transport.profile.id).filter (·.identity == .of transport)).map (·.report)

def finishCancelledConnection : Op ClientSnapshot := do
  let _ ← runtime fun r => { r with connectionRequested := false }
  updateSnapshot fun s => { s.clearTunnel with phase := .enrolled, issue := none }
  snapshot

/-- What is shown after the tunnel is gone and the session may still be there. -/
def showStopped (enrolled : Bool) (s : ClientSnapshot) : ClientSnapshot :=
  { s.clearTunnel with phase := if enrolled then .enrolled else .disconnected, issue := none }

/-- How the apps name a protocol. -/
def protocolLabel : TransportProtocol → String
  | .hysteria2 => "Hysteria 2"
  | .ikev2 => "IKEv2"
  | .openVpnStunnel => "OpenVPN TLS"
  | .shadowsocks2022 => "Shadowsocks 2022"
  | .stealth => "HTTPS Stealth"
  | .vlessXtlsReality => "VLESS + REALITY"
  | .wireGuard => "WireGuard TLS"
  | .xorScrambled => "Hysteria XOR"

def validateAccessCode (code : String) : Except ClientError Unit :=
  require (decide (Str.len code = accessCodeLength) && Str.allAsciiAlphanumeric code)
    (.invalidInput ("access code must contain exactly " ++ toString accessCodeLength ++
      " ASCII letters or digits"))

variable (K : KetClient)

def coolDown (transportId : String) : Op Unit := do
  let now ← perform .unixTime
  record (.failure transportId now K.policy.failureCooldownSeconds)

def recordFailure (transport : TransportSummary) (error : ClientError) (stage : FallbackStage) :
    Op Unit := do
  K.coolDown transport.id
  let elapsed ← perform .elapsed
  noteFallback ⟨transport, error.issue, stage, some elapsed⟩

def recordLostTunnel (transportId code message : String) : Op Unit := do
  K.coolDown transportId
  let s ← snapshot
  match s.activeTransport.filter (·.id == transportId) with
  | some transport => noteFallback ⟨transport, ⟨code, message, true⟩, .connected, none⟩
  | none => pure ()

/-! ### Connecting -/

/-- The candidates of `connect_locked`, and a protocol that was asked for and is not offered. -/
def candidates : Op (List SessionTransport × Option TransportProtocol) := do
  let _ ← perform .load
  let now ← perform .unixTime
  let r ← readRuntime
  match r.session with
  | none => throw .notEnrolled
  | some session =>
    return (rankFor K.policy session.transports K.adapters r.history now r.preferredProtocol
        r.automaticExcluded,
      r.preferredProtocol.filter fun protocol =>
        !session.transports.any fun t => t.profile.protocol == protocol)

/-- An adapter has returned a tunnel. -/
def keepTunnel (transport : SessionTransport) (report : ProbeReport) (started : StartedTunnel) :
    Op ClientSnapshot := do
  if ← perform .hasChanged then
    match ← Program.attempt (stopAndRetainOnFailure started.tunnel) with
    | .ok () => finishCancelledConnection
    | .error error =>
      fail error
      throw error
  else
    let latency := min started.handshakeLatencyMs u64Max
    cacheProbe transport report
    record (.success transport.profile.id latency)
    let network ← perform (.network started.tunnel)
    let _ ← runtime fun r =>
      { r with networkGeneration := network.generation, tunnel := some started.tunnel }
    let now ← perform .unixTime
    updateSnapshot fun s => { s with
      phase := .connected, activeTransport := some (.of transport.profile),
      handshakeLatencyMs := some latency, connectedAt := some now, reconnectAttempt := 0,
      issue := none }
    snapshot

variable (reconnecting : Bool)

/-- The second half of an attempt, after the probe. -/
def startTransport (transport : SessionTransport) (report : ProbeReport) :
    Op Trial := do
  updateSnapshot fun s => { s with phase := if reconnecting then .reconnecting else .connecting }
  match ← perform (.connect transport report) with
  | none => return .finished (← finishCancelledConnection)
  | some (.ok started) => return .finished (← keepTunnel transport report started)
  | some (.error error) =>
    K.recordFailure (.of transport.profile) error .connect
    return .next error

def tryTransport (index : ℕ) (transport : SessionTransport) : Op Trial := do
  updateSnapshot fun s => { s with
    phase := if reconnecting then .reconnecting else .probing
    activeTransport := some (.of transport.profile)
    reconnectAttempt := if reconnecting then index + 1 else 0
    issue := none }
  match ← perform (.probe transport) with
  | none => return .finished (← finishCancelledConnection)
  | some (.ok report) => K.startTransport reconnecting transport report
  | some (.error error) =>
    match ← cachedProbe transport error with
    | some report => K.startTransport reconnecting transport report
    | none =>
      K.recordFailure (.of transport.profile) error .probe
      return .next error

/-- The loop over the candidates. -/
def tryEach (reconnecting : Bool) : ℕ → Option ClientError → List SessionTransport →
    Op ClientSnapshot
  | _, lastError, [] => do
      let error := lastError.getD .noCompatibleTransport
      fail error
      throw error
  | index, _, transport :: rest => do
      match ← K.tryTransport reconnecting index transport with
      | .finished s => pure s
      | .next error => tryEach reconnecting (index + 1) (some error) rest

/-- A tunnel that is held and no longer connected is stopped. -/
def stopStaleTunnel : Op Unit := do
  let r ← readRuntime
  match r.tunnel with
  | none => pure ()
  | some tunnel =>
    if (← perform (.status tunnel)) = .connected then throw .alreadyConnected
    let _ ← runtime Runtime.withoutTunnel
    stopAndRetainOnFailure tunnel

/-- A reconnect keeps the reason the previous tunnel was left. -/
def clearFallbacks : Op Unit :=
  if reconnecting then pure () else updateSnapshot fun s => { s with fallbacks := [] }

def connectLocked : Op ClientSnapshot := do
  let _ ← perform .subscribe
  stopStaleTunnel
  let (candidates, missingPreference) ← K.candidates
  clearFallbacks reconnecting
  if candidates.isEmpty then
    let error := missingPreference.elim .noCompatibleTransport fun protocol =>
      .preferredProtocolUnavailable (protocolLabel protocol)
    fail error
    throw error
  else K.tryEach reconnecting 0 none candidates

/-! ### The session -/

/-- `apply_status`. -/
def applyStatus (status : SessionStatus) (renewed : Bool) : Op Unit := do
  let now ← perform .unixTime
  let _ ← runtime (Runtime.applyStatus status
    (if renewed then some (renewalDeadline now status.expiresAt) else none))
  updateSnapshot fun s => { s with
    node := some status.node, traffic := some status.traffic, allowance := status.allowance,
    sessionExpiresAt := some status.expiresAt, accessExpiresAt := status.accessExpiresAt,
    issue := none }

/-- A tunnel is stopped; if it cannot be, that is shown. -/
def stopOrShow : Option Tunnel → Op Unit
  | none => pure ()
  | some tunnel => do
      match ← Program.attempt (stopAndRetainOnFailure tunnel) with
      | .ok () => pure ()
      | .error error =>
        updateSnapshot fun s => { s with phase := .error, issue := some error.issue }
        throw error

/-- The server has ended the session. -/
def endSession : Op ClientSnapshot := do
  let r ← runtime fun r => { r with
    connectionRequested := false, preferredProtocol := none, tunnel := none }
  stopOrShow r.tunnel
  let _ ← runtime Runtime.withoutSession
  updateSnapshot fun s => { s.clearSession.clearTunnel with
    phase := .error, issue := some error.issue }
  throw error

def surface (surfaceErrors : Bool) (error : ClientError) : Op Unit :=
  if surfaceErrors then updateSnapshot fun s => { s with issue := some error.issue } else pure ()

/-- The request that `refresh_locked` makes. -/
def requestStatus (renew : Bool) (token : String) : Op (Except ClientError SessionStatus) :=
  if renew then perform (.renewSession token) else perform (.sessionStatus token)

def refreshLocked (renew surfaceErrors : Bool) : Op ClientSnapshot := do
  let r ← readRuntime
  match r.session with
  | none => throw .notEnrolled
  | some session =>
    match ← requestStatus renew session.sessionToken with
    | .ok status =>
      let now ← perform .unixTime
      match validateStatus K.urls status session.sessionToken K.clientName now with
      | .error error =>
        surface surfaceErrors error
        throw error
      | .ok () =>
        applyStatus status renew
        snapshot
    | .error error =>
      if error.endsSession then endSession error
      else do
        surface surfaceErrors error
        throw error

def reconnectLocked : Op ClientSnapshot := do
  match ← Program.attempt (K.connectLocked true) with
  | .ok s => pure s
  | .error connectionError =>
    let now ← perform .unixTime
    let r ← readRuntime
    match ← Program.attempt (K.refreshLocked (r.isRenewalDue now) false) with
    | .error error =>
      if error.endsSession then throw error
      else do
        fail connectionError
        throw connectionError
    | .ok _ =>
      fail connectionError
      throw connectionError

def renewBeforeConnectLocked : Op Unit := do
  let now ← perform .unixTime
  let r ← readRuntime
  match r.session with
  | none => throw .notEnrolled
  | some session =>
    if r.isRenewalDue now then
      match ← Program.attempt (K.refreshLocked true false) with
      | .ok _ => pure ()
      | .error error =>
        let later ← perform .unixTime
        if error.isNetwork && decide (later < session.sessionExpiresAt) then
          updateSnapshot fun s => { s with issue := none }
        else throw error
    else pure ()

/-! ### The operations -/

/-- `enroll`, after the server has answered. -/
def acceptManifest (manifest : SessionManifest) : Op ClientSnapshot := do
  let now ← perform .unixTime
  match validateManifest K.urls manifest now with
  | .error error =>
    if (splitSessionToken manifest.sessionToken).isSome then
      let _ ← perform (.releaseSession manifest.sessionToken)
    fail error
    throw error
  | .ok () =>
    let available := (manifest.transports.filter fun t => K.adapters.any (· t)).map fun t =>
      TransportSummary.of t.profile
    let now ← perform .unixTime
    let _ ← runtime fun r => { r with
      renewAt := some (renewalDeadline now manifest.sessionExpiresAt)
      session := some manifest }
    updateSnapshot fun s => { s with
      phase := .enrolled, node := some manifest.node, availableTransports := available,
      sessionExpiresAt := some manifest.sessionExpiresAt,
      accessExpiresAt := manifest.accessExpiresAt, issue := none }
    snapshot

def enroll (accessCode : String) : Op ClientSnapshot := do
  match validateAccessCode accessCode with
  | .error error => throw error
  | .ok () =>
    let r ← readRuntime
    if r.session.isSome then
      throw (.invalidInput "disconnect the current enrollment before entering a new code")
    else do
      updateSnapshot fun s => { s with phase := .enrolling, issue := none, reconnectAttempt := 0 }
      match ← perform (.createSession accessCode) with
      | .ok manifest => K.acceptManifest manifest
      | .error error =>
        fail error
        throw error

def withdrawRequest : Op Unit := do
  let _ ← runtime fun r => { r with connectionRequested := false }

def connectWithProtocol (preferredProtocol : Option TransportProtocol) : Op ClientSnapshot := do
  let r ← readRuntime
  if r.session.isNone then throw .notEnrolled
  else do
    let _ ← runtime fun r => { r with
      connectionRequested := true, preferredProtocol := preferredProtocol }
    updateSnapshot fun s => { s with preferredProtocol := preferredProtocol }
    match ← Program.attempt K.renewBeforeConnectLocked with
    | .error error =>
      withdrawRequest
      throw error
    | .ok () =>
      match ← Program.attempt (K.connectLocked false) with
      | .error error =>
        withdrawRequest
        throw error
      | .ok s => pure s

def refresh : Op ClientSnapshot := K.refreshLocked false true

def renew : Op ClientSnapshot := K.refreshLocked true true

/-- `maintain_once`, where the server cannot be reached for a second time. -/
def recoverRoute : Op ClientSnapshot := do
  let r ← runtime fun r =>
    if r.connectionRequested then { r with controlFailures := 0, tunnel := none } else r
  match r.tunnel.filter fun _ => r.connectionRequested with
  | none => throw error
  | some tunnel =>
    stopAndRetainOnFailure tunnel
    K.recordLostTunnel tunnel.transportId "route_unhealthy"
      "the protected route stopped reaching the server"
    K.reconnectLocked

/-- `maintain_once`, where the server cannot be reached. -/
def checkRoute : Op ClientSnapshot := do
  let r ← runtime fun r => { r with controlFailures := min (r.controlFailures + 1) 255 }
  match r.tunnel.filter fun _ => r.connectionRequested with
  | none => throw error
  | some tunnel =>
    let network ← perform (.network tunnel)
    if network.offline then do
      updateSnapshot fun s => { s with issue := some error.issue }
      snapshot
    else if r.controlFailures + 1 < 2 then do
      updateSnapshot fun s => { s with issue := none }
      snapshot
    else if ← perform .isHealthy then
      updateSnapshot fun s => { s with issue := none }
      snapshot
    else K.recoverRoute error

/-- `maintain_once`, with no tunnel to replace. -/
def maintainSession : Op ClientSnapshot := do
  let now ← perform .unixTime
  let r ← readRuntime
  match ← Program.attempt (K.refreshLocked (r.isRenewalDue now) false) with
  | .ok s => pure s
  | .error error => if error.isNetwork then K.checkRoute error else throw error

/-- Why a tunnel was lost. -/
def lostReason : TunnelStatus → String
  | .failed message => message
  | _ => "the connection stopped"

def maintainOnce : Op ClientSnapshot := do
  let r ← readRuntime
  match r.tunnel with
  | none => if r.connectionRequested then K.reconnectLocked else K.maintainSession
  | some tunnel =>
    let status ← perform (.status tunnel)
    if status = .connected then K.maintainSession
    else do
      let _ ← runtime Runtime.withoutTunnel
      stopAndRetainOnFailure tunnel
      if r.connectionRequested then
        K.recordLostTunnel tunnel.transportId "transport_lost" (lostReason status)
        K.reconnectLocked
      else do
        let r ← readRuntime
        updateSnapshot (showStopped r.session.isSome)
        if r.session.isNone then snapshot else K.maintainSession

/-- The last part of `disconnect`. -/
def forgetSession : Op ClientSnapshot := do
  let _ ← runtime Runtime.withoutSession
  updateSnapshot fun s => { s.clearSession.clearTunnel with
    phase := .disconnected, node := none, issue := none }
  snapshot

/-- `disconnect`, after the tunnel is gone. -/
def releaseAndForget : Option SessionManifest → Op ClientSnapshot
  | none => forgetSession
  | some session => do
      match ← perform (.releaseSession session.sessionToken) with
      | .ok () => forgetSession
      | .error error =>
        if error.isUnauthorized then forgetSession
        else do
          updateSnapshot fun s => { s with phase := .error, issue := some error.issue }
          throw error

def disconnect : Op ClientSnapshot := do
  let r ← runtime fun r => { r with
    connectionRequested := false, preferredProtocol := none, tunnel := none }
  if r.tunnel.isNone && r.session.isNone then do
    updateSnapshot fun s => { s.clearSession with
      phase := .disconnected, node := none, issue := none }
    snapshot
  else do
    updateSnapshot fun s => { s with phase := .disconnecting, issue := none }
    stopOrShow r.tunnel
    updateSnapshot ClientSnapshot.clearTunnel
    releaseAndForget r.session

def stopTunnel : Op ClientSnapshot := do
  let r ← runtime fun r => { r with
    connectionRequested := false, controlFailures := 0, tunnel := none }
  match r.tunnel with
  | none =>
    updateSnapshot (showStopped r.session.isSome)
    snapshot
  | some tunnel =>
    updateSnapshot fun s => { s with phase := .disconnecting, issue := none }
    stopOrShow (some tunnel)
    updateSnapshot (showStopped r.session.isSome)
    snapshot

def verifyAfterNetworkChange : Op ClientSnapshot := do
  let r ← readRuntime
  match r.tunnel.filter fun _ => r.connectionRequested with
  | none => snapshot
  | some tunnel =>
    let network ← perform (.network tunnel)
    if network.offline then snapshot
    else if ← perform .isHealthy then snapshot
    else
      let r ← runtime Runtime.withoutTunnel
      match r.tunnel with
      | none => K.reconnectLocked
      | some tunnel =>
        stopAndRetainOnFailure tunnel
        K.reconnectLocked

end KetClient

/-- The calls that an app can make. -/
inductive Operation where
  | enroll (accessCode : String)
  | connect (preferredProtocol : Option TransportProtocol)
  | refresh
  | renew
  | maintain
  | verify
  | stopTunnel
  | disconnect
deriving DecidableEq

def KetClient.program (K : KetClient) : Operation → Op ClientSnapshot
  | .enroll accessCode => K.enroll accessCode
  | .connect preferredProtocol => K.connectWithProtocol preferredProtocol
  | .refresh => K.refresh
  | .renew => K.renew
  | .maintain => K.maintainOnce
  | .verify => K.verifyAfterNetworkChange
  | .stopTunnel => KetClient.stopTunnel
  | .disconnect => KetClient.disconnect

end Ket.Client
