import Ket.Core.Contract

/-!
# What an app is told (`ket-client-core/src/error.rs`, `state.rs`, `transport.rs`)

The errors of the client with the texts that apps show, and the snapshot of its state that they
follow.  Advice about updates is left out, as in the contract with the server, and so is the time of
the last change.
-/

namespace Ket.Client

open Ket.Core

/-! ### Errors -/

structure ClientIssue where
  code : String
  message : String
  retryable : Bool
deriving DecidableEq

inductive ClientError where
  | invalidEndpoint (reason : String)
  | invalidInput (reason : String)
  | notEnrolled
  | alreadyConnected
  | api (status : ℕ) (code message : String)
  | network (reason : String)
  | responseTooLarge
  | invalidResponse (reason : String)
  | noCompatibleTransport
  | preferredProtocolUnavailable (label : String)
  | dnsResolution (transportId message : String)
  | transport (transportId message : String) (retryable : Bool)
  | localFailure (reason : String)
  /-- An error of the invite, by its code and its text. -/
  | invite (code text : String)
  | nodeIdentityMismatch
  | sealedControlUnavailable
  | updateRequired
deriving DecidableEq

namespace ClientError

/-- `to_string`. -/
def text : ClientError → String
  | invalidEndpoint reason => "the server address is not valid: " ++ reason
  | invalidInput reason => "input is invalid: " ++ reason
  | notEnrolled => "this device has not joined a server yet"
  | alreadyConnected => "Ket is already connected"
  | api _ code _ => "the server refused the request (" ++ code ++ ")"
  | network reason => "Ket could not reach the server: " ++ reason
  | responseTooLarge => "the server sent a reply that was too large"
  | invalidResponse reason => "the server sent a reply Ket could not read: " ++ reason
  | noCompatibleTransport => "none of the server's protocols can be used on this device"
  | preferredProtocolUnavailable label =>
    label ++ " is not available for this invite; choose Automatic or another protocol"
  | dnsResolution transportId message =>
    "transport " ++ transportId ++ ": could not look up the server's address (" ++ message ++ ")"
  | transport transportId message _ => "transport " ++ transportId ++ " failed: " ++ message
  | localFailure reason => "something went wrong on this device: " ++ reason
  | invite _ text => "the invite cannot be used: " ++ text
  | nodeIdentityMismatch => "the server could not prove it is the node named in the invite"
  | sealedControlUnavailable =>
    "the server did not accept an encrypted request; it may need an update"
  | updateRequired => "this server requires a newer version of Ket"

def isUnauthorized : ClientError → Bool
  | api status _ _ => status == 401 || status == 404
  | _ => false

/-- The session can no longer be used. -/
def endsSession (e : ClientError) : Bool := e.isUnauthorized || e == updateRequired

def isNetwork : ClientError → Bool
  | network _ => true
  | _ => false

def isDnsResolutionFailure : ClientError → Bool
  | dnsResolution _ _ => true
  | _ => false

def issue : ClientError → ClientIssue
  | e@(invalidEndpoint _) => ⟨"invalid_endpoint", e.text, false⟩
  | e@(invalidInput _) => ⟨"invalid_input", e.text, false⟩
  | e@notEnrolled => ⟨"not_enrolled", e.text, false⟩
  | e@alreadyConnected => ⟨"already_connected", e.text, false⟩
  | api status code message => ⟨code, message, decide (500 ≤ status) || status == 429⟩
  | e@(network _) => ⟨"network_unavailable", e.text, true⟩
  | e@responseTooLarge => ⟨"response_too_large", e.text, false⟩
  | e@(invalidResponse _) => ⟨"invalid_server_response", e.text, false⟩
  | e@noCompatibleTransport => ⟨"no_compatible_transport", e.text, false⟩
  | e@(preferredProtocolUnavailable _) => ⟨"preferred_protocol_unavailable", e.text, false⟩
  | dnsResolution _ message =>
    ⟨"transport_dns_failed", "could not look up the server's address (" ++ message ++ ")", true⟩
  | transport _ message retryable => ⟨"transport_failed", message, retryable⟩
  | e@(localFailure _) => ⟨"local_failure", e.text, false⟩
  | e@(invite code _) => ⟨code, e.text, false⟩
  | e@nodeIdentityMismatch => ⟨"node_identity_mismatch", e.text, false⟩
  | e@sealedControlUnavailable => ⟨"sealed_control_unavailable", e.text, false⟩
  | e@updateRequired => ⟨"client_update_required", e.text, false⟩

end ClientError

/-! ### The snapshot -/

inductive ClientPhase where
  | disconnected
  | enrolling
  | enrolled
  | probing
  | connecting
  | connected
  | reconnecting
  | disconnecting
  | error
deriving DecidableEq

structure TransportSummary where
  id : String
  displayName : String
  protocol : TransportProtocol
  network : Network
deriving DecidableEq

def TransportSummary.of (profile : TransportProfile) : TransportSummary :=
  ⟨profile.id, profile.displayName, profile.protocol, profile.network⟩

/-- Where a transport gave up. -/
inductive FallbackStage where
  | probe
  | connect
  | connected
deriving DecidableEq

structure TransportFallback where
  transport : TransportSummary
  issue : ClientIssue
  stage : FallbackStage
  elapsedMs : Option ℕ
deriving DecidableEq

structure ClientSnapshot where
  phase : ClientPhase
  node : Option NodeStatus
  availableTransports : List TransportSummary
  preferredProtocol : Option TransportProtocol
  activeTransport : Option TransportSummary
  traffic : Option SessionTraffic
  allowance : Option AllowanceStatus
  handshakeLatencyMs : Option ℕ
  sessionExpiresAt : Option ℕ
  accessExpiresAt : Option ℕ
  connectedAt : Option ℕ
  reconnectAttempt : ℕ
  issue : Option ClientIssue
  fallbacks : List TransportFallback
deriving DecidableEq

/-- `ClientSnapshot::default`. -/
def ClientSnapshot.initial : ClientSnapshot :=
  ⟨.disconnected, none, [], none, none, none, none, none, none, none, none, 0, none, []⟩

namespace ClientSnapshot

variable (s : ClientSnapshot)

/-- What is shown of a tunnel that is gone. -/
def clearTunnel : ClientSnapshot :=
  { s with activeTransport := none, connectedAt := none, handshakeLatencyMs := none,
           reconnectAttempt := 0 }

/-- What is shown of a session that is gone; the node is dealt with apart. -/
def clearSession : ClientSnapshot :=
  { s with activeTransport := none, availableTransports := [], preferredProtocol := none,
           traffic := none, allowance := none, sessionExpiresAt := none, accessExpiresAt := none }

end ClientSnapshot

/-! ### Tunnels -/

inductive TunnelStatus where
  | connected
  | stopped
  | failed (message : String)
deriving DecidableEq

/-- What a tunnel says of the network under it (`ket-tunnel-protocol`). -/
structure NetworkReport where
  /-- Goes up by one with each move to another network; a `u64`, which no run of moves fills. -/
  generation : ℕ
  offline : Bool
deriving DecidableEq, Repr

structure ProbeReport where
  /-- The addresses with their ports, as text. -/
  resolvedAddresses : List String
  elapsedMs : ℕ
deriving DecidableEq

/-- A tunnel that an adapter has returned; the number tells it from others. -/
structure Tunnel where
  number : ℕ
  transportId : String
deriving DecidableEq

structure StartedTunnel where
  tunnel : Tunnel
  handshakeLatencyMs : ℕ
deriving DecidableEq

end Ket.Client
