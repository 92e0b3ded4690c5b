import Ket.Client.State
import Ket.Core.Secret
import Ket.Lib.Check
import Ket.Lib.Url

/-!
# What an app takes from the server (`ket-client-core/src/validation.rs`)

A manifest is checked before it becomes part of the state, and a status before it replaces the last
one.
-/

namespace Ket.Client

open Ket.Core Ket.Lib

def maxNodeTextChars : ℕ := 128
def maxPublicUrlChars : ℕ := 2048
def maxTransports : ℕ := 32
def maxTransportIdChars : ℕ := 128
def maxEndpointChars : ℕ := 253
def maxOptionEntries : ℕ := 32
def maxOptionKeyChars : ℕ := 64
def maxOptionValueChars : ℕ := 2048
def maxSecretEntries : ℕ := 16
def maxSecretChars : ℕ := 4096
def maxOpenvpnEncodedMaterialChars : ℕ := (8 * 1024 + 2) / 3 * 4

abbrev Checked : Type := Except ClientError Unit

/-- A check, with what is said if it fails. -/
def check (b : Bool) (message : String) : Checked := require b (.invalidResponse message)

/-! ### Texts -/

def validateIdentifier (value label : String) (maximumChars : ℕ) : Checked :=
  check (decide (value ≠ "" ∧ value.length ≤ maximumChars) &&
    value.toList.all fun c => c.isAlphanum || ['-', '_', '.'].contains c) label

def validateText (value label : String) (maximumChars : ℕ) : Checked :=
  check (decide (value ≠ "" ∧ value = Str.trim value ∧ value.length ≤ maximumChars) &&
    !value.toList.any Str.isControl) label

def validateOptionKey (value label : String) : Checked :=
  check (decide (value ≠ "" ∧ Str.len value ≤ maxOptionKeyChars) &&
    value.toList.all fun c => c.isLower || c.isDigit || c == '_') label

def validateBoundedValue (value label : String) (maximumChars : ℕ) : Checked :=
  check (decide (value.length ≤ maximumChars) && !value.toList.any Str.isControl) label

def validateBoundedSecret (value label : String) (maximumChars : ℕ) : Checked :=
  check (decide (value ≠ "" ∧ value.length ≤ maximumChars) && !value.toList.any Str.isControl) label

def validateSecret (value label : String) : Checked :=
  validateBoundedSecret value label maxSecretChars

def validateEndpointName (value label : String) : Checked :=
  check (decide (value ≠ "" ∧ Str.len value ≤ maxEndpointChars ∧ value = Str.trim value) &&
    !value.toList.any fun c => Str.isControl c || Str.isWhitespace c) label

def validateEndpoint (value : String) : Checked := do
  validateEndpointName value "transport endpoint"
  check (!(Str.contains value "://" || value.toList.any fun c => ['/', '?', '#'].contains c))
    "transport endpoint is invalid"

/-! ### Times -/

def validateFutureExpiry (expiresAt now : ℕ) : Checked :=
  check (decide (now < expiresAt)) "session lease is already expired"

def validateAccessExpiry (accessExpiry : Option ℕ) (sessionExpiry now : ℕ) : Checked :=
  match accessExpiry with
  | some expiry => do
      validateFutureExpiry expiry now
      check (decide (sessionExpiry ≤ expiry)) "session lease outlives access time"
  | none => .ok ()

/-! ### The node -/

variable (P : Web.UrlParser)

def validatePublicUrl (value : String) : Checked := do
  validateText value "node public URL" maxPublicUrlChars
  let url ← okOr (P.parse value) (.invalidResponse "node public URL is invalid")
  check (["http", "https"].contains url.scheme && url.host.isSome && url.username == "" &&
    url.password.isNone && url.query.isNone && url.fragment.isNone) "node public URL is invalid"

def validateLocation (location : NodeLocation) : Checked := do
  check (decide (Str.len location.countryCode = 2) && location.countryCode.toList.all Char.isUpper)
    "node country code is invalid"
  validateText location.countryName "node country name" maxNodeTextChars
  match location.city with
  | some city => validateText city "node city" maxNodeTextChars
  | none => pure ()
  check (location.latitude.isFinite && location.latitude.isWithin (-90) 90)
    "node latitude is invalid"
  check (location.longitude.isFinite && location.longitude.isWithin (-180) 180)
    "node longitude is invalid"

/-- Memory that is used is part of some memory. -/
def isMemoryTelemetry : Option ℕ → Option ℕ → Bool
  | none, none => true
  | some used, some total => decide (0 < total ∧ used ≤ total)
  | _, _ => false

def validateNode (node : NodeStatus) : Checked := do
  validateIdentifier node.nodeId "node ID" maxNodeTextChars
  validateText node.displayName "node display name" maxNodeTextChars
  validatePublicUrl P node.publicUrl
  validateLocation node.location
  check (decide (node.sessionCapacity ≠ 0 ∧ node.activeSessions ≤ node.sessionCapacity))
    "node session capacity is invalid"
  check (node.capacityPercent.isFinite && node.capacityPercent.isWithin 0 100)
    "node capacity percent is invalid"
  check (node.cpuLoadPercent.all fun value => value.isFinite && value.isWithin 0 100)
    "node CPU load is invalid"
  check (isMemoryTelemetry node.memoryUsedBytes node.memoryTotalBytes)
    "node memory telemetry is invalid"
  check (decide (node.observedAt ≠ 0)) "node observation time is invalid"

def validateTraffic (traffic : SessionTraffic) : Checked := do
  check (decide (traffic.observedAt ≠ 0)) "traffic observation time is invalid"
  check (traffic.available || decide (traffic.bytesSent = 0 ∧ traffic.bytesReceived = 0 ∧
    traffic.onlineConnections = 0)) "unavailable traffic telemetry is inconsistent"

/-! ### Transports -/

def openvpnMaterialKeys : List String :=
  ["ca_certificate_pem_b64", "stunnel_ca_certificate_pem_b64", "tls_crypt_key_b64"]

def validateCredential (protocol : TransportProtocol) (credential : TransportCredential) :
    Checked := do
  validateSecret credential.auth "transport credential"
  check (decide (credential.secrets.length ≤ maxSecretEntries))
    "transport credential contains too many secrets"
  credential.secrets.forM fun entry => do
    validateOptionKey entry.1 "transport secret"
    validateBoundedSecret entry.2 "transport secret value" <|
      if protocol = .openVpnStunnel ∧ entry.1 ∈ openvpnMaterialKeys then
        maxOpenvpnEncodedMaterialChars
      else maxSecretChars

/-- The body of the loop over the transports; `seen` are the IDs of those before this one. -/
def validateTransport (seen : List String) (transport : SessionTransport) : Checked := do
  let profile := transport.profile
  validateIdentifier profile.id "transport ID" maxTransportIdChars
  validateText profile.displayName "transport display name" maxNodeTextChars
  validateEndpoint profile.endpoint
  check (decide (profile.port ≠ 0 ∧ profile.id ∉ seen))
    "server advertised an invalid transport profile"
  match profile.tlsServerName with
  | some serverName => validateEndpointName serverName "TLS server name"
  | none => pure ()
  check (decide (profile.options.length ≤ maxOptionEntries))
    "transport profile contains too many options"
  profile.options.forM fun entry => do
    validateOptionKey entry.1 "transport option"
    validateBoundedValue entry.2 "transport option value" maxOptionValueChars
  match transport.credential with
  | some credential => validateCredential profile.protocol credential
  | none => pure ()

def validateEach (seen : List String) : List SessionTransport → Checked
  | [] => .ok ()
  | transport :: transports => do
      validateTransport seen transport
      validateEach (seen ++ [transport.profile.id]) transports

/-! ### Answers -/

def validateManifest (manifest : SessionManifest) (now : ℕ) : Checked := do
  check (splitSessionToken manifest.sessionToken).isSome "session token has an invalid shape"
  validateFutureExpiry manifest.sessionExpiresAt now
  validateAccessExpiry manifest.accessExpiresAt manifest.sessionExpiresAt now
  validateNode P manifest.node
  check (decide (manifest.transports ≠ [] ∧ manifest.transports.length ≤ maxTransports))
    "server advertised an invalid transport count"
  validateEach [] manifest.transports

def validateStatus (status : SessionStatus) (token expectedClientName : String)
    (now : ℕ) : Checked := do
  let parts ← okOr (splitSessionToken token)
    (.invalidResponse "saved session token has an invalid shape")
  check (status.sessionId == parts.id) "session status identity does not match enrollment"
  validateText status.clientName "session client name" 96
  check (status.clientName == expectedClientName)
    "session status client name does not match enrollment"
  validateFutureExpiry status.expiresAt now
  validateAccessExpiry status.accessExpiresAt status.expiresAt now
  validateNode P status.node
  validateTraffic status.traffic
  check (status.allowance.all fun allowance => allowance.allowance.isValid)
    "data allowance is invalid"

end Ket.Client
