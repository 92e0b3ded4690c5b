import Ket.Core.Grant
import Ket.Lib.Word

/-!
# What the server and the apps send each other (`ket-core/src/contract.rs`)

An ordered map is a list of its entries.  Advice about updates, which nothing here reads, is left
out.
-/

namespace Ket.Core

open Ket.Lib

structure NodeLocation where
  countryCode : String
  countryName : String
  city : Option String
  latitude : FloatValue
  longitude : FloatValue
deriving DecidableEq

inductive Network where
  | tcp
  | udp
  | tcpAndUdp
deriving DecidableEq

structure TransportProfile where
  id : String
  displayName : String
  protocol : TransportProtocol
  endpoint : String
  port : ℕ
  network : Network
  priority : ℕ
  tlsServerName : Option String
  options : List (String × String)
deriving DecidableEq

inductive HealthState where
  | healthy
  | degraded
  | saturated
deriving DecidableEq

structure NodeStatus where
  nodeId : String
  displayName : String
  publicUrl : String
  location : NodeLocation
  health : HealthState
  activeSessions : ℕ
  sessionCapacity : ℕ
  capacityPercent : FloatValue
  cpuLoadPercent : Option FloatValue
  memoryUsedBytes : Option ℕ
  memoryTotalBytes : Option ℕ
  uptimeSeconds : Option ℕ
  observedAt : ℕ
deriving DecidableEq

structure TransportCredential where
  auth : String
  secrets : List (String × String)
deriving DecidableEq

structure SessionTransport where
  profile : TransportProfile
  credential : Option TransportCredential
deriving DecidableEq

structure SessionManifest where
  sessionToken : String
  sessionExpiresAt : ℕ
  accessExpiresAt : Option ℕ
  node : NodeStatus
  transports : List SessionTransport
deriving DecidableEq

structure SessionTraffic where
  available : Bool
  bytesSent : ℕ
  bytesReceived : ℕ
  onlineConnections : ℕ
  observedAt : ℕ
deriving DecidableEq

structure SessionStatus where
  sessionId : String
  clientName : String
  expiresAt : ℕ
  accessExpiresAt : Option ℕ
  node : NodeStatus
  traffic : SessionTraffic
  allowance : Option AllowanceStatus
deriving DecidableEq

end Ket.Core
