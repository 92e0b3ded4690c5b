import Ket.Core.Allowance
import Mathlib.Data.Finset.Defs

/-!
# Access grants as the admin API speaks of them (`ket-core/src/grant.rs`)
-/

namespace Ket.Core

/-- `MAX_ACCESS_GRANT_VALIDITY_MINUTES`. -/
def maxAccessGrantValidityMinutes : ℕ := 365 * 24 * 60

inductive TransportProtocol where
  | hysteria2
  | ikev2
  | openVpnStunnel
  | shadowsocks2022
  | stealth
  | vlessXtlsReality
  | wireGuard
  | xorScrambled
deriving DecidableEq, Repr

/-- Which protocols a grant's devices may use.  `all` also covers protocols the server
enables later. -/
inductive ProtocolAccess where
  | all
  | only (protocols : Finset TransportProtocol)
deriving DecidableEq

namespace ProtocolAccess

def allows (a : ProtocolAccess) (p : TransportProtocol) : Bool :=
  match a with
  | all => true
  | only protocols => decide (p ∈ protocols)

def isAll (a : ProtocolAccess) : Bool :=
  match a with
  | all => true
  | only _ => false

/-- An empty `only` set would lock every device out, so it is never valid. -/
def isValid (a : ProtocolAccess) : Bool :=
  match a with
  | all => true
  | only protocols => decide (protocols ≠ ∅)

end ProtocolAccess

/-- The part of `CreateAccessGrantRequest` that the service reads. -/
structure CreateAccessGrantRequest where
  label : String
  maxConnections : ℕ
  validForMinutes : ℕ
  protocols : ProtocolAccess
  allowance : Option DataAllowance
deriving DecidableEq

/-- Changes to an existing access grant.  Absent fields stay as they are; an allowance of
`some none` removes the allowance. -/
structure UpdateAccessGrantRequest where
  label : Option String
  maxConnections : Option ℕ
  expiresAt : Option ℕ
  paused : Option Bool
  protocols : Option ProtocolAccess
  allowance : Option (Option DataAllowance)
  resetUsage : Bool
deriving DecidableEq

namespace UpdateAccessGrantRequest

/-- The request that changes nothing. -/
def unchanged : UpdateAccessGrantRequest :=
  ⟨none, none, none, none, none, none, false⟩

def isEmpty (r : UpdateAccessGrantRequest) : Bool := decide (r = unchanged)

end UpdateAccessGrantRequest

end Ket.Core
