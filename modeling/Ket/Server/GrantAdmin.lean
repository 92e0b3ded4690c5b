import Ket.Server.Allowance
import Mathlib.Data.List.Sort

/-!
# Changes to a grant (`ket-server/src/grant_admin.rs`)

`apply` puts an admin's changes into one grant of the state and decides which of its sessions
the change ends.
-/

namespace Ket.Server

open Ket.Core Ket.Lib

/-- Why an operation of the service fails. -/
inductive ServiceError where
  | invalidInput (message : String)
  | unauthorized
  | grantExpired
  | grantCapacity
  | grantPaused
  | allowanceUsed (resetsAt : ℕ)
  | nodeCapacity
  | busy
  | notFound
  | forbidden
  | crypto
  | persistence
  | invalidState (message : String)
deriving DecidableEq, Repr

/-- `session_allocation`. -/
def sessionAllocation (session : SessionRecord) : Except ServiceError SessionAllocation :=
  match session.resourceSlot with
  | some slot => .ok ⟨session.id, slot⟩
  | none => .error (.invalidState "an active session has no resource slot")

/-- The allocations of a list of sessions, which all must have a slot. -/
def sessionAllocations : List SessionRecord → Except ServiceError (List SessionAllocation)
  | [] => .ok []
  | session :: sessions => do
      let allocation ← sessionAllocation session
      let allocations ← sessionAllocations sessions
      return allocation :: allocations

namespace GrantAdmin

/-- The changed grant. -/
def changeGrant (g : AccessGrantRecord) (changes : UpdateAccessGrantRequest) (now : ℕ) :
    AccessGrantRecord :=
  let newPeriod := changes.allowance.any fun new =>
    decide (new.map DataAllowance.period ≠ g.allowance.map DataAllowance.period)
  { g with
    label := changes.label.getD g.label
    paused := changes.paused.getD g.paused
    protocols := changes.protocols.getD g.protocols
    maxConnections := changes.maxConnections.getD g.maxConnections
    expiresAt := changes.expiresAt.or g.expiresAt
    allowance := changes.allowance.getD g.allowance
    allowanceSince :=
      if newPeriod then (changes.allowance.getD none).map (fun _ => now) else g.allowanceSince
    usage := if newPeriod || changes.resetUsage then none else g.usage }

/-- Whether the change ends every session of the grant: it was paused, its protocols changed,
or its allowance is now used up. -/
def endsAll (g : AccessGrantRecord) (changes : UpdateAccessGrantRequest) (now : ℕ) : Bool :=
  (changes.paused.any fun paused => paused && !g.paused) ||
    (changes.protocols.any fun protocols => decide (protocols ≠ g.protocols)) ||
    ((changeGrant g changes now).usedUpUntil now).isSome

/-- A session of the grant is cut to the grant's end. -/
def cutLease (id : String) (expiresAt : Option ℕ) (session : SessionRecord) : SessionRecord :=
  if session.grantId = id then
    { session with expiresAt := expiresAt.elim session.expiresAt (min session.expiresAt) }
  else session

/-- The order of the loop: oldest first. -/
def olderOrEqual (a b : SessionRecord) : Prop :=
  a.issuedAt < b.issuedAt ∨ (a.issuedAt = b.issuedAt ∧ a.id ≤ b.id)

instance : DecidableRel olderOrEqual := fun a b =>
  inferInstanceAs (Decidable (a.issuedAt < b.issuedAt ∨ (a.issuedAt = b.issuedAt ∧ a.id ≤ b.id)))

/-- The loop over the grant's sessions: the IDs of those that end.  `active` counts the live
ones that stay. -/
def ending (endAll : Bool) (maxConnections now : ℕ) : ℕ → List SessionRecord → List String
  | _, [] => []
  | active, session :: sessions =>
    let live := decide (now < session.expiresAt)
    if endAll || (live && decide (maxConnections ≤ active)) then
      session.id :: ending endAll maxConnections now active sessions
    else ending endAll maxConnections now (if live then active + 1 else active) sessions

/-- The first grant with this ID is replaced. -/
def replaceGrant (id : String) (g : AccessGrantRecord) : List AccessGrantRecord → List AccessGrantRecord
  | [] => []
  | grant :: grants =>
    if grant.id = id then g :: grants else grant :: replaceGrant id g grants

/-- `grant_admin::apply`. -/
def apply (s : PersistedState) (id : String) (changes : UpdateAccessGrantRequest) (now : ℕ) :
    Except ServiceError (PersistedState × List SessionAllocation) :=
  match s.findGrant id with
  | none => .error .notFound
  | some grant => do
      let changed := changeGrant grant changes now
      let sessions := s.sessions.map (cutLease id changed.expiresAt)
      let ordered := (sessions.filter fun session => session.grantId = id).insertionSort olderOrEqual
      let ids := ending (endsAll grant changes now) changed.maxConnections now 0 ordered
      let ended ← sessionAllocations (sessions.filter fun session => session.id ∈ ids)
      return ({ s with
        grants := replaceGrant id changed s.grants
        sessions := sessions.filter fun session => session.id ∉ ids }, ended)

end GrantAdmin

end Ket.Server
