import Ket.Client.State
import Ket.Lib.Program

/-!
# The tunnel service (`ket-tunnel-service`)

The service starts and stops tunnels for the apps of a computer, one at a time.  A tunnel is kept
under a lease; the app has to send heartbeats, or the reaper stops the tunnel.

The commands that start and stop tunnels, the reaper and the shutdown hold one lock from their first
step to their last, so that they are the operations of a `Machine`; a command that waits for the lock
has done nothing yet.  A command runs under a timeout that may drop it wherever it awaits something.
Status requests and heartbeats take no part in the lock and come at any time, and so does what
happens to the processes of a tunnel.
-/

namespace Ket.Tunnel

open Ket.Lib
open Ket.Client (TunnelStatus)

/-- A tunnel that an adapter has started or is about to start. -/
structure Supervised where
  /-- What its supervisor has published. -/
  status : TunnelStatus
  /-- Its processes have stopped, the system DNS is restored and its routes are removed. -/
  tornDown : Bool
deriving DecidableEq

structure TunnelLease where
  /-- The tunnel, by its place among all that were started. -/
  tunnel : ℕ
  expiresAt : ℕ
deriving DecidableEq

namespace Broker

/-- What is answered to an app, besides the state of a tunnel. -/
inductive Response where
  | connected (tunnelId : String)
  | stopped
  | fault (code : String) (message : String) (retryable : Bool)
  | done
deriving DecidableEq

/-- An error of an adapter or a tunnel, with what the service tells an app. -/
structure TunnelError where
  code : String
  message : String
  retryable : Bool
deriving DecidableEq

def clientFault (e : TunnelError) : Response := .fault e.code e.message e.retryable

/-- An error of a transport. -/
def TunnelError.transport (message : String) : TunnelError := ⟨"transport_failed", message, true⟩

inductive Command where
  | now
  /-- The expired leases are taken out of the map. -/
  | removeExpired (now : ℕ)
  | isEmpty
  | remove (tunnelId : String)
  /-- All leases are taken out of the map. -/
  | drain
  | randomId
  /-- The lease begins when the map is locked. -/
  | insert (tunnelId : String) (tunnel ttl : ℕ)
  /-- An adapter starts to connect. -/
  | connect
  | awaitConnect
  | status (tunnel : ℕ)
  /-- `command_tx.send`. -/
  | sendStop (tunnel : ℕ)
  /-- Waits until the status is another one, for as long as the tunnel gives it. -/
  | awaitStatus (tunnel : ℕ)
deriving DecidableEq

abbrev Answer : Command → Type
  | .now => ℕ
  | .removeExpired _ => List (String × ℕ)
  | .isEmpty => Bool
  | .remove _ => Option ℕ
  | .drain => List ℕ
  | .randomId => String
  | .insert _ _ _ => Unit
  | .connect => Unit
  | .awaitConnect => Except TunnelError ℕ
  | .status _ => TunnelStatus
  | .sendStop _ => Bool
  | .awaitStatus _ => Option TunnelStatus

abbrev Task := Program Command Answer

def perform (c : Command) : Task (Answer c) := Program.perform c

/-- `FullRouteTunnel::stop`. -/
def stopTunnel (tunnel : ℕ) : Task (Except TunnelError Unit) := do
  match ← perform (.status tunnel) with
  | .stopped => return .ok ()
  | .failed _ => return .ok ()
  | .connected =>
    match ← perform (.sendStop tunnel) with
    | false => return .error (.transport "transport supervisor is unavailable")
    | true =>
      match ← perform (.awaitStatus tunnel) with
      | none => return .error (.transport "transport shutdown timed out")
      | some .stopped => return .ok ()
      | some (.failed message) => return .error (.transport message)
      | some .connected => return .error (.transport "transport shutdown did not complete")

/-- How long an expired lease is kept when its tunnel could not be stopped, in seconds. -/
def retrySeconds : ℕ := 2

/-- The loop of `reap_expired_locked`. -/
def stopExpired : List (String × ℕ) → Task Unit
  | [] => return ()
  | (id, tunnel) :: expired => do
      match ← stopTunnel tunnel with
      | .ok () => stopExpired expired
      | .error _ => do
          perform (.insert id tunnel retrySeconds)
          stopExpired expired

def reapExpiredLocked : Task Unit := do
  let now ← perform .now
  let expired ← perform (.removeExpired now)
  stopExpired expired

/-- The loop of `stop_all`. -/
def stopEach : List ℕ → Task Unit
  | [] => return ()
  | tunnel :: tunnels => do
      let _ ← stopTunnel tunnel
      stopEach tunnels

def stopAll : Task Response := do
  let leases ← perform .drain
  stopEach leases
  return .done

/-- `BrokerRequest::Connect` after the lock was taken. -/
def handleConnect (ttl : ℕ) (unresolved : Bool) : Task Response := do
  reapExpiredLocked
  if unresolved then return .fault "invalid_transport" "transport request is invalid" false
  else do
    match ← perform .isEmpty with
    | false =>
      return .fault "tunnel_busy" "another full-route tunnel is already active" true
    | true => do
        perform .connect
        match ← perform .awaitConnect with
        | .error e => return clientFault e
        | .ok tunnel => do
            let tunnelId ← perform .randomId
            perform (.insert tunnelId tunnel ttl)
            return .connected tunnelId

/-- `BrokerRequest::Stop` after the lock was taken. -/
def handleStop (ttl : ℕ) (tunnelId : String) : Task Response := do
  match ← perform (.remove tunnelId) with
  | none => return .stopped
  | some tunnel =>
    match ← stopTunnel tunnel with
    | .ok () => return .stopped
    | .error e => do
        perform (.insert tunnelId tunnel ttl)
        return clientFault e

/-- What holds the lock. -/
inductive Operation where
  /-- A request to connect; it may name no address of the server. -/
  | connect (unresolved : Bool)
  | stop (tunnelId : String)
  | reap
  | shutdown
deriving DecidableEq

def Operation.program (ttl : ℕ) : Operation → Task Response
  | .connect unresolved => handleConnect ttl unresolved
  | .stop tunnelId => handleStop ttl tunnelId
  | .reap => do
      reapExpiredLocked
      return .done
  | .shutdown => stopAll

/-! ### The world -/

structure World where
  /-- All tunnels that adapters have started or began to start. -/
  tunnels : List Supervised
  leases : List (String × TunnelLease)
  now : ℕ
  /-- The tunnels that the operation has taken out of the map or has started, and not put into it. -/
  inHand : List ℕ
  /-- The operation is the shutdown. -/
  shuttingDown : Bool

namespace World

variable (w : World)

def lookup (tunnelId : String) : Option TunnelLease :=
  (w.leases.find? (·.1 = tunnelId)).map Prod.snd

/-- The tunnels of the lease map. -/
def leased : List ℕ := w.leases.map fun l => l.2.tunnel

def expired (now : ℕ) : List (String × TunnelLease) := w.leases.filter (·.2.expiresAt ≤ now)

/-- What an operation takes out of the map. -/
def taking (taken : List ℕ) (left : List (String × TunnelLease)) : World :=
  { w with leases := left, inHand := taken ++ w.inHand }

def reply : (c : Command) → Answer c → Option World
  | .now, (t : ℕ) => if t = w.now then some w else none
  | .removeExpired now, (ids : List (String × ℕ)) =>
    -- a hash map has no order of its own
    if ids.isPerm ((w.expired now).map fun l => (l.1, l.2.tunnel)) then
      some (w.taking (ids.map Prod.snd) (w.leases.filter (now < ·.2.expiresAt)))
    else none
  | .isEmpty, (b : Bool) => if b = w.leases.isEmpty then some w else none
  | .remove tunnelId, (tunnel : Option ℕ) =>
    if tunnel = (w.lookup tunnelId).map (·.tunnel) then
      some (w.taking tunnel.toList (w.leases.filter (·.1 ≠ tunnelId)))
    else none
  | .drain, (tunnels : List ℕ) =>
    if tunnels.isPerm w.leased then some (w.taking tunnels []) else none
  | .randomId, _ => some w
  | .insert tunnelId tunnel ttl, _ =>
    some { w with
      leases := (tunnelId, ⟨tunnel, w.now + ttl⟩) :: w.leases.filter (·.1 ≠ tunnelId)
      inHand := w.inHand.filter (· ≠ tunnel) }
  -- from here on the adapter may have set something up
  | .connect, _ =>
    some { w with
      tunnels := w.tunnels ++ [⟨.connected, false⟩]
      inHand := w.tunnels.length :: w.inHand }
  | .awaitConnect, (.ok tunnel : Except TunnelError ℕ) =>
    if w.tunnels.length = tunnel + 1 then some w else none
  -- an adapter stops what it has started before it gives up
  | .awaitConnect, .error _ =>
    some { w with
      tunnels := w.tunnels.modify (w.tunnels.length - 1) fun t => { t with tornDown := true } }
  | .status tunnel, (status : TunnelStatus) =>
    if (w.tunnels[tunnel]?).map (·.status) = some status then some w else none
  -- the supervisor has ended when it does not take the message
  | .sendStop tunnel, (sent : Bool) =>
    if sent = false → (w.tunnels[tunnel]?).map (·.status) ≠ some .connected then some w else none
  | .awaitStatus tunnel, (status : Option TunnelStatus) =>
    if ∀ s ∈ status, (w.tunnels[tunnel]?).map (·.status) = some s then some w else none

end World

/-- What happens meanwhile. -/
inductive Meanwhile where
  | heartbeat (tunnelId : String)
  | statusRequest (tunnelId : String)
  /-- The processes of a tunnel have stopped, the system DNS is restored and the routes are gone. -/
  | tornDown (tunnel : ℕ)
  /-- The supervisor of a tunnel says that it has ended. -/
  | published (tunnel : ℕ) (status : TunnelStatus)
  | clock (now : ℕ)
deriving DecidableEq

/-- `tunnel_status`, as far as it changes something: a heartbeat of a connected tunnel extends its
lease. -/
def World.tunnelStatus (w : World) (ttl : ℕ) (tunnelId : String) (heartbeat : Bool) : World :=
  match w.lookup tunnelId with
  | none => w
  | some lease =>
    if (w.tunnels[lease.tunnel]?).map (·.status) = some .connected ∧ heartbeat = true then
      { w with
        leases := w.leases.map fun l =>
          if l.1 = tunnelId then (l.1, { l.2 with expiresAt := w.now + ttl }) else l }
    else w

def World.meanwhile (ttl : ℕ) (w : World) : Meanwhile → Option World
  | .heartbeat tunnelId => some (w.tunnelStatus ttl tunnelId true)
  | .statusRequest tunnelId => some (w.tunnelStatus ttl tunnelId false)
  | .tornDown tunnel =>
    some { w with tunnels := w.tunnels.modify tunnel fun t => { t with tornDown := true } }
  | .published tunnel status =>
    if status = .connected then none
    else some { w with tunnels := w.tunnels.modify tunnel fun t => { t with status := status } }
  | .clock now => if w.now ≤ now then some { w with now := now } else none

/-- `lease_ttl` is at least six seconds. -/
def leaseTtl (configured : ℕ) : ℕ := max configured 6

/-- The service. -/
def machine (configured : ℕ) :
    Machine World Command Answer Operation Response Meanwhile where
  start := ⟨[], [], 0, [], false⟩
  program := Operation.program (leaseTtl configured)
  reply := World.reply
  other := World.meanwhile (leaseTtl configured)
  begins w op := some { w with shuttingDown := op = .shutdown }
  -- what an operation still holds when it ends or is dropped is lost to the service
  ends w _ _ := { w with inHand := [] }
  drops w _ := some { w with inHand := [] }

end Broker

end Ket.Tunnel
