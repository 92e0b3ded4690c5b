import Ket.Client.Runtime

/-!
# Runs of the client

The operations of `Runtime` with what they act on.  Adapters, tunnels, the server and the clock
answer as they like.  Between two commands of an operation, others may cancel a connection attempt,
change settings, and move the device to another network.

The state also keeps what happened: the tunnels that adapters returned and that were stopped, and
what became of transports, with the network that the device was on at that time.
-/

namespace Ket.Client

open Ket.Core Ket.Lib

structure World where
  runtime : Runtime
  snapshot : ClientSnapshot
  /-- The attempt that subscribed last was cancelled. -/
  cancelled : Bool
  /-- The network that the device is on. -/
  network : Option String
  /-- The file of the transport memory. -/
  file : Option MemoryFile
  /-- The tunnels that an adapter returned. -/
  started : List Tunnel
  /-- The tunnels whose `stop` has succeeded. -/
  stopped : List Tunnel
  /-- `stop_tunnel` or `disconnect` has succeeded, and no `connect` was called since. -/
  halted : Bool
  /-- What was seen of transports, with the network that the device was on. -/
  observed : List (Option String × Observation)
  /-- What was seen since the history was loaded last. -/
  fresh : List Observation
  /-- The device has not left its network since the history was loaded last. -/
  loaded : Bool

namespace World

/-- What is seen is seen on the network that the device is on. -/
def observe (w : World) (o : Observation) : World :=
  { w with observed := (w.network, o) :: w.observed, fresh := o :: w.fresh }

/-- What the health of a route says of the tunnel that is held. -/
def observeRoute (w : World) : World :=
  match w.runtime.tunnel with
  | some t => w.observe (.failed t.transportId)
  | none => w

section

variable (sha256 : Sha256)

/-- The history is loaded, and what was seen before does not count any more. -/
def load (w : World) (readable : Bool) : World :=
  if w.runtime.memory then
    let history := loadHistory sha256 (if readable then w.file else none) w.network
    { w with runtime := { w.runtime with history := history }, loaded := true, fresh := [] }
  else w

/-- What the file is after a save. -/
def save (w : World) (history : TransportHistory) (o : SaveOutcome) : Option MemoryFile :=
  match w.network with
  | none => w.file
  | some network =>
    if o.written then
      some (savedHistory sha256 (if o.readable then w.file else none) network o.freshSalt o.now
        history)
    else w.file

def record (w : World) (recording : Recording) (o : SaveOutcome) : World :=
  let history := w.runtime.history.record recording
  { w with
    runtime := { w.runtime with history := history }
    file := if w.runtime.memory then w.save sha256 history o else w.file }

/-- What a command does with an answer; `none` where that cannot be its answer. -/
def reply (w : World) : (c : Command) → Answer c → Option World
  | .runtime update, r =>
    if r = w.runtime then some { w with runtime := update w.runtime } else none
  | .snapshot update, s =>
    if s = w.snapshot then some { w with snapshot := update w.snapshot } else none
  | .subscribe, _ => some { w with cancelled := false }
  | .hasChanged, changed => if changed = w.cancelled then some w else none
  | .probe _, none => if w.cancelled then some w else none
  | .probe _, some (.ok _) => some w
  | .probe transport, some (.error _) => some (w.observe (.failed transport.profile.id))
  | .connect _ _, none => if w.cancelled then some w else none
  | .connect transport _, some (.ok started) =>
    if started.tunnel ∈ w.started then none
    else
      let latency := min started.handshakeLatencyMs u64Max
      some { w.observe (.worked transport.profile.id latency) with
        started := started.tunnel :: w.started }
  | .connect transport _, some (.error _) => some (w.observe (.failed transport.profile.id))
  | .status tunnel, status =>
    if status = .connected then some w else some (w.observe (.failed tunnel.transportId))
  | .stop tunnel, .ok () => some { w with stopped := tunnel :: w.stopped }
  | .isHealthy, healthy => if healthy then some w else some w.observeRoute
  | .load, readable => some (w.load sha256 readable)
  | .record recording, o => some (w.record sha256 recording o)
  | _, _ => some w

end

/-- What others do between two commands. -/
inductive Other where
  /-- `stop_tunnel` and `disconnect` do this before they wait for the lock. -/
  | cancel
  | setTransportMemory
  | setAutomaticExclusions (excluded : List TransportProtocol)
  /-- `network_moved`. -/
  | noteGeneration (generation : ℕ)
  /-- The device leaves its network for another one, or for none. -/
  | move (network : Option String)
  /-- The file of the transport memory is lost or damaged. -/
  | loseFile
deriving DecidableEq

def other (w : World) : Other → World
  | .cancel => { w with cancelled := true }
  | .setTransportMemory => { w with runtime := { w.runtime with memory := true } }
  | .setAutomaticExclusions excluded =>
    { w with runtime := { w.runtime with automaticExcluded := excluded } }
  | .noteGeneration generation =>
    { w with runtime := { w.runtime with networkGeneration := generation } }
  | .move network => { w with
      network := network, loaded := w.loaded && decide (network = w.network) }
  | .loseFile => { w with file := none }

/-- A device on a network, with the file that an earlier run left. -/
def initial (network : Option String) (file : Option MemoryFile) : World :=
  ⟨.initial, .initial, false, network, file, [], [], false, [], [], false⟩

def begins (w : World) : Operation → World
  | .connect _ => { w with halted := false }
  | _ => w

def ends (w : World) (op : Operation) (r : Except ClientError ClientSnapshot) : World :=
  { w with halted := w.halted || decide (op = .stopTunnel ∨ op = .disconnect) && r.isOk }

end World

/-- A client on a device.  An operation is not dropped before its end. -/
def KetClient.machine (K : KetClient) (sha256 : Sha256) (network : Option String)
    (file : Option MemoryFile) : Machine World Command Answer Operation
      (Except ClientError ClientSnapshot) World.Other where
  start := World.initial network file
  program op := (K.program op).run
  reply := World.reply sha256
  other w e := some (w.other e)
  begins w op := some (w.begins op)
  ends := World.ends
  drops _ _ := none

abbrev Config := Machine.Config World Command Answer Operation (Except ClientError ClientSnapshot)

abbrev Event := Machine.Event Command Answer Operation World.Other

/-! ### Runs that can be evaluated -/

namespace Sample

/-- A node that is reached at one address. -/
def urls : Web.UrlParser where
  parse text := if text = "https://node.test" then
    some ⟨"https", "", none, some (.domain "node.test"), none, "/", none, none⟩ else none
  parse_trimEndMatches {text url} h _ _ _ _ := by
    split at h
    · rename_i htext
      have htrim : Str.trimEndMatches '/' text = "https://node.test" := by
        rw [htext]
        decide
      rw [htrim, if_pos rfl]
      exact ⟨url.path, by cases h; rfl⟩
    · cases h

def node : NodeStatus where
  nodeId := "node"
  displayName := "Node"
  publicUrl := "https://node.test"
  location := ⟨"CH", "Schweiz", none, .finite 47, .finite 8⟩
  health := .healthy
  activeSessions := 1
  sessionCapacity := 8
  capacityPercent := .finite 12
  cpuLoadPercent := none
  memoryUsedBytes := none
  memoryTotalBytes := none
  uptimeSeconds := none
  observedAt := 100

def transport (id : String) (priority : ℕ) : SessionTransport :=
  ⟨⟨id, id, .hysteria2, "node.test", 443, .udp, priority, none, []⟩, none⟩

def token : String := String.ofList (List.replicate 44 'a')

def manifest : SessionManifest where
  sessionToken := token
  sessionExpiresAt := 1000
  accessExpiresAt := none
  node := node
  transports := [transport "x" 1, transport "y" 2]

def client : KetClient := ⟨"laptop", urls, [fun _ => true], .standard⟩

def salt : String := String.ofList (List.replicate 64 'a')

/-- A hash that tells texts apart by their last character. -/
def sha256 : Sha256 := fun bytes => Vector.replicate 32 (bytes.getLastD 0)

/-- Everything works, but for the transports that are named. -/
def answers (broken : List String) (w : World) : (c : Command) → Answer c
  | .runtime _ => w.runtime
  | .snapshot _ => w.snapshot
  | .unixTime => 100
  | .elapsed => 5
  | .subscribe => ()
  | .hasChanged => w.cancelled
  | .createSession _ => .ok manifest
  | .renewSession _ => .error (.network "request timed out")
  | .sessionStatus _ => .error (.network "request timed out")
  | .releaseSession _ => .ok ()
  | .probe _ => some (.ok ⟨[], 3⟩)
  | .connect transport _ =>
    if transport.profile.id ∈ broken then
      some (.error (.transport transport.profile.id "timed out" true))
    else some (.ok ⟨⟨w.started.length, transport.profile.id⟩, 20⟩)
  | .status _ => .connected
  | .network _ => ⟨1, false⟩
  | .stop _ => .ok ()
  | .isHealthy => true
  | .load => true
  | .record _ => ⟨salt, 100, true, true⟩

/-- A command is answered, if one is pending. -/
def reply (broken : List String) (s : Config) : Option Event :=
  s.running.map fun _ => .reply (answers broken s.state)

/-- An operation, from its beginning to its end. -/
def call (op : Operation) (broken : List String) : List (Config → Option Event) :=
  (fun _ => some (.begin op)) :: List.replicate 48 (reply broken)

def accessCode : String := String.ofList (List.replicate 32 'a')

end Sample

end Ket.Client
