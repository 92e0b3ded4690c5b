import Ket.Core.Contract
import Ket.Lib.OrderedMap
import Ket.Lib.Word
import Mathlib.Data.List.Sort

/-!
# Choosing a transport (`ket-client-core/src/strategy.rs`)

A history says how each transport fared.  The candidates for a connection are ranked by it; a
transport that failed waits for a while behind the others.
-/

namespace Ket.Client

open Ket.Core Ket.Lib

/-! ### Histories -/

/-- `MAX_RECORDS`. -/
def maxRecords : ℕ := 32

structure TransportRecord where
  consecutiveFailures : ℕ
  lastLatencyMs : Option ℕ
  cooldownUntil : ℕ
  worked : Bool
deriving DecidableEq

/-- `TransportRecord::default`. -/
def TransportRecord.fresh : TransportRecord := ⟨0, none, 0, false⟩

structure TransportHistory where
  records : OrderedMap String TransportRecord
deriving DecidableEq

namespace TransportHistory

/-- `TransportHistory::default`. -/
def empty : TransportHistory := ⟨.empty⟩

/-- Records are dropped from the front, in the order of the IDs. -/
def bound (h : TransportHistory) : TransportHistory :=
  ⟨⟨h.records.entries.drop (h.records.size - maxRecords), h.records.sorted.drop⟩⟩

def recordSuccess (h : TransportHistory) (id : String) (latencyMs : ℕ) : TransportHistory :=
  bound ⟨h.records.insert id ⟨0, some latencyMs, 0, true⟩⟩

/-- The record of a transport that has failed once more. -/
def failed (record : TransportRecord) (now baseCooldownSeconds : ℕ) : TransportRecord :=
  let failures := min (record.consecutiveFailures + 1) u32Max
  let multiplier := 2 ^ min (failures - 1) 3
  let cooldown := min (min (baseCooldownSeconds * multiplier) u64Max) 120
  { record with consecutiveFailures := failures, cooldownUntil := saturatingAdd now cooldown }

def recordFailure (h : TransportHistory) (id : String) (now baseCooldownSeconds : ℕ) :
    TransportHistory :=
  bound ⟨h.records.insert id (failed ((h.records.get? id).getD .fresh) now baseCooldownSeconds)⟩

end TransportHistory

/-- What is seen of a transport. -/
inductive Observation where
  | worked (transportId : String) (latencyMs : ℕ)
  | failed (transportId : String)
deriving DecidableEq

/-- What a history records: what was seen, with the time and the policy for a failure. -/
inductive Recording where
  | success (transportId : String) (latencyMs : ℕ)
  | failure (transportId : String) (now baseCooldownSeconds : ℕ)
deriving DecidableEq

def Recording.observation : Recording → Observation
  | success transportId latencyMs => .worked transportId latencyMs
  | failure transportId _ _ => .failed transportId

def TransportHistory.record (h : TransportHistory) : Recording → TransportHistory
  | .success transportId latencyMs => h.recordSuccess transportId latencyMs
  | .failure transportId now baseCooldownSeconds =>
    h.recordFailure transportId now baseCooldownSeconds

/-! ### Ranking -/

structure SelectionPolicy where
  maxAttempts : ℕ
  preferredProtocol : Option TransportProtocol
  failureCooldownSeconds : ℕ
deriving DecidableEq

/-- `SelectionPolicy::default`. -/
def SelectionPolicy.standard : SelectionPolicy := ⟨3, none, 15⟩

/-- What the candidates are ranked by. -/
structure RankKey where
  coolingDown : Bool
  notPreferred : Bool
  failures : ℕ
  notWorked : Bool
  priority : ℕ
  latency : ℕ
  id : String

/-- The order of the tuples. -/
def RankKey.order (a b : RankKey) : Ordering :=
  (compare a.coolingDown b.coolingDown).then <|
  (compare a.notPreferred b.notPreferred).then <|
  (compare a.failures b.failures).then <|
  (compare a.notWorked b.notWorked).then <|
  (compare a.priority b.priority).then <|
  (compare a.latency b.latency).then (compare a.id b.id)

def rankKey (history : TransportHistory) (now : ℕ) (preference : Option TransportProtocol)
    (transport : SessionTransport) : RankKey :=
  let record := history.records.get? transport.profile.id
  { coolingDown := record.any fun record => decide (now < record.cooldownUntil)
    notPreferred := !(preference.any fun protocol => protocol == transport.profile.protocol)
    failures := record.elim 0 (·.consecutiveFailures)
    notWorked := !(record.any (·.worked))
    priority := transport.profile.priority
    latency := (record.bind (·.lastLatencyMs)).getD 500
    id := transport.profile.id }

/-- Whether an adapter can carry a transport. -/
abbrev Adapter : Type := SessionTransport → Bool

/-- The transports that may be tried: those of the protocol that was asked for, or all that are not
left out, unless that would leave none. -/
def eligible (transports : List SessionTransport) (adapters : List Adapter)
    (preferred : Option TransportProtocol) (automaticExcluded : List TransportProtocol) :
    List SessionTransport :=
  let candidates := (transports.filter fun t => adapters.any (· t)).filter fun t =>
    preferred.all (· == t.profile.protocol)
  if preferred.isNone && candidates.any fun t => !automaticExcluded.contains t.profile.protocol then
    candidates.filter fun t => !automaticExcluded.contains t.profile.protocol
  else candidates

def rankFor (policy : SelectionPolicy) (transports : List SessionTransport)
    (adapters : List Adapter) (history : TransportHistory) (now : ℕ)
    (preferred : Option TransportProtocol) (automaticExcluded : List TransportProtocol) :
    List SessionTransport :=
  let key := rankKey history now (preferred.or policy.preferredProtocol)
  ((eligible transports adapters preferred automaticExcluded).insertionSort fun a b =>
    (key a).order (key b) ≠ .gt).take (max policy.maxAttempts 1)

end Ket.Client
