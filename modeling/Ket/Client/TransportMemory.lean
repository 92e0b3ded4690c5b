import Ket.Client.Strategy
import Ket.Lib.Str

/-!
# Transport histories by network (`ket-client-core/src/transport_memory.rs`)

One file holds a history for each network that the device was on.  Networks are told apart by a
salted hash; a history is loaded and saved under the key of the network that the device is on at that
moment.
-/

namespace Ket.Client

open Ket.Lib

/-- `MAX_NETWORKS`. -/
def maxNetworks : ℕ := 16

structure RememberedNetwork where
  seenAt : ℕ
  history : TransportHistory
deriving DecidableEq

structure MemoryFile where
  salt : String
  networks : OrderedMap String RememberedNetwork
deriving DecidableEq

namespace MemoryFile

/-- `MemoryFile::default`. -/
def initial : MemoryFile := ⟨"", .empty⟩

/-- What a file that may be missing or damaged is read as. -/
def read (file : Option MemoryFile) : MemoryFile := file.getD initial

end MemoryFile

/-- The older of the network found so far and the next one. -/
def older (found : Option (String × RememberedNetwork)) (entry : String × RememberedNetwork) :
    Option (String × RememberedNetwork) :=
  match found with
  | none => some entry
  | some e => if entry.2.seenAt < e.2.seenAt then some entry else some e

/-- `min_by_key`: the first of the networks that were seen longest ago. -/
def oldest (networks : OrderedMap String RememberedNetwork) : Option String :=
  (networks.entries.foldl older none).map (·.1)

/-- The loop that forgets networks; it ends before the fuel does, which is their number. -/
def forget : ℕ → OrderedMap String RememberedNetwork → OrderedMap String RememberedNetwork
  | 0, networks => networks
  | fuel + 1, networks =>
    if maxNetworks < networks.size then
      match oldest networks with
      | some key => forget fuel (networks.erase key)
      | none => networks
    else networks

/-- Two hexadecimal digits for each byte. -/
def hex (bytes : List UInt8) : String :=
  String.ofList (bytes.flatMap fun b => [Nat.digitChar (b.toNat / 16), Nat.digitChar (b.toNat % 16)])

abbrev Sha256 : Type := List UInt8 → Vector UInt8 32

section

variable (sha256 : Sha256)

/-- `network_key`. -/
def networkKey (salt network : String) : String :=
  hex ((sha256 (Str.bytes salt ++ 0 :: Str.bytes network)).toList.take 16)

/-- `NetworkTransportMemory::load`. -/
def loadHistory (file : Option MemoryFile) (network : Option String) : TransportHistory :=
  match network with
  | none => .empty
  | some network =>
    let file := MemoryFile.read file
    ((file.networks.get? (networkKey sha256 file.salt network)).map (·.history)).getD .empty

/-- A file whose salt has another length is started anew. -/
def salted (file : MemoryFile) (freshSalt : String) : MemoryFile :=
  if Str.len file.salt = 64 then file else ⟨freshSalt, .empty⟩

/-- `NetworkTransportMemory::save`, as far as the write: what the file shall be. -/
def savedHistory (file : Option MemoryFile) (network freshSalt : String) (now : ℕ)
    (history : TransportHistory) : MemoryFile :=
  let file := salted (MemoryFile.read file) freshSalt
  let networks := file.networks.insert (networkKey sha256 file.salt network) ⟨now, history⟩
  { file with networks := forget networks.size networks }

end

lemma get?_of_get?_forget {fuel : ℕ} {networks : OrderedMap String RememberedNetwork} {key : String}
    {n : RememberedNetwork} (h : (forget fuel networks).get? key = some n) :
    networks.get? key = some n := by
  induction fuel generalizing networks with
  | zero => exact h
  | succ fuel ih =>
    rw [forget] at h
    split at h
    · split at h
      · exact OrderedMap.get?_of_get?_erase (ih h)
      · exact h
    · exact h

end Ket.Client
