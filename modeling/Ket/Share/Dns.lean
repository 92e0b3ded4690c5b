import Ket.Lib.Packet
import Ket.Share.Target

/-!
# Looking up a name through the tunnel (`ket-share/src/dns.rs`)

A query for the IPv4 addresses of a name, and the reader of what comes back.  The reader goes over
the response by positions; `Stop.missing` is a `?` on `None`, after which the response is ignored,
and `Stop.outOfBounds` is an index past the end of a slice, which never happens.
-/

namespace Ket.Share.Dns

open Ket.Lib Ket.Lib.Head Ket.Lib.Packet
open Ket.Lib.Text (Ipv4Addr)

def headerLength : ℕ := 12
def typeA : ℕ := 1
def classIn : ℕ := 1

/-- Labels, each behind its length. -/
def encodeLabels (labels : List (List UInt8)) : List UInt8 :=
  labels.flatMap fun label => UInt8.ofNat label.length :: label

/-- The question for the IPv4 addresses of `name`. -/
def askedFor (name : List UInt8) : List UInt8 :=
  encodeLabels (name.splitOn 0x2e) ++ [0] ++ toBigEndian 2 typeA ++ toBigEndian 2 classIn

/-- `query`: a recursive query for the A records of `name`. -/
def query (id : UInt16) (name : List UInt8) : List UInt8 :=
  -- recursion desired; one question
  toBigEndian 2 id.toNat ++ [0x01, 0x00, 0x00, 0x01, 0, 0, 0, 0, 0, 0] ++ askedFor name

inductive Answer where
  | addresses (addresses : List Ipv4Addr)
  /-- The name does not exist or has no IPv4 address. -/
  | notFound
  /-- Not the answer to this query, or unreadable. -/
  | ignored
deriving DecidableEq, Repr

/-- `skip_name`: labels to the root, or a compression pointer. -/
def skipName (packet : List UInt8) (offset : ℕ) : Except Stop ℕ :=
  match h : packet[offset]? with
  | none => .error .missing
  | some length =>
    if length = 0 then .ok (offset + 1)
    else if length &&& 0xc0 = 0xc0 then do
      let _ ← byte packet (offset + 1)
      return offset + 2
    else if length &&& 0xc0 = 0 then skipName packet (offset + (1 + length.toNat))
    else .error .missing
termination_by packet.length - offset
decreasing_by
  obtain ⟨hlt, -⟩ := List.getElem?_eq_some_iff.mp h
  omega

/-- `Ipv4Addr::new(data[0], data[1], data[2], data[3])`. -/
def ipv4At (data : List UInt8) : Except Stop Ipv4Addr := do
  return ⟨← index data 0, ← index data 1, ← index data 2, ← index data 3⟩

/-- One turn of the loop over the records: the addresses and the offset after it. -/
def readRecord (response : List UInt8) (offset : ℕ) (addresses : List Ipv4Addr) :
    Except Stop (List Ipv4Addr × ℕ) := do
  let offset ← skipName response offset
  let fixed ← get response offset (offset + 10)
  let kind ← u16At fixed 0
  let cls ← u16At fixed 2
  let length ← u16At fixed 8
  let data ← get response (offset + 10) (offset + 10 + length)
  if kind = typeA ∧ cls = classIn ∧ length = 4 then do
    let address ← ipv4At data
    return (addresses ++ [address], offset + 10 + length)
  else return (addresses, offset + 10 + length)

def readRecords (response : List UInt8) :
    ℕ → ℕ → List Ipv4Addr → Except Stop (List Ipv4Addr × ℕ)
  | 0, offset, addresses => .ok (addresses, offset)
  | answers + 1, offset, addresses => do
      let read ← readRecord response offset addresses
      readRecords response answers read.2 read.1

/-- The answer with these addresses. -/
def found (addresses : List Ipv4Addr) : Answer :=
  if addresses = [] then .notFound else .addresses addresses

/-- `read_answer`. -/
def readAnswer (id : UInt16) (name response : List UInt8) : Except Stop Answer := do
  let header ← get response 0 headerLength
  let named ← u16At header 0
  let flags ← index header 2
  require (decide (named = id.toNat) && decide (flags &&& 0x80 ≠ 0)) .missing
  let questions ← u16At header 4
  let answers ← u16At header 6
  require (decide (questions = 1)) .missing
  let asked ← sliceFrom (query id name) headerLength
  let question ← get response headerLength (headerLength + asked.length)
  require (eqIgnoreCase question asked) .missing
  let code ← index header 3
  if code &&& 0x0f = 0 then do
    let read ← readRecords response answers (headerLength + asked.length) []
    return found read.1
  else if code &&& 0x0f = 3 then return .notFound
  else .error .missing

/-- `answer`: what cannot be read is ignored; a panic stays one. -/
def answer (id : UInt16) (name response : List UInt8) : Except Stop Answer :=
  match readAnswer id name response with
  | .ok answer => .ok answer
  | .error .missing => .ok .ignored
  | .error .outOfBounds => .error .outOfBounds

/-! ### No index is out of bounds -/

section Safety

variable {response : List UInt8}

lemma safe_skipName (offset : ℕ) : Safe (skipName response offset) := by
  fun_induction skipName response offset with
  | case1 => exact safe_missing
  | case2 => exact safe_ok _
  | case3 => exact (safe_byte _).bind fun _ _ => safe_ok _
  | case4 offset length h hzero hpointer hlabel ih => exact ih
  | case5 => exact safe_missing

lemma safe_ipv4At {data : List UInt8} (h : data.length = 4) : Safe (ipv4At data) := by
  have hindex : ∀ i < 4, Safe (index data i) := fun i hi => safe_index (h ▸ hi)
  exact (hindex 0 (by decide)).bind fun _ _ => (hindex 1 (by decide)).bind fun _ _ =>
    (hindex 2 (by decide)).bind fun _ _ => (hindex 3 (by decide)).bind fun _ _ => safe_ok _

lemma safe_readRecord (offset : ℕ) (addresses : List Ipv4Addr) :
    Safe (readRecord response offset addresses) := by
  refine (safe_skipName offset).bind fun start _ => (safe_get _ _).bind fun fixed hfixed => ?_
  have hten : fixed.length = 10 := by
    rw [length_of_get hfixed]
    omega
  refine (safe_u16At (by omega)).bind fun kind _ => (safe_u16At (by omega)).bind fun cls _ =>
    (safe_u16At (by omega)).bind fun length _ => (safe_get _ _).bind fun data hdata => ?_
  split
  · rename_i haddress
    refine (safe_ipv4At ?_).bind fun _ _ => safe_ok _
    rw [length_of_get hdata]
    omega
  · exact safe_ok _

lemma safe_readRecords (answers offset : ℕ) (addresses : List Ipv4Addr) :
    Safe (readRecords response answers offset addresses) := by
  induction answers generalizing offset addresses with
  | zero => exact safe_ok _
  | succ answers ih =>
    exact (safe_readRecord offset addresses).bind fun read _ => ih read.2 read.1

lemma length_query (id : UInt16) (name : List UInt8) :
    (query id name).length = headerLength + (askedFor name).length := by
  simp [query, headerLength]
  omega

lemma sliceFrom_query (id : UInt16) (name : List UInt8) :
    sliceFrom (query id name) headerLength = .ok (askedFor name) := by
  rw [sliceFrom, if_pos (by rw [length_query]; exact Nat.le_add_right _ _), query]
  rw [List.drop_left' (by simp [headerLength])]

lemma safe_readAnswer (id : UInt16) (name response : List UInt8) :
    Safe (readAnswer id name response) := by
  refine (safe_get _ _).bind fun header hheader => ?_
  have htwelve : header.length = 12 := length_of_get hheader
  refine (safe_u16At (by omega)).bind fun named _ => (safe_index (by omega)).bind fun flags _ =>
    (safe_require _).bind fun _ _ => (safe_u16At (by omega)).bind fun questions _ =>
    (safe_u16At (by omega)).bind fun answers _ => (safe_require _).bind fun _ _ => ?_
  rw [sliceFrom_query]
  refine (safe_ok _).bind fun asked _ => (safe_get _ _).bind fun question _ =>
    (safe_require _).bind fun _ _ => (safe_index (by omega)).bind fun code _ => ?_
  split
  · exact (safe_readRecords _ _ _).bind fun read _ => safe_ok _
  · split
    · exact safe_ok _
    · exact safe_missing

lemma exists_answer (id : UInt16) (name response : List UInt8) :
    ∃ a, answer id name response = .ok a ∧ (readAnswer id name response = .ok a ∨
        a = .ignored ∧ readAnswer id name response = .error .missing) := by
  have hsafe := safe_readAnswer id name response
  unfold answer
  cases hread : readAnswer id name response with
  | ok a => exact ⟨a, rfl, .inl rfl⟩
  | error stop =>
    cases stop with
    | missing => exact ⟨.ignored, rfl, .inr ⟨rfl, rfl⟩⟩
    | outOfBounds => exact absurd hread hsafe

end Safety

end Ket.Share.Dns
