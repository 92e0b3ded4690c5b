import Ket.Server.Service

/-!
# The service with its state file (`service.rs`, `repository.rs`)

Under the state lock an operation stores the state it computed and then makes it current.  A
store checks the state before it writes; it may fail, and it may have replaced the file when it
fails.  `Node.transact` is that pattern, and every operation that always stores is an instance
of it.
-/

namespace Ket.Server

open Ket.Core Ket.Lib Option

/-- The state in memory, the state file, and when counted data was last written. -/
structure Node where
  state : PersistedState
  file : PersistedState
  usageStoredAt : ℕ
deriving DecidableEq

/-- What becomes of a store that passed its checks. -/
inductive StoreOutcome where
  | stored
  /-- It failed and left the file as it was. -/
  | failed
  /-- It failed, or the process stopped, after the file was replaced. -/
  | replaced
deriving DecidableEq, Repr

/-- The checks of `store_file`. -/
def isStorable (C : Crypto) (s : PersistedState) : Bool :=
  decide (s.schemaVersion = currentStateSchemaVersion) && decide (s.validate C = .ok ())

def legacyStateSchemaVersion : ℕ := 1

/-- The checks of `load_file`, which takes the records of schema 1 over as they are. -/
def loadFile (C : Crypto) (file : PersistedState) : Option PersistedState :=
  let s := { file with schemaVersion := currentStateSchemaVersion }
  if (file.schemaVersion = legacyStateSchemaVersion ∨
      file.schemaVersion = currentStateSchemaVersion) ∧ s.validate C = .ok () then some s
  else none

namespace Node

variable (C : Crypto) (cfg : Config)

/-- The file after a store of `next`. -/
def fileAfter (n : Node) (next : PersistedState) (o : StoreOutcome) : PersistedState :=
  if isStorable C next && decide (o ≠ .failed) then next else n.file

/-- The store of `next` succeeds. -/
def stores (next : PersistedState) (o : StoreOutcome) : Bool :=
  isStorable C next && decide (o = .stored)

/-- Stores the computed state and makes it current. -/
def transact {α : Type} (n : Node) (r : Except ServiceError (PersistedState × α))
    (o : StoreOutcome) : Node × Except ServiceError α :=
  match r with
  | .error e => (n, .error e)
  | .ok (next, a) =>
    if stores C next o then ({ n with state := next, file := next }, .ok a)
    else ({ n with file := n.fileAfter C next o }, .error .persistence)

def createGrant (n : Node) (request : CreateAccessGrantRequest) (now : ℕ)
    (code secretHash : String) (o : StoreOutcome) :
    Node × Except ServiceError CreateAccessGrantResponse :=
  n.transact C (Server.createGrant cfg n.state request now code secretHash) o

def updateGrant (n : Node) (id : String) (changes : UpdateAccessGrantRequest) (now : ℕ)
    (o : StoreOutcome) : Node × Except ServiceError (AccessGrantSummary × List SessionAllocation) :=
  n.transact C (Server.updateGrant cfg n.state id changes now) o

def revokeGrant (n : Node) (id : String) (o : StoreOutcome) :
    Node × Except ServiceError (List SessionAllocation) :=
  n.transact C (Server.revokeGrant n.state id) o

def admitSession (n : Node) (ticket : EnrollmentTicket) (now : ℕ) (token scopedSecret : String)
    (o : StoreOutcome) : Node × Except ServiceError CreatedSession :=
  n.transact C (Server.admitSession C cfg n.state ticket now token scopedSecret) o

def renewSession (n : Node) (ticket : SessionTicket) (now : ℕ) (o : StoreOutcome) :
    Node × Except ServiceError (Except ServiceError SessionView) :=
  n.transact C (Server.renewSession cfg n.state ticket now) o

def endSession (n : Node) (ticket : SessionTicket) (o : StoreOutcome) :
    Node × Except ServiceError SessionAllocation :=
  n.transact C (Server.endSession n.state ticket) o

/-- `expire_sessions`, which stores nothing when nothing has expired. -/
def expireSessions (n : Node) (now : ℕ) (o : StoreOutcome) :
    Node × Except ServiceError (List SessionAllocation) :=
  match Server.expireSessions n.state now with
  | .error e => (n, .error e)
  | .ok (none, expired) => (n, .ok expired)
  | .ok (some next, expired) => n.transact C (.ok (next, expired)) o

/-- `record_usage`, which makes its state current also when it does not store it. -/
def recordUsage (n : Node) (moved : String → Option ℕ) (now : ℕ) (o : StoreOutcome) :
    Node × Except ServiceError (List SessionAllocation) :=
  match Server.recordUsage n.state moved now with
  | .error e => (n, .error e)
  | .ok u =>
    if u.stores n.usageStoredAt now then
      match n.transact C (.ok (u.next, u.ended)) o with
      | (n', .ok ended) => ({ n' with usageStoredAt := now }, .ok ended)
      | (n', .error e) => (n', .error e)
    else ({ n with state := u.next }, .ok u.ended)

/-- `AccessService::load`: the file, the slots, and a store if they changed.  The flag says
whether the service started. -/
def load (n : Node) (now : ℕ) (o : StoreOutcome) : Node × Bool :=
  match loadFile C n.file with
  | none => (n, false)
  | some loaded =>
    match prepareResourceSlots loaded cfg.maxSessions now with
    | .error _ => (n, false)
    | .ok (prepared, false) => ({ n with state := prepared, usageStoredAt := now }, true)
    | .ok (prepared, true) =>
      if stores C prepared o then (⟨prepared, prepared, now⟩, true)
      else ({ n with file := n.fileAfter C prepared o }, false)

/-- Before the first start there is no state file, which reads as the empty state. -/
def initial : Node := ⟨PersistedState.empty, PersistedState.empty, 0⟩

/-! ### Transactions -/

section Transact

variable {C} {α : Type} {n : Node} {next : PersistedState} {r : Except ServiceError (PersistedState × α)}
  {o : StoreOutcome} {a : α} {e : ServiceError}

lemma transact_of_stores (h : stores C next o = true) :
    n.transact C (.ok (next, a)) o = ({ n with state := next, file := next }, .ok a) := if_pos h

lemma transact_of_not_stores (h : ¬stores C next o = true) : n.transact C (.ok (next, a)) o
      = ({ n with file := n.fileAfter C next o }, .error .persistence) := if_neg h

/-- A transaction succeeds when its state is computed and stored. -/
lemma transact_eq_ok :
    (n.transact C r o).2 = .ok a ↔ ∃ next, r = .ok (next, a) ∧ stores C next o = true := by
  constructor
  · intro h
    match r with
    | .error e => cases h
    | .ok (next, b) =>
      by_cases hstores : stores C next o = true
      · rw [transact_of_stores hstores] at h
        cases h
        exact ⟨next, rfl, hstores⟩
      · rw [transact_of_not_stores hstores] at h
        cases h
  · rintro ⟨next, rfl, hstores⟩
    rw [transact_of_stores hstores]

/-- A store that fails before it has replaced the file changes nothing. -/
lemma transact_of_error (ho : o ≠ .replaced) (h : (n.transact C r o).2 = .error e) :
    (n.transact C r o).1 = n := by
  match r with
  | .error e => rfl
  | .ok (next, b) =>
    by_cases hstores : stores C next o = true
    · rw [transact_of_stores hstores] at h
      cases h
    · have hfile : n.fileAfter C next o = n.file := by
        refine if_neg fun hreplaces => hstores ?_
        simp only [stores, Bool.and_eq_true, decide_eq_true_eq] at hreplaces ⊢
        refine ⟨hreplaces.1, ?_⟩
        cases o with
        | stored => rfl
        | failed => exact absurd rfl hreplaces.2
        | replaced => exact absurd rfl ho
      rw [transact_of_not_stores hstores, hfile]

end Transact

/-! ### What can become of the two states -/

/-- The state in memory and the state in the file have the property `P`. -/
structure Holds (P : PersistedState → Prop) (n : Node) : Prop where
  state : P n.state
  file : P n.file

namespace Holds

variable {C cfg} {P : PersistedState → Prop} {n : Node} {next : PersistedState}

section

variable (hn : n.Holds P)
include hn

lemma fileAfter (o : StoreOutcome) (hnext : isStorable C next = true → P next) :
    P (n.fileAfter C next o) := by
  unfold Node.fileAfter
  split
  · rename_i h
    exact hnext (Bool.and_eq_true_iff.mp h).1
  · exact hn.file

/-- What is stored and made current is the computed state, and has passed its check. -/
lemma transact {α : Type} {r : Except ServiceError (PersistedState × α)}
    (o : StoreOutcome) (hr : ∀ next a, r = .ok (next, a) → isStorable C next = true → P next) :
    (n.transact C r o).1.Holds P := by
  match r with
  | .error e => exact hn
  | .ok (next, a) =>
    have hnext := hr next a rfl
    simp only [Node.transact]
    split
    · rename_i h
      have hstored := hnext (Bool.and_eq_true_iff.mp h).1
      exact ⟨hstored, hstored⟩
    · exact ⟨hn.state, hn.fileAfter o hnext⟩

lemma expireSessions (now : ℕ) (o : StoreOutcome)
    (h : ∀ next expired, Server.expireSessions n.state now = .ok (some next, expired) →
      isStorable C next = true → P next) : (n.expireSessions C now o).1.Holds P := by
  unfold Node.expireSessions
  split
  · exact hn
  · exact hn
  · rename_i next expired heq
    refine hn.transact o ?_
    rintro next' a ⟨⟩
    exact h next expired heq

/-- The state that `record_usage` computes is made current also without a check. -/
lemma recordUsage (moved : String → Option ℕ) (now : ℕ) (o : StoreOutcome)
    (h : ∀ u, Server.recordUsage n.state moved now = .ok u → P u.next) :
    (n.recordUsage C moved now o).1.Holds P := by
  unfold Node.recordUsage
  split
  · exact hn
  · rename_i u heq
    have hstored : (n.transact C (.ok (u.next, u.ended)) o).1.Holds P := by
      refine hn.transact o ?_
      rintro next a ⟨⟩ -
      exact h u heq
    split
    · split
      · rename_i n' ended htransact
        rw [htransact] at hstored
        exact ⟨hstored.state, hstored.file⟩
      · rename_i n' e htransact
        rwa [htransact] at hstored
    · exact ⟨h u heq, hn.file⟩

/-- A start makes current what it prepares from the file. -/
lemma load (now : ℕ) (o : StoreOutcome)
    (h : ∀ loaded prepared changed, loadFile C n.file = some loaded →
      prepareResourceSlots loaded cfg.maxSessions now = .ok (prepared, changed) → P prepared) :
    (n.load C cfg now o).1.Holds P := by
  unfold Node.load
  split
  · exact hn
  · rename_i loaded hload
    split
    · exact hn
    · rename_i prepared hprepare
      exact ⟨h loaded prepared false hload hprepare, hn.file⟩
    · rename_i prepared hprepare
      have hprepared := h loaded prepared true hload hprepare
      split
      · exact ⟨hprepared, hprepared⟩
      · exact ⟨hn.state, hn.fileAfter o fun _ => hprepared⟩

end

end Holds

end Node

/-! ### Mutations -/

/-- An operation that changes the state, with what it has read and generated when it does. -/
inductive Mutation where
  | createGrant (request : CreateAccessGrantRequest) (now : ℕ) (code secretHash : String)
  | updateGrant (id : String) (changes : UpdateAccessGrantRequest) (now : ℕ)
  | revokeGrant (id : String)
  | admitSession (ticket : EnrollmentTicket) (now : ℕ) (token scopedSecret : String)
  | renewSession (ticket : SessionTicket) (now : ℕ)
  | endSession (ticket : SessionTicket)
  | expireSessions (now : ℕ)
  | recordUsage (moved : String → Option ℕ) (now : ℕ)

/-- Whether a mutation makes current only what it has stored, and so checked. -/
def Mutation.checks : Mutation → Bool
  | .recordUsage .. => false
  | _ => true

/-- The time a mutation has read. -/
def Mutation.now : Mutation → Option ℕ
  | .createGrant _ now _ _ => some now
  | .updateGrant _ _ now => some now
  | .revokeGrant _ => none
  | .admitSession _ now _ _ => some now
  | .renewSession _ now => some now
  | .endSession _ => none
  | .expireSessions now => some now
  | .recordUsage _ now => some now

/-- The mutation computes the state `next` from `s`, to store it or to make it current. -/
inductive Computes (C : Crypto) (cfg : Config) (s : PersistedState) :
    Mutation → PersistedState → Prop
  | createGrant {request now code secretHash next response}
      (h : createGrant cfg s request now code secretHash = .ok (next, response)) :
      Computes C cfg s (.createGrant request now code secretHash) next
  | updateGrant {id changes now next result}
      (h : updateGrant cfg s id changes now = .ok (next, result)) :
      Computes C cfg s (.updateGrant id changes now) next
  | revokeGrant {id next ended} (h : revokeGrant s id = .ok (next, ended)) :
      Computes C cfg s (.revokeGrant id) next
  | admitSession {ticket now token scopedSecret next created}
      (h : admitSession C cfg s ticket now token scopedSecret = .ok (next, created)) :
      Computes C cfg s (.admitSession ticket now token scopedSecret) next
  | renewSession {ticket now next view} (h : renewSession cfg s ticket now = .ok (next, view)) :
      Computes C cfg s (.renewSession ticket now) next
  | endSession {ticket next a} (h : endSession s ticket = .ok (next, a)) :
      Computes C cfg s (.endSession ticket) next
  | expireSessions {now next expired} (h : expireSessions s now = .ok (some next, expired)) :
      Computes C cfg s (.expireSessions now) next
  | recordUsage {moved now u} (h : recordUsage s moved now = .ok u) :
      Computes C cfg s (.recordUsage moved now) u.next

namespace Mutation

/-- What a mutation computes, and whether it is stored before it is made current. -/
def compute (C : Crypto) (cfg : Config) (s : PersistedState) (usageStoredAt : ℕ) :
    Mutation → Option (PersistedState × Bool)
  | .createGrant request now code secretHash =>
    (Server.createGrant cfg s request now code secretHash).toOption.map fun r => (r.1, true)
  | .updateGrant id changes now =>
    (Server.updateGrant cfg s id changes now).toOption.map fun r => (r.1, true)
  | .revokeGrant id => (Server.revokeGrant s id).toOption.map fun r => (r.1, true)
  | .admitSession ticket now token scopedSecret =>
    (Server.admitSession C cfg s ticket now token scopedSecret).toOption.map fun r => (r.1, true)
  | .renewSession ticket now =>
    (Server.renewSession cfg s ticket now).toOption.map fun r => (r.1, true)
  | .endSession ticket => (Server.endSession s ticket).toOption.map fun r => (r.1, true)
  | .expireSessions now =>
    (Server.expireSessions s now).toOption.bind fun r => r.1.map fun next => (next, true)
  | .recordUsage moved now =>
    (Server.recordUsage s moved now).toOption.map fun u => (u.next, u.stores usageStoredAt now)

/-- When counted data was read, for a mutation that counts. -/
def usageAt : Mutation → Option ℕ
  | .recordUsage _ now => some now
  | _ => none

lemma toOption_eq_some {ε α : Type} {x : Except ε α} {a : α} : x.toOption = some a ↔ x = .ok a := by
  cases x <;> simp [Except.toOption]

variable {C : Crypto} {cfg : Config} {m : Mutation} {next s : PersistedState} {usageStoredAt : ℕ}

lemma computes_of_compute {stores : Bool}
    (h : m.compute C cfg s usageStoredAt = some (next, stores)) : Computes C cfg s m next := by
  cases m with
  | expireSessions now =>
    obtain ⟨⟨next', expired⟩, hr, hnext⟩ := bind_eq_some_iff.mp h
    obtain ⟨next'', rfl, heq⟩ := map_eq_some_iff.mp hnext
    cases heq
    exact .expireSessions (toOption_eq_some.mp hr)
  | recordUsage moved now =>
    obtain ⟨u, hr, heq⟩ := map_eq_some_iff.mp h
    cases heq
    exact .recordUsage (toOption_eq_some.mp hr)
  | _ =>
    obtain ⟨r, hr, heq⟩ := map_eq_some_iff.mp h
    cases heq
    constructor
    exact toOption_eq_some.mp hr

/-- Only counting makes a state current that it has not stored. -/
lemma recordUsage_of_compute (h : m.compute C cfg s usageStoredAt = some (next, false)) :
    ∃ moved now u, m = .recordUsage moved now ∧ Server.recordUsage s moved now = .ok u ∧
      u.next = next ∧ u.stores usageStoredAt now = false := by
  cases m with
  | recordUsage moved now =>
    obtain ⟨u, hr, heq⟩ := map_eq_some_iff.mp h
    obtain ⟨hnext, hstores⟩ := Prod.mk.injEq .. ▸ heq
    exact ⟨moved, now, u, rfl, toOption_eq_some.mp hr, hnext, hstores⟩
  | expireSessions now =>
    obtain ⟨⟨next', expired⟩, -, hnext⟩ := bind_eq_some_iff.mp h
    obtain ⟨next'', -, heq⟩ := map_eq_some_iff.mp hnext
    cases heq
  | _ =>
    obtain ⟨r, -, heq⟩ := map_eq_some_iff.mp h
    cases heq

end Mutation

end Ket.Server
