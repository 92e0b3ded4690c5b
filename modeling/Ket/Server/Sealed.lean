import Ket.Lib.System

/-!
# Sealed requests (`ket-server/src/api/sealed.rs`)

The gateway opens a request, checks its clock and that it was not answered before, and runs it
through the session routes.  The encryption (`hpke`), the JSON codec and the session routes are
parameters (`SealedEnv`).

`ReplayWindow` remembers the IDs of the requests that were accepted, each for twice the clock skew
that a request may have, and drops the oldest when it is full.  A request that comes again while its
clock still passes is therefore known, unless as many others as the window holds were accepted since.
Requests are in the order of their inserts, each with the time that its handler has read.  Handlers
run on several threads and read the clock before they lock the window; that these times do not go
back is a condition of the result on requests.
-/

namespace Ket.Server

open Ket.Lib List

/-! ### The replay window -/

/-- Replay IDs of answered requests, each kept for `windowSeconds`. -/
structure ReplayWindow (α : Type) where
  capacity : ℕ
  windowSeconds : ℕ
  seen : Finset α
  /-- With the time at which each was accepted, the oldest first. -/
  order : List (α × ℕ)

namespace ReplayWindow

variable {α : Type} [DecidableEq α]

def new (capacity windowSeconds : ℕ) : ReplayWindow α := ⟨capacity, windowSeconds, ∅, []⟩

/-- The loop that takes the entries out of the front whose time is over. -/
def expire (windowSeconds now : ℕ) : Finset α → List (α × ℕ) → Finset α × List (α × ℕ)
  | seen, [] => (seen, [])
  | seen, (old, time) :: rest =>
    if now - time ≤ windowSeconds then (seen, (old, time) :: rest)
    else expire windowSeconds now (seen.erase old) rest

/-- The oldest entry goes when the window is full. -/
def makeRoom (capacity : ℕ) (seen : Finset α) (order : List (α × ℕ)) : Finset α × List (α × ℕ) :=
  if capacity ≤ order.length then
    match order with
    | [] => (seen, [])
    | (oldest, _) :: rest => (seen.erase oldest, rest)
  else (seen, order)

/-- `ReplayWindow::insert`.  False when `id` was already answered within the window. -/
def insert (w : ReplayWindow α) (id : α) (now : ℕ) : ReplayWindow α × Bool :=
  let kept := expire w.windowSeconds now w.seen w.order
  if id ∈ kept.1 then ({ w with seen := kept.1, order := kept.2 }, false)
  else
    let room := makeRoom w.capacity kept.1 kept.2
    ({ w with seen := Insert.insert id room.1, order := room.2 ++ [(id, now)] }, true)

/-- A sequence of inserts. -/
def insertAll (w : ReplayWindow α) : List (α × ℕ) → ReplayWindow α
  | [] => w
  | (id, now) :: rest => insertAll (w.insert id now).1 rest

/-- The set and the queue hold the same IDs, each once. -/
structure Agree (seen : Finset α) (order : List (α × ℕ)) : Prop where
  mem : ∀ id, id ∈ seen ↔ id ∈ order.map Prod.fst
  nodup : (order.map Prod.fst).Nodup

variable {seen : Finset α}

lemma Agree.cons {old : α} {time : ℕ} {rest : List (α × ℕ)}
    (h : Agree seen ((old, time) :: rest)) : Agree (seen.erase old) rest := by
  obtain ⟨hne, hnodup⟩ := nodup_cons.mp h.nodup
  refine ⟨fun id => ?_, hnodup⟩
  rw [Finset.mem_erase, h.mem id, map_cons, mem_cons]
  constructor
  · rintro ⟨hid, rfl | hmem⟩
    · exact absurd rfl hid
    · exact hmem
  · intro hmem
    exact ⟨fun heq => hne (heq ▸ hmem), .inr hmem⟩

variable {order : List (α × ℕ)}

/-- What the loop takes out is from the front, and its time is over. -/
lemma expire_spec (windowSeconds now : ℕ) (h : Agree seen order) :
    Agree (expire windowSeconds now seen order).1 (expire windowSeconds now seen order).2 ∧
      ∃ dropped, order = dropped ++ (expire windowSeconds now seen order).2 ∧
        ∀ entry ∈ dropped, windowSeconds < now - entry.2 := by
  induction order generalizing seen with
  | nil => exact ⟨h, [], rfl, nofun⟩
  | cons entry rest ih =>
    obtain ⟨old, time⟩ := entry
    unfold expire
    split
    · exact ⟨h, [], rfl, nofun⟩
    · rename_i hage
      obtain ⟨hagree, dropped, hrest, hdropped⟩ := ih h.cons
      refine ⟨hagree, (old, time) :: dropped, by rw [cons_append, ← hrest], ?_⟩
      intro entry hentry
      rcases mem_cons.mp hentry with rfl | hentry
      · exact not_le.mp hage
      · exact hdropped entry hentry

/-- At most the first entry goes, and only when the window is full. -/
lemma makeRoom_spec (capacity : ℕ) (h : Agree seen order) :
    Agree (makeRoom capacity seen order).1 (makeRoom capacity seen order).2 ∧
      ((makeRoom capacity seen order).2 = order ∧ (order.length < capacity ∨ order = []) ∨
        ∃ oldest, order = oldest :: (makeRoom capacity seen order).2 ∧ capacity ≤ order.length) := by
  unfold makeRoom
  split
  · rename_i hfull
    match order with
    | [] => exact ⟨h, .inl ⟨rfl, .inr rfl⟩⟩
    | (oldest, time) :: rest => exact ⟨h.cons, .inr ⟨(oldest, time), rfl, hfull⟩⟩
  · rename_i hroom
    exact ⟨h, .inl ⟨rfl, .inl (not_le.mp hroom)⟩⟩

lemma Agree.concat {id : α} (h : Agree seen order)
    (hid : id ∉ seen) (now : ℕ) : Agree (Insert.insert id seen) (order ++ [(id, now)]) := by
  refine ⟨fun id' => ?_, ?_⟩
  · rw [Finset.mem_insert, h.mem id', map_append, mem_append, or_comm]
    simp
  · rw [map_append]
    refine nodup_append.mpr ⟨h.nodup, nodup_singleton _, ?_⟩
    intro id' hid' id'' hid'' heq
    rw [heq, mem_singleton.mp hid''] at hid'
    exact hid ((h.mem id).mpr hid')

/-- **What an insert does.**  The entries whose time is over go from the front.  An ID that is among
the others is refused; any other is added, and the oldest entry goes for it when the window is
full. -/
lemma insert_spec (w : ReplayWindow α) (id : α) (now : ℕ) (h : Agree w.seen w.order) :
    ∃ dropped kept, w.order = dropped ++ kept ∧
      (∀ entry ∈ dropped, w.windowSeconds < now - entry.2) ∧
      Agree (w.insert id now).1.seen (w.insert id now).1.order ∧
      (w.insert id now).1.capacity = w.capacity ∧
      (w.insert id now).1.windowSeconds = w.windowSeconds ∧
      ((w.insert id now).2 = false ∧ (w.insert id now).1.order = kept ∨
        (w.insert id now).2 = true ∧ id ∉ kept.map Prod.fst ∧
          ((w.insert id now).1.order = kept ++ [(id, now)] ∧ (kept.length < w.capacity ∨ kept = []) ∨
            ∃ oldest rest, kept = oldest :: rest ∧ w.capacity ≤ kept.length ∧
              (w.insert id now).1.order = rest ++ [(id, now)])) := by
  obtain ⟨hkept, dropped, horder, hdropped⟩ := expire_spec w.windowSeconds now h
  set kept := expire w.windowSeconds now w.seen w.order with hdef
  refine ⟨dropped, kept.2, horder, hdropped, ?_⟩
  unfold insert
  rw [← hdef]
  by_cases hid : id ∈ kept.1
  · simp only [if_pos hid]
    exact ⟨hkept, trivial, trivial, .inl ⟨trivial, trivial⟩⟩
  · simp only [if_neg hid]
    obtain ⟨hroom, hcases⟩ := makeRoom_spec w.capacity hkept
    have hnew : id ∉ kept.2.map Prod.fst := fun hmem => hid ((hkept.mem id).mpr hmem)
    have hnotin : id ∉ (makeRoom w.capacity kept.1 kept.2).1 := by
      intro hmem
      rw [hroom.mem id] at hmem
      rcases hcases with ⟨heq, -⟩ | ⟨oldest, heq, -⟩
      · exact hnew (heq ▸ hmem)
      · refine hnew ?_
        rw [heq, map_cons]
        exact mem_cons_of_mem _ hmem
    refine ⟨hroom.concat hnotin now, trivial, trivial, .inr ⟨trivial, hnew, ?_⟩⟩
    rcases hcases with ⟨heq, hfits⟩ | ⟨oldest, heq, hfull⟩
    · exact .inl ⟨by rw [heq], hfits⟩
    · exact .inr ⟨oldest, _, heq, hfull, rfl⟩

/-- The set and the queue agree, and hold no more than the capacity. -/
structure Bounded (w : ReplayWindow α) : Prop where
  agree : Agree w.seen w.order
  length : w.order.length ≤ w.capacity

omit [DecidableEq α] in
lemma bounded_new (capacity windowSeconds : ℕ) :
    Bounded (new capacity windowSeconds : ReplayWindow α) :=
  ⟨⟨by simp [new], by simp [new]⟩, Nat.zero_le _⟩

lemma Bounded.insert {w : ReplayWindow α} (h : Bounded w) (hcapacity : 0 < w.capacity) (id : α)
    (now : ℕ) : Bounded (w.insert id now).1 := by
  obtain ⟨dropped, kept, horder, -, hagree, hsame, -, hcases⟩ := w.insert_spec id now h.agree
  have hkept : kept.length ≤ w.capacity := by
    have hlength := h.length
    rw [horder, length_append] at hlength
    omega
  refine ⟨hagree, ?_⟩
  rw [hsame]
  rcases hcases with ⟨-, heq⟩ | ⟨-, -, ⟨heq, hfits | rfl⟩ | ⟨oldest, rest, rfl, -, heq⟩⟩
  · rw [heq]
    exact hkept
  · rw [heq, length_append]
    exact hfits
  · rw [heq]
    exact hcapacity
  · rw [heq, length_append]
    exact hkept

lemma Bounded.insertAll {w : ReplayWindow α} (h : Bounded w) (hcapacity : 0 < w.capacity)
    (inserts : List (α × ℕ)) :
    Bounded (w.insertAll inserts) ∧ (w.insertAll inserts).capacity = w.capacity := by
  induction inserts generalizing w with
  | nil => exact ⟨h, rfl⟩
  | cons entry rest ih =>
    obtain ⟨id, now⟩ := entry
    obtain ⟨-, -, -, -, -, hsame, -⟩ := w.insert_spec id now h.agree
    obtain ⟨hrest, hcap⟩ := ih (h.insert hcapacity id now) (hsame ▸ hcapacity)
    exact ⟨hrest, hcap.trans hsame⟩

end ReplayWindow

/-! ### The gateway -/

/-- Answered requests remembered for replay checks. -/
def replayCapacity : ℕ := 65536

/-- How far a sealed request's clock may be from the node's. -/
def sealedMaxClockSkewSeconds : ℕ := 300

/-- Upper bound on a session API answer before it is sealed. -/
def maxInnerResponseBytes : ℕ := 128 * 1024

def sealVersion : UInt8 := 1
def maxSealedBytes : ℕ := 256 * 1024
def encapsulatedKeyBytes : ℕ := 32

/-- The encapsulated key of a sealed request. -/
abbrev ReplayId : Type := List UInt8

inductive SealedMethod where
  | get
  | post
  | put
  | delete
deriving DecidableEq, Repr

/-- A session API request, carried sealed. -/
structure SealedControlRequest where
  method : SealedMethod
  path : String
  sentAtEpochSeconds : ℕ
  bearer : Option String
  client : Option String
  body : Option String
deriving DecidableEq, Repr

/-- The node's answer: the status and JSON body the session API would have sent in the clear. -/
structure SealedControlResponse where
  status : ℕ
  serverTimeEpochSeconds : ℕ
  body : Option String
deriving DecidableEq, Repr

/-- The request that the session routes get. -/
structure InnerRequest where
  method : SealedMethod
  uri : String
  authorization : Option String
  ketClient : Option String
  contentType : Option String
  body : String
deriving DecidableEq, Repr

structure Answer where
  status : ℕ
  body : Option String
deriving DecidableEq, Repr

/-- What is outside of the gateway, over the states `σ` of the session API. -/
structure SealedEnv (σ : Type) where
  /-- HPKE, with the node's key: the plaintext under an encapsulated key. -/
  hpkeOpen : ReplayId → List UInt8 → Option (List UInt8)
  /-- HPKE, with the secret exported for the answer to the request. -/
  hpkeSeal : ReplayId → SealedControlResponse → Option (List UInt8)
  /-- `serde_json::from_slice`. -/
  parse : List UInt8 → Option SealedControlRequest
  /-- `serde_json::to_string` of an error response with a code and a message. -/
  errorBody : String → String → Option String
  /-- `HeaderValue::from_str` succeeds. -/
  headerValue : String → Bool
  /-- The session routes: the status and the body. -/
  sessions : σ → InnerRequest → σ × ℕ × List UInt8

structure SealedGateway (σ : Type) where
  replays : ReplayWindow ReplayId
  sessions : σ

inductive GatewayResponse where
  | notFound
  | sealed (body : List UInt8)
  | internalServerError
deriving DecidableEq, Repr

/-- What becomes of a request before it is dispatched. -/
inductive Receipt where
  /-- It cannot be opened. -/
  | unopened
  | refused (id : ReplayId) (answer : Answer)
  | accepted (id : ReplayId) (request : SealedControlRequest)
deriving DecidableEq, Repr

/-- `u64::abs_diff`. -/
def absDiff (a b : ℕ) : ℕ := (a - b) + (b - a)

def SealedGateway.new {σ : Type} (sessions : σ) : SealedGateway σ :=
  ⟨ReplayWindow.new replayCapacity (2 * sealedMaxClockSkewSeconds), sessions⟩

namespace SealedEnv

variable {σ : Type} (E : SealedEnv σ)

/-- `open_request`: the replay ID and the plaintext. -/
def openRequest (sealed : List UInt8) : Option (ReplayId × List UInt8) :=
  if maxSealedBytes < sealed.length ∨ sealed.length ≤ 1 + encapsulatedKeyBytes then none
  else if sealed.take 1 ≠ [sealVersion] then none
  else
    let rest := sealed.drop 1
    let enc := rest.take encapsulatedKeyBytes
    (E.hpkeOpen enc (rest.drop encapsulatedKeyBytes)).map fun plaintext => (enc, plaintext)

def error (status : ℕ) (code message : String) : Answer := ⟨status, E.errorBody code message⟩

def internal : Answer := E.error 500 "internal_error" "internal server error"

/-- `handle` up to the dispatch.  The lock of the window is poisoned when a thread panicked while it
held it. -/
def receive (replays : ReplayWindow ReplayId) (sealed : List UInt8) (now : ℕ) (poisoned : Bool) :
    ReplayWindow ReplayId × Receipt :=
  match E.openRequest sealed with
  | none => (replays, .unopened)
  | some (id, plaintext) =>
    match E.parse plaintext with
    | none => (replays, .refused id (E.error 400 "invalid_request" "malformed request"))
    | some request =>
      if sealedMaxClockSkewSeconds < absDiff request.sentAtEpochSeconds now then
        (replays, .refused id (E.error 400 "request_clock_skew"
          "this device's clock is too far from the server's"))
      else
        let inserted := if poisoned then (replays, false) else replays.insert id now
        if inserted.2 then (inserted.1, .accepted id request)
        else (inserted.1, .refused id (E.error 409 "request_replayed"
          "this request was already answered"))

/-- `inner_request`: only the session routes are reachable through the gateway. -/
def innerRequest (request : SealedControlRequest) : Option InnerRequest := do
  let method ← match request.path, request.method with
    | "/v1/sessions", .post => some SealedMethod.post
    | "/v1/sessions/current", .get => some .get
    | "/v1/sessions/current", .put => some .put
    | "/v1/sessions/current", .delete => some .delete
    | _, _ => none
  let authorization := request.bearer.map fun bearer => "Bearer " ++ bearer
  if authorization.any (fun value => !E.headerValue value) then none
  if request.client.any (fun value => !E.headerValue value) then none
  return {
    method
    uri := request.path
    authorization
    ketClient := request.client
    contentType := request.body.map fun _ => "application/json"
    body := request.body.getD "" }

/-- `dispatch`: runs the request through the session routes. -/
def dispatch (sessions : σ) (request : SealedControlRequest) : σ × Answer :=
  match E.innerRequest request with
  | none => (sessions, E.error 404 "not_found" "not found")
  | some inner =>
    let (sessions, status, body) := E.sessions sessions inner
    if maxInnerResponseBytes < body.length then (sessions, E.internal)
    else
      match String.fromUTF8? ⟨body.toArray⟩ with
      | none => (sessions, E.internal)
      | some text => (sessions, ⟨status, if text.isEmpty then none else some text⟩)

/-- `seal_answer`. -/
def sealAnswer (id : ReplayId) (answer : Answer) (now : ℕ) : GatewayResponse :=
  match E.hpkeSeal id ⟨answer.status, now, answer.body⟩ with
  | some body => .sealed body
  | none => .internalServerError

/-- `SealedGateway::handle`. -/
def handle (g : SealedGateway σ) (sealed : List UInt8) (now : ℕ) (poisoned : Bool) :
    SealedGateway σ × GatewayResponse :=
  match E.receive g.replays sealed now poisoned with
  | (replays, .unopened) => ({ g with replays }, .notFound)
  | (replays, .refused id answer) => ({ g with replays }, E.sealAnswer id answer now)
  | (replays, .accepted id request) =>
    let dispatched := E.dispatch g.sessions request
    (⟨replays, dispatched.1⟩, E.sealAnswer id dispatched.2 now)

end SealedEnv

/-! ### Runs -/

/-- A request that arrives, with the time that is read for it. -/
structure SealedEvent where
  sealed : List UInt8
  now : ℕ
  poisoned : Bool

/-- The gateway, with the latest time that was read. -/
structure GatewayRun (σ : Type) where
  gateway : SealedGateway σ
  clock : ℕ

section Runs

variable {σ : Type} (E : SealedEnv σ)

/-- The requests that were accepted, by replay ID and by when they were sent. -/
def acceptedAfter (accepted : List (ReplayId × ℕ)) (s : GatewayRun σ) (e : SealedEvent) :
    List (ReplayId × ℕ) :=
  match (E.receive s.gateway.replays e.sealed e.now e.poisoned).2 with
  | .accepted id request => accepted ++ [(id, request.sentAtEpochSeconds)]
  | _ => accepted

/-- The gateway, with the requests that it has accepted. -/
def gatewaySystem (sessions : σ) : System (GatewayRun σ × List (ReplayId × ℕ)) SealedEvent :=
  System.withHistory
    ⟨⟨.new sessions, 0⟩, fun s e =>
      some ⟨(E.handle s.gateway e.sealed e.now e.poisoned).1, max s.clock e.now⟩⟩
    [] (acceptedAfter E)

lemma handle_replays (g : SealedGateway σ) (sealed : List UInt8) (now : ℕ) (poisoned : Bool) :
    (E.handle g sealed now poisoned).1.replays = (E.receive g.replays sealed now poisoned).1 := by
  unfold SealedEnv.handle
  split <;> rename_i hreceive <;> rw [hreceive]

variable {E}

/-- A request is accepted when its clock is right and its ID new.  Otherwise the window is as it
was, or has refused the ID. -/
lemma receive_cases (w : ReplayWindow ReplayId) (sealed : List UInt8) (now : ℕ) (poisoned : Bool) :
    (∃ id request, (E.receive w sealed now poisoned).2 = .accepted id request ∧
      absDiff request.sentAtEpochSeconds now ≤ sealedMaxClockSkewSeconds ∧
      (w.insert id now).2 = true ∧ (E.receive w sealed now poisoned).1 = (w.insert id now).1) ∨
    (∀ id request, (E.receive w sealed now poisoned).2 ≠ .accepted id request) ∧
      ((E.receive w sealed now poisoned).1 = w ∨ ∃ id, (w.insert id now).2 = false ∧
          (E.receive w sealed now poisoned).1 = (w.insert id now).1) := by
  unfold SealedEnv.receive
  split
  · exact .inr ⟨nofun, .inl rfl⟩
  · rename_i id plaintext _
    split
    · exact .inr ⟨nofun, .inl rfl⟩
    · rename_i request _
      split
      · exact .inr ⟨nofun, .inl rfl⟩
      · rename_i hskew
        cases poisoned with
        | true => exact .inr ⟨nofun, .inl rfl⟩
        | false =>
          cases hfresh : (w.insert id now).2 with
          | true =>
            simp only [Bool.false_eq_true, if_false, hfresh, if_true]
            exact .inl ⟨id, request, rfl, not_lt.mp hskew, hfresh, rfl⟩
          | false =>
            simp only [Bool.false_eq_true, if_false, hfresh]
            exact .inr ⟨nofun, .inr ⟨id, hfresh, rfl⟩⟩

/-- The window still knows a request that was accepted, unless it can pass the check of its clock no
more, or as many were accepted later as the window holds. -/
def Remembers (w : ReplayWindow ReplayId) (clock : ℕ) (entry : ReplayId × ℕ) (later : ℕ) : Prop :=
  w.capacity ≤ later ∨ entry.2 + sealedMaxClockSkewSeconds < clock ∨
    ∃ front time back, w.order = front ++ (entry.1, time) :: back ∧ back.length ≤ later ∧
      entry.2 ≤ time + sealedMaxClockSkewSeconds

variable {clock later now : ℕ} {entry : ReplayId × ℕ} {w : ReplayWindow ReplayId}
  {kept : List (ReplayId × ℕ)}

lemma Remembers.mono {clock' : ℕ} (h : Remembers w clock entry later) (hclock : clock ≤ clock') :
    Remembers w clock' entry later := by
  rcases h with hfull | hold | hknown
  · exact .inl hfull
  · exact .inr (.inl (hold.trans_le hclock))
  · exact .inr (.inr hknown)

/-- What the window drops for its age cannot pass the check of its clock. -/
lemma Remembers.drop {dropped : List (ReplayId × ℕ)} (h : Remembers w clock entry later)
    (hwindow : w.windowSeconds = 2 * sealedMaxClockSkewSeconds) (hclock : clock ≤ now)
    (horder : w.order = dropped ++ kept) (hdropped : ∀ old ∈ dropped, w.windowSeconds < now - old.2)
    : Remembers { w with order := kept } now entry later := by
  rcases h.mono hclock with hfull | hold | ⟨front, time, back, heq, hlater, hsent⟩
  · exact .inl hfull
  · exact .inr (.inl hold)
  · rw [horder] at heq
    rcases append_eq_append_iff.mp heq with ⟨rest, rfl, hkept⟩ | ⟨rest, rfl, hback⟩
    · exact .inr (.inr ⟨rest, time, back, hkept, hlater, hsent⟩)
    · cases rest with
      | nil => exact .inr (.inr ⟨[], time, back, hback.symm, hlater, hsent⟩)
      | cons first rest =>
        have hfirst : (entry.1, time) = first := (List.cons.inj hback).1
        have hage := hdropped (entry.1, time) (by simp [hfirst])
        rw [hwindow] at hage
        refine .inr (.inl ?_)
        simp only at hage
        omega

/-- A request that is accepted leaves the others known, except when the window is full. -/
lemma Remembers.accept {w' : ReplayWindow ReplayId} {id : ReplayId}
    (h : Remembers { w with order := kept } now entry later) (hcapacity : w'.capacity = w.capacity)
    (horder : w'.order = kept ++ [(id, now)] ∨ ∃ oldest rest, kept = oldest :: rest ∧
      w.capacity ≤ kept.length ∧ w'.order = rest ++ [(id, now)]) :
    Remembers w' now entry (later + 1) := by
  unfold Remembers at h ⊢
  rw [hcapacity]
  simp only at h
  rcases h with hfull | hold | ⟨front, time, back, heq, hlater, hsent⟩
  · exact .inl (by omega)
  · exact .inr (.inl hold)
  · rcases horder with horder | ⟨oldest, rest, hkept, hfull, horder⟩
    · refine .inr (.inr ⟨front, time, back ++ [(id, now)], by simp [horder, heq], ?_, hsent⟩)
      simpa using hlater
    · rw [hkept] at heq
      cases front with
      | nil =>
        -- it was the oldest: the others were accepted after it
        obtain ⟨-, rfl⟩ := List.cons.inj heq
        rw [hkept, length_cons] at hfull
        exact .inl (by omega)
      | cons first front =>
        obtain ⟨-, rfl⟩ := List.cons.inj heq
        refine .inr (.inr ⟨front, time, back ++ [(id, now)], by simp [horder], ?_, hsent⟩)
        simpa using hlater

/-- An ID that is known is not accepted. -/
lemma Remembers.capacity_le (h : Remembers { w with order := kept } now entry later)
    (hnew : entry.1 ∉ kept.map Prod.fst) (hskew : absDiff entry.2 now ≤ sealedMaxClockSkewSeconds) :
    w.capacity ≤ later := by
  rcases h with hfull | hold | ⟨front, time, back, heq, -, -⟩
  · exact hfull
  · unfold absDiff at hskew
    omega
  · refine absurd ?_ hnew
    simp only at heq
    simp [heq]

/-- Every request that was accepted is remembered, and the same request was accepted again only
after as many others as the window holds. -/
structure Remembering (w : ReplayWindow ReplayId) (clock : ℕ) (accepted : List (ReplayId × ℕ)) :
    Prop where
  bounded : w.Bounded
  capacity : w.capacity = replayCapacity
  window : w.windowSeconds = 2 * sealedMaxClockSkewSeconds
  remembered : ∀ before entry later, accepted = before ++ entry :: later →
    Remembers w clock entry later.length
  spaced : ∀ before entry between later,
    accepted = before ++ entry :: (between ++ entry :: later) → replayCapacity ≤ between.length

namespace Remembering

variable {w : ReplayWindow ReplayId} {clock now : ℕ} {accepted : List (ReplayId × ℕ)} {id : ReplayId}

lemma initial : Remembering (.new replayCapacity (2 * sealedMaxClockSkewSeconds)) 0 [] where
  bounded := ReplayWindow.bounded_new _ _
  capacity := rfl
  window := rfl
  remembered := by simp
  spaced := by simp

section

variable (h : Remembering w clock accepted)
include h

lemma mono (hclock : clock ≤ now) : Remembering w now accepted :=
  { h with remembered := fun before entry later heq =>
      (h.remembered before entry later heq).mono hclock }

lemma pos : 0 < w.capacity := by
  rw [h.capacity]
  decide

lemma refuse (hclock : clock ≤ now)
    (hrefused : (w.insert id now).2 = false) : Remembering (w.insert id now).1 now accepted := by
  obtain ⟨dropped, kept, horder, hdropped, -, hcap, hwin, hcases⟩ :=
    w.insert_spec id now h.bounded.agree
  rcases hcases with ⟨-, horder'⟩ | ⟨haccepted, -⟩
  · refine ⟨h.bounded.insert h.pos id now, hcap.trans h.capacity, hwin.trans h.window, ?_, h.spaced⟩
    intro before entry later heq
    have hdrop := (h.remembered before entry later heq).drop h.window hclock horder hdropped
    unfold Remembers at hdrop ⊢
    rw [hcap, horder']
    exact hdrop
  · cases hrefused.symm.trans haccepted

lemma accept (hclock : clock ≤ now) {sentAt : ℕ}
    (hskew : absDiff sentAt now ≤ sealedMaxClockSkewSeconds) (hfresh : (w.insert id now).2 = true) :
    Remembering (w.insert id now).1 now (accepted ++ [(id, sentAt)]) := by
  obtain ⟨dropped, kept, horder, hdropped, -, hcap, hwin, hcases⟩ :=
    w.insert_spec id now h.bounded.agree
  rcases hcases with ⟨hrefused, -⟩ | ⟨-, hnew, horder'⟩
  · cases hfresh.symm.trans hrefused
  have horder' : (w.insert id now).1.order = kept ++ [(id, now)] ∨
      ∃ oldest rest, kept = oldest :: rest ∧ w.capacity ≤ kept.length ∧
        (w.insert id now).1.order = rest ++ [(id, now)] := horder'.imp_left And.left
  have hkept : ∀ before entry later, accepted = before ++ entry :: later →
      Remembers { w with order := kept } now entry later.length := fun before entry later heq =>
    (h.remembered before entry later heq).drop h.window hclock horder hdropped
  refine ⟨h.bounded.insert h.pos id now, hcap.trans h.capacity, hwin.trans h.window, ?_, ?_⟩
  · intro before entry later heq
    rcases later.eq_nil_or_concat with rfl | ⟨later', last, rfl⟩
    · -- the request that is accepted now
      obtain ⟨-, hentry⟩ := append_inj' heq rfl
      cases hentry
      have hsent : sentAt ≤ now + sealedMaxClockSkewSeconds := by
        unfold absDiff at hskew
        omega
      refine .inr (.inr ?_)
      rcases horder' with horder' | ⟨oldest, rest, -, -, horder'⟩
      · exact ⟨kept, now, [], horder', Nat.zero_le _, hsent⟩
      · exact ⟨rest, now, [], horder', Nat.zero_le _, hsent⟩
    · have heq' : accepted ++ [(id, sentAt)] = (before ++ entry :: later') ++ [last] := by
        simpa using heq
      obtain ⟨hold, -⟩ := append_inj' heq' rfl
      rw [length_concat]
      exact (hkept before entry later' hold).accept hcap horder'
  · intro before entry between later heq
    rcases later.eq_nil_or_concat with rfl | ⟨later', last, rfl⟩
    · have heq' : accepted ++ [(id, sentAt)] = (before ++ entry :: between) ++ [entry] := by
        simpa using heq
      obtain ⟨hold, hentry⟩ := append_inj' heq' rfl
      cases hentry
      rw [← h.capacity]
      exact (hkept before _ between hold).capacity_le hnew hskew
    · have heq' : accepted ++ [(id, sentAt)]
          = (before ++ entry :: (between ++ entry :: later')) ++ [last] := by simpa using heq
      obtain ⟨hold, -⟩ := append_inj' heq' rfl
      exact h.spaced before entry between later' hold

end

lemma step {s : GatewayRun σ} {e : SealedEvent}
    (h : Remembering s.gateway.replays s.clock accepted) (hclock : s.clock ≤ e.now) :
    Remembering (E.handle s.gateway e.sealed e.now e.poisoned).1.replays e.now
      (acceptedAfter E accepted s e) := by
  rw [handle_replays]
  rcases receive_cases (E := E) s.gateway.replays e.sealed e.now e.poisoned with
    ⟨id, request, hreceipt, hskew, hfresh, hwindow⟩ | ⟨hreceipt, hwindow⟩
  · rw [acceptedAfter, hreceipt, hwindow]
    exact h.accept hclock hskew hfresh
  · have hsame : acceptedAfter E accepted s e = accepted := by
      unfold acceptedAfter
      split
      · rename_i id request heq
        exact absurd heq (hreceipt id request)
      · rfl
    rw [hsame]
    rcases hwindow with hwindow | ⟨id, hrefused, hwindow⟩
    · rw [hwindow]
      exact h.mono hclock
    · rw [hwindow]
      exact h.refuse hclock hrefused

end Remembering

end Runs

/-- **Sealed requests are dispatched at most once.**  In every sequence of requests with a clock that
does not go back, two requests with the same ID and the same time of sending are both accepted only
when at least as many others as the window holds were accepted in between.  And after every sequence
of inserts, at any times, the set and the queue of a window hold the same IDs, each once, and no more
than its capacity. -/
theorem dispatched_at_most_once {σ : Type} {E : SealedEnv σ} {sessions : σ}
    {s : GatewayRun σ × List (ReplayId × ℕ)}
    (hs : (gatewaySystem E sessions).Reachable (fun s e => s.1.clock ≤ e.now) s) :
    (∀ before between later request, s.2 = before ++ request :: (between ++ request :: later) →
        replayCapacity ≤ between.length) ∧
    ∀ (α : Type) [DecidableEq α] (capacity windowSeconds : ℕ) (inserts : List (α × ℕ)),
      0 < capacity →
      let w := (ReplayWindow.new capacity windowSeconds).insertAll inserts
      (∀ id, id ∈ w.seen ↔ id ∈ w.order.map Prod.fst) ∧ (w.order.map Prod.fst).Nodup ∧
        w.order.length ≤ capacity := by
  have hinv : Remembering s.1.gateway.replays s.1.clock s.2 := by
    refine hs.invariant (I := fun s => Remembering s.1.gateway.replays s.1.clock s.2)
      Remembering.initial ?_
    rintro ⟨s, accepted⟩ e ⟨s', accepted'⟩ - h hclock hstep
    obtain ⟨hstep, rfl⟩ := System.withHistory_step.mp hstep
    cases hstep
    simp only at h hclock ⊢
    rw [max_eq_right hclock]
    exact h.step hclock
  refine ⟨fun before between later request => hinv.spaced before request between later, ?_⟩
  intro α _ capacity windowSeconds inserts hcapacity
  obtain ⟨hbounded, hsame⟩ :=
    (ReplayWindow.bounded_new capacity windowSeconds (α := α)).insertAll hcapacity inserts
  exact ⟨hbounded.agree.mem, hbounded.agree.nodup, hbounded.length.trans_eq hsame⟩

namespace Sample

/-- A toy environment: nothing is encrypted, and the length of a request is when it was sent. -/
def sealedEnv : SealedEnv ℕ where
  hpkeOpen _ ciphertext := some ciphertext
  hpkeSeal _ _ := some []
  parse plaintext := some ⟨.get, "/v1/sessions/current", plaintext.length, none, none, none⟩
  errorBody code _ := some code
  headerValue _ := true
  sessions n _ := (n + 1, 200, [])

/-- A request, the same again, another, and the first again when its clock is too old. -/
def sealedRequests : List SealedEvent :=
  [⟨List.replicate 43 1, 200, false⟩, ⟨List.replicate 43 1, 310, false⟩,
    ⟨1 :: List.replicate 50 2, 310, false⟩, ⟨List.replicate 43 1, 311, false⟩]

end Sample

theorem dispatched_at_most_once_sealedRequests :
    ∃ s, (gatewaySystem Sample.sealedEnv 0).Reachable (fun s e => s.1.clock ≤ e.now) s ∧
      s.2 = [(List.replicate 32 1, 10), (List.replicate 32 2, 18)] ∧ s.1.gateway.sessions = 2 ∧
      ∀ before between later request, s.2 = before ++ request :: (between ++ request :: later) →
          replayCapacity ≤ between.length := by
  obtain ⟨s, hs, haccepted, hsessions⟩ := System.exists_reachable_of_run
    (gatewaySystem Sample.sealedEnv 0) (fun s e => s.1.clock ≤ e.now)
    (fun s => s.2 = [(List.replicate 32 1, 10), (List.replicate 32 2, 18)] ∧
      s.1.gateway.sessions = 2) Sample.sealedRequests (by decide)
  exact ⟨s, hs, haccepted, hsessions, (dispatched_at_most_once hs).1⟩

end Ket.Server
