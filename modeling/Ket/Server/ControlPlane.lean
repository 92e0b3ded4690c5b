import Ket.Server.Access
import Ket.Server.Engines

/-!
# The control plane (`api/mod.rs`, `api/grants.rs`, `main.rs`)

The request handlers, the background tasks and the start of the server, over the service and the
engines.  An operation of the service is one step, and so is a call of one control to its engine;
between two steps of a handler those of any others may come.

A `Job` is the engine work that a handler or a task still has to do.  A handler that has ended
sessions kicks them from one engine after the other.  An enrollment kicks the sessions that the
service found expired, provisions the new one, and rolls back and refuses it when that fails.
The start of the server reconciles the engines with the sessions that it lists once, up to twenty
times; until that has succeeded there are no enrollments and no background tasks.
-/

namespace Ket.Server

open Ket.Core Ket.Lib Function List

/-- How far the server has come. -/
inductive Phase where
  | down
  | reconciling
  | ready
deriving DecidableEq, Repr

/-- How far `create_session` has come after the session was created.  The lists are of controls
that are still to be called; `done` are those that have provisioned the session, the last one
first. -/
inductive EnrollPhase where
  | kickExpired (rest : List Control)
  | provision (rest done : List Control)
  | rollback (rest : List Control)
  /-- `refuse_session` is about to discard the session. -/
  | refuse
deriving DecidableEq, Repr

/-- The phase after a call. -/
def EnrollPhase.after (ok : Bool) : EnrollPhase → EnrollPhase
  | .kickExpired (_ :: rest) => .kickExpired rest
  | .provision (c :: rest) done => if ok then .provision rest (c :: done) else .rollback done
  | .rollback (_ :: rest) => .rollback rest
  | phase => phase

/-- An enrollment whose session was created. -/
structure Enrollment where
  created : CreatedSession
  /-- The device has to update its app first. -/
  updateRequired : Bool
  /-- The server offers no protocol that the invite allows. -/
  noTransport : Bool
  phase : EnrollPhase

inductive Job where
  /-- `reconcile_data_planes` before it lists the sessions. -/
  | startup
  | reconcile (sessions : List SessionAllocation) (rest : List Control) (failed : Bool)
      (attempt : ℕ)
  /-- `kick_sessions`. -/
  | kick (sessions : List SessionAllocation) (rest : List Control)
  | enroll (e : Enrollment)
  /-- `meter_allowances` while it reads the engines. -/
  | meter (sessions : List MeteredSession) (rest : List Control) (readings : List UsageReading)
      (failures : ℕ)
  /-- `meter_allowances` before `record_usage`. -/
  | record (moved : String → Option ℕ)

namespace Job

/-- The next call of the job, if it is one that changes what an engine holds. -/
def pending : Job → Option (Control × ControlCall)
  | .reconcile sessions (c :: _) _ _ => some (c, .reconcile sessions)
  | .kick sessions (c :: _) => some (c, .kick sessions)
  | .enroll e =>
    match e.phase with
    | .kickExpired (c :: _) => some (c, .kick e.created.expiredAllocations)
    | .provision (c :: _) _ => some (c, .provision e.created.allocation)
    | .rollback (c :: _) => some (c, .kick [e.created.allocation])
    | _ => none
  | _ => none

/-- The job after that call. -/
def after (ok : Bool) : Job → Job
  | .reconcile sessions (_ :: rest) failed attempt =>
    .reconcile sessions rest (failed || !ok) attempt
  | .kick sessions (_ :: rest) => .kick sessions rest
  | .enroll e => .enroll { e with phase := e.phase.after ok }
  | job => job

/-- What becomes of a job that goes on without a call, where it does. -/
def resume (d : DataPlane) : Job → Option (List Job)
  | .kick _ [] => some []
  | .enroll e =>
    match e.phase with
    | .kickExpired [] =>
      some [.enroll { e with
        phase := if e.updateRequired then .refuse else .provision d.controls [] }]
    | .provision [] _ =>
      some (if e.noTransport then [.enroll { e with phase := .refuse }] else [])
    | .rollback [] => some [.enroll { e with phase := .refuse }]
    | _ => none
  | _ => none

/-- The ways in which a job goes on without a call. -/
inductive Resumes (d : DataPlane) : Job → List Job → Prop
  | kicked {sessions} : Resumes d (.kick sessions []) []
  | provision {created noTransport} :
    Resumes d (.enroll ⟨created, false, noTransport, .kickExpired []⟩)
      [.enroll ⟨created, false, noTransport, .provision d.controls []⟩]
  | done {created updateRequired controls} :
    Resumes d (.enroll ⟨created, updateRequired, false, .provision [] controls⟩) []
  | refuse {created updateRequired noTransport phase} (hphase : phase = .kickExpired [] ∨
      (∃ controls, phase = .provision [] controls) ∨ phase = .rollback []) :
    Resumes d (.enroll ⟨created, updateRequired, noTransport, phase⟩)
      [.enroll ⟨created, updateRequired, noTransport, .refuse⟩]

lemma resumes_of_resume {d : DataPlane} {j : Job} {new : List Job} (h : j.resume d = some new) :
    Resumes d j new := by
  match j with
  | .kick _ [] =>
    cases h
    exact .kicked
  | .enroll ⟨_, false, _, .kickExpired []⟩ =>
    cases h
    exact .provision
  | .enroll ⟨_, _, false, .provision [] _⟩ =>
    cases h
    exact .done
  | .enroll ⟨_, true, _, .kickExpired []⟩ | .enroll ⟨_, _, true, .provision [] _⟩
  | .enroll ⟨_, _, _, .rollback []⟩ =>
    cases h
    exact .refuse (by simp)
  | .startup | .reconcile .. | .kick _ (_ :: _) | .meter .. | .record _
  | .enroll ⟨_, _, _, .kickExpired (_ :: _)⟩ | .enroll ⟨_, _, _, .provision (_ :: _) _⟩
  | .enroll ⟨_, _, _, .rollback (_ :: _)⟩ | .enroll ⟨_, _, _, .refuse⟩ => cases h

/-- The sessions that the job is going to kick from the engine, because they have ended. -/
def kicks (c : Control) : Job → List SessionAllocation
  | .kick sessions rest => if c ∈ rest then sessions else []
  | .enroll e =>
    match e.phase with
    | .kickExpired rest => if c ∈ rest then e.created.expiredAllocations else []
    | _ => []
  | _ => []

/-- The job is not one of the start of the server. -/
def isServing : Job → Bool
  | .startup => false
  | .reconcile .. => false
  | _ => true

/-- The job is the one of the meter. -/
def isMeter : Job → Bool
  | .meter .. => true
  | .record _ => true
  | _ => false

end Job

/-- How often `reconcile_data_planes` tries. -/
def reconcileAttempts : ℕ := 20

/-! ### Usage -/

namespace Control

variable (d : DataPlane)

/-- `usage` of a control whose call goes through: what it reads of its engine for the sessions,
by port or address where it has one and by the ID of the session otherwise. -/
def usage (c : Control) (t : Table) (counters : String → Option Counter) (engine : ℕ)
    (sessions : List SessionAllocation) : Option (List UsageReading) :=
  match c with
  | .shadowsocks =>
    some (sessions.filterMap fun a =>
      (t.entries.find? fun x => x.place == some (d.portStart + a.resourceSlot)).map fun x =>
        ⟨a.id, engine, 0, x.bytes⟩)
  | .wireguard =>
    if t.entries.all fun x => x.place.isSome then
      some (t.entries.filterMap fun x =>
        (sessions.reverse.find? fun a => x.place == some (a.resourceSlot + 2)).map fun a =>
          ⟨a.id, engine, 0, x.bytes⟩)
    else none
  | _ =>
    some (sessions.filterMap fun a =>
      (counters a.id).map fun k => ⟨a.id, engine, k.since, k.count⟩)

end Control

/-- An entry moves data. -/
def Table.count (t : Table) (owner : String) (place : Option ℕ) (n : ℕ) : Table :=
  t.adjust (fun x => if x.owner = owner ∧ x.place = place then { x with bytes := x.bytes + n } else x)
    (by
      intro x p hp
      split at hp
      · exact hp
      · exact hp)

/-- What the table holds, without the counters. -/
def Table.held (t : Table) : List (String × Option ℕ) := t.entries.map fun x => (x.owner, x.place)

lemma Table.held_traffic (table : Control → Table) (c : Control) (owner : String)
    (place : Option ℕ) (n : ℕ) (c' : Control) :
    (update table c ((table c).count owner place n) c').held = (table c').held := by
  by_cases hc : c' = c
  · subst hc
    simp only [update_self, held, count, adjust, map_map]
    refine map_congr_left fun x _ => ?_
    simp only [Function.comp_apply]
    split <;> rfl
  · rw [update_of_ne hc]

section Held

variable {t t' : Table} (h : t'.held = t.held)
include h

lemma Table.exists_of_held {x : Entry} (hx : x ∈ t'.entries) :
    ∃ y ∈ t.entries, y.owner = x.owner ∧ y.place = x.place := by
  have hmem : (x.owner, x.place) ∈ t'.held := mem_map_of_mem hx
  rw [h] at hmem
  obtain ⟨y, hy, heq⟩ := mem_map.mp hmem
  exact ⟨y, hy, Prod.mk.inj heq⟩

lemma Table.owners_of_held : t'.owners = t.owners := by
  have hfst := congrArg (map Prod.fst) h
  simpa [held, owners, Function.comp_def] using hfst

lemma Table.holder_of_held {q : ℕ} {owner : String} (hq : t.holder q = some owner) :
    t'.holder q = some owner := by
  obtain ⟨x, hx, hplace, howner⟩ := holder_eq_some.mp hq
  obtain ⟨y, hy, hyowner, hyplace⟩ := exists_of_held h.symm hx
  exact holder_eq_some.mpr ⟨y, hy, hyplace.trans hplace, hyowner.trans howner⟩

end Held

/-! ### Steps -/

structure Plane where
  node : Node
  phase : Phase
  /-- What the engines hold. -/
  table : Control → Table
  /-- The counters of the engines that count by session. -/
  counters : Control → String → Option Counter
  meter : UsageMeter
  jobs : List Job

inductive PlaneEvent where
  /-- The process starts, whether it was running or not. -/
  | start (now : ℕ) (o : StoreOutcome)
  | createGrant (request : CreateAccessGrantRequest) (now : ℕ) (code secretHash : String)
      (o : StoreOutcome)
  | updateGrant (id : String) (changes : UpdateAccessGrantRequest) (now : ℕ) (o : StoreOutcome)
  | revokeGrant (id : String) (o : StoreOutcome)
  | createSession (accessCode clientName : String) (now : ℕ) (token scopedSecret : String)
      (updateRequired noTransport : Bool) (o : StoreOutcome)
  | renewSession (token : String) (now : ℕ) (o : StoreOutcome)
  | releaseSession (token : String) (now : ℕ) (o : StoreOutcome)
  /-- A tick of the expiry loop. -/
  | expireSessions (now : ℕ) (o : StoreOutcome)
  /-- A tick of the meter. -/
  | meterAllowances (now : ℕ)
  /-- A job makes its next call, or goes on without one. -/
  | advance (i : ℕ) (o : CallOutcome)
  /-- A job makes its next step that is an operation of the service or reads the time. -/
  | proceed (i : ℕ) (now : ℕ) (o : StoreOutcome)
  /-- Data moves through what an engine holds. -/
  | traffic (c : Control) (owner : String) (place : Option ℕ) (n : ℕ)
  /-- Something happens to the counter of a session. -/
  | count (c : Control) (id : String) (e : CounterEvent)

namespace Plane

variable (C : Crypto) (cfg : Config) (d : DataPlane)

/-- An operation of the service: the jobs between `pre` and `post` are those that follow from what
it hands over, and none when it fails. -/
def access (p : Plane) (op : Access) (o : StoreOutcome) (pre post : List Job)
    (follow : Handed → List Job) : Plane :=
  match p.node.access C cfg op o with
  | (n, .ok handed) => { p with node := n, jobs := pre ++ follow handed ++ post }
  | (n, .error _) => { p with node := n, jobs := pre ++ post }

/-- The job that kicks the sessions an operation has ended. -/
def kicks (handed : Handed) : List Job := [.kick handed.ended d.controls]

/-- The rest of an enrollment. -/
def enrolls (updateRequired noTransport : Bool) (handed : Handed) : List Job :=
  match handed.created with
  | none => []
  | some created => [.enroll ⟨created, updateRequired, noTransport, .kickExpired d.controls⟩]

variable (p : Plane)

/-- The process ends, and with it all its jobs. -/
def exit : Plane := { p with phase := .down, jobs := [] }

/-- `AccessService::load` and the beginning of `reconcile_data_planes`. -/
def start (now : ℕ) (o : StoreOutcome) : Plane :=
  match p.node.load C cfg now o with
  | (n, true) => { p with node := n, phase := .reconciling, jobs := [.startup] }
  | (n, false) => { p with node := n, phase := .down, jobs := [] }

/-- What a control reads for the meter. -/
def usage (p : Plane) (c : Control) (engine : ℕ) (sessions : List MeteredSession)
    (o : CallOutcome) : Option (List UsageReading) :=
  match o with
  | .ok => c.usage d (p.table c) (p.counters c) engine (sessions.map MeteredSession.allocation)
  | .failed _ => none

/-- A job between `pre` and `post` makes its next call, or goes on without one. -/
def advance (j : Job) (o : CallOutcome) (pre post : List Job) : Option Plane :=
  match j.pending with
  | some (c, k) =>
    let r := c.call d (p.table c) k o
    some { p with
      table := update p.table c r.1
      jobs := pre ++ [j.after r.2] ++ post }
  | none =>
    match j with
    | .reconcile sessions [] true attempt =>
      if attempt < reconcileAttempts then
        some { p with
          jobs := pre ++ [.reconcile sessions d.controls false (attempt + 1)] ++ post }
      else some p.exit
    | .meter sessions (c :: rest) readings failures =>
      match p.usage d c (d.controls.length - (rest.length + 1)) sessions o with
      | some rs =>
        some { p with jobs := pre ++ [.meter sessions rest (readings ++ rs) failures] ++ post }
      | none =>
        some { p with jobs := pre ++ [.meter sessions rest readings (failures + 1)] ++ post }
    | .meter sessions [] readings failures =>
      if failures = d.controls.length ∧ d.controls ≠ [] then
        some { p with jobs := pre ++ post }
      else
        let taken := p.meter.take sessions readings
        some { p with meter := taken.1, jobs := pre ++ [.record taken.2] ++ post }
    | j => (j.resume d).map fun new => { p with jobs := pre ++ new ++ post }

/-- A job between `pre` and `post` makes its next step that is an operation of the service or
reads the time. -/
def proceed (j : Job) (now : ℕ) (o : StoreOutcome) (pre post : List Job) :
    Option Plane :=
  match j with
  | .startup =>
    match activeSessionAllocations p.node.state now with
    | .error _ => some p.exit
    | .ok sessions =>
      some { p with jobs := pre ++ [.reconcile sessions d.controls false 1] ++ post }
  | .reconcile _ [] false _ =>
    some { p with phase := .ready, meter := UsageMeter.new now, jobs := pre ++ post }
  | .enroll e =>
    match e.phase with
    | .refuse => some (p.access C cfg (.endSession e.created.token now) o pre post (kicks d))
    | _ => none
  | .record moved =>
    some (p.access C cfg (.recordUsage moved now) o pre post fun handed =>
      if handed.ended = [] then [] else kicks d handed)
  | _ => none

/-- A request to the running server. -/
def request (op : Access) (o : StoreOutcome) (follow : Handed → List Job) :
    Option Plane :=
  if p.phase = .down then none else some (p.access C cfg op o p.jobs [] follow)

/-- A request that waits for the engines to be reconciled. -/
def requestWhenReady (op : Access) (o : StoreOutcome) (follow : Handed → List Job) :
    Option Plane :=
  if p.phase = .ready then some (p.access C cfg op o p.jobs [] follow) else none

/-- A counter after an event; without a counter only a start is seen. -/
def countAfter (k : Option Counter) (e : CounterEvent) : Option Counter :=
  match k, e with
  | some k, e => some (k.after e)
  | none, .restart since => some ⟨since, 0⟩
  | none, .move _ => none

def count (c : Control) (id : String) (e : CounterEvent) : Plane :=
  let counters := update (p.counters c) id (countAfter (p.counters c id) e)
  { p with counters := update p.counters c counters }

def step : PlaneEvent → Option Plane
  | .start now o => some (p.start C cfg now o)
  | .createGrant request now code secretHash o =>
    p.request C cfg (.createGrant request now code secretHash) o fun _ => []
  | .updateGrant id changes now o => p.request C cfg (.updateGrant id changes now) o (kicks d)
  | .revokeGrant id o => p.request C cfg (.revokeGrant id) o (kicks d)
  | .createSession accessCode clientName now token scopedSecret updateRequired noTransport o =>
    p.requestWhenReady C cfg (.createSession accessCode clientName now token scopedSecret) o
      (enrolls d updateRequired noTransport)
  | .renewSession token now o => p.request C cfg (.renewSession token now) o fun _ => []
  | .releaseSession token now o => p.request C cfg (.endSession token now) o (kicks d)
  | .expireSessions now o => p.requestWhenReady C cfg (.expireSessions now) o (kicks d)
  | .meterAllowances now =>
    if p.phase = .ready ∧ p.jobs.all (fun j => !j.isMeter) = true then
      match meteredSessions p.node.state now with
      | [] => some { p with meter := (p.meter.take [] []).1 }
      | sessions => some { p with jobs := p.jobs ++ [.meter sessions d.controls [] 0] }
    else none
  | .advance i o =>
    p.jobs[i]?.bind fun j => p.advance d j o (p.jobs.take i) (p.jobs.drop (i + 1))
  | .proceed i now o =>
    p.jobs[i]?.bind fun j => p.proceed C cfg d j now o (p.jobs.take i) (p.jobs.drop (i + 1))
  | .traffic c owner place n =>
    some { p with table := update p.table c ((p.table c).count owner place n) }
  | .count c id e => some (p.count c id e)

/-- The call that an event makes to an engine. -/
def next : PlaneEvent → Option (Control × ControlCall × CallOutcome)
  | .advance i o => p.jobs[i]?.bind fun j => j.pending.map fun ck => (ck.1, ck.2, o)
  | _ => none

/-- The call of the event, if there is one, succeeds. -/
def succeeds (e : PlaneEvent) : Bool :=
  (p.next e).all fun x => (x.1.call d (p.table x.1) x.2.1 x.2.2).2

/-- The operation of the service that an event makes. -/
def operation : PlaneEvent → Option (Access × StoreOutcome)
  | .createGrant request now code secretHash o =>
    some (.createGrant request now code secretHash, o)
  | .updateGrant id changes now o => some (.updateGrant id changes now, o)
  | .revokeGrant id o => some (.revokeGrant id, o)
  | .createSession accessCode clientName now token scopedSecret _ _ o =>
    some (.createSession accessCode clientName now token scopedSecret, o)
  | .renewSession token now o => some (.renewSession token now, o)
  | .releaseSession token now o => some (.endSession token now, o)
  | .expireSessions now o => some (.expireSessions now, o)
  | .proceed i now o =>
    match p.jobs[i]? with
    | some (.enroll e) => some (.endSession e.created.token now, o)
    | some (.record moved) => some (.recordUsage moved now, o)
    | _ => none
  | _ => none

/-- Before the first start: no state file, and engines that hold nothing. -/
def initial : Plane :=
  ⟨Node.initial, .down, fun _ => Table.empty, fun _ _ => none, UsageMeter.new 0, []⟩

/-- A server that has just started with nothing. -/
def running (now : ℕ) : Plane := { initial with
  phase := .ready
  meter := UsageMeter.new now }

end Plane

/-! ### What a step does -/

namespace Job

/-- The jobs that have a call to make. -/
inductive Calls : Job → Control → ControlCall → Prop
  | reconcile {sessions c rest failed attempt} :
      Calls (.reconcile sessions (c :: rest) failed attempt) c (.reconcile sessions)
  | kick {sessions c rest} : Calls (.kick sessions (c :: rest)) c (.kick sessions)
  | kickExpired {created updateRequired noTransport c rest} :
      Calls (.enroll ⟨created, updateRequired, noTransport, .kickExpired (c :: rest)⟩) c
        (.kick created.expiredAllocations)
  | provision {created updateRequired noTransport c rest done} :
      Calls (.enroll ⟨created, updateRequired, noTransport, .provision (c :: rest) done⟩) c
        (.provision created.allocation)
  | rollback {created updateRequired noTransport c rest} :
      Calls (.enroll ⟨created, updateRequired, noTransport, .rollback (c :: rest)⟩) c
        (.kick [created.allocation])

lemma calls_of_pending {j : Job} {c : Control} {k : ControlCall} (h : j.pending = some (c, k)) : j.Calls c k := by
  match j with
  | .reconcile _ (_ :: _) _ _ =>
    cases h
    exact .reconcile
  | .kick _ (_ :: _) =>
    cases h
    exact .kick
  | .enroll ⟨_, _, _, .kickExpired (_ :: _)⟩ =>
    cases h
    exact .kickExpired
  | .enroll ⟨_, _, _, .provision (_ :: _) _⟩ =>
    cases h
    exact .provision
  | .enroll ⟨_, _, _, .rollback (_ :: _)⟩ =>
    cases h
    exact .rollback
  | .startup | .reconcile _ [] _ _ | .kick _ [] | .meter .. | .record _
  | .enroll ⟨_, _, _, .kickExpired []⟩ | .enroll ⟨_, _, _, .provision [] _⟩
  | .enroll ⟨_, _, _, .rollback []⟩ | .enroll ⟨_, _, _, .refuse⟩ => cases h

end Job

/-- The operations of the service that are made in place of the jobs `old`, and what follows from
them. -/
inductive Follows (d : DataPlane) : List Job → Access → (Handed → List Job) → Prop
  | createGrant {request now code secretHash} :
      Follows d [] (.createGrant request now code secretHash) fun _ => []
  | updateGrant {id changes now} : Follows d [] (.updateGrant id changes now) (Plane.kicks d)
  | revokeGrant {id} : Follows d [] (.revokeGrant id) (Plane.kicks d)
  | createSession {accessCode clientName now token scopedSecret updateRequired noTransport} :
      Follows d [] (.createSession accessCode clientName now token scopedSecret)
        (Plane.enrolls d updateRequired noTransport)
  | renewSession {token now} : Follows d [] (.renewSession token now) fun _ => []
  | releaseSession {token now} : Follows d [] (.endSession token now) (Plane.kicks d)
  | expireSessions {now} : Follows d [] (.expireSessions now) (Plane.kicks d)
  | refuse {e : Enrollment} {now} (h : e.phase = .refuse) :
      Follows d [.enroll e] (.endSession e.created.token now) (Plane.kicks d)
  | record {moved now} :
      Follows d [.record moved] (.recordUsage moved now)
        fun handed => if handed.ended = [] then [] else Plane.kicks d handed

namespace Plane

variable (C : Crypto) (cfg : Config) (d : DataPlane)

/-- The steps of the control plane, by what they do. -/
inductive Becomes (p : Plane) : PlaneEvent → Plane → Prop
  | started {now o n} (h : p.node.load C cfg now o = (n, true)) :
      Becomes p (.start now o) { p with node := n, phase := .reconciling, jobs := [.startup] }
  | stopped {now o n} (h : p.node.load C cfg now o = (n, false)) :
      Becomes p (.start now o) { p with node := n, phase := .down, jobs := [] }
  | access {e pre old post op o follow} (hjobs : p.jobs = pre ++ old ++ post)
      (hphase : old = [] → p.phase ≠ .down) (hop : p.operation e = some (op, o))
      (hfollows : Follows d old op follow) :
      Becomes p e (p.access C cfg op o pre post follow)
  | call {i o pre j post c k} (hjobs : p.jobs = pre ++ [j] ++ post)
      (hi : p.jobs[i]? = some j) (hpending : j.pending = some (c, k)) :
      Becomes p (.advance i o) { p with
        table := update p.table c (c.call d (p.table c) k o).1
        jobs := pre ++ [j.after (c.call d (p.table c) k o).2] ++ post }
  | resume {i o pre j post new} (hjobs : p.jobs = pre ++ [j] ++ post)
      (hi : p.jobs[i]? = some j) (hresume : j.resume d = some new) :
      Becomes p (.advance i o) { p with jobs := pre ++ new ++ post }
  | retry {i o pre sessions attempt post}
      (hjobs : p.jobs = pre ++ [.reconcile sessions [] true attempt] ++ post) :
      Becomes p (.advance i o) { p with
        jobs := pre ++ [.reconcile sessions d.controls false (attempt + 1)] ++ post }
  | exit {e j} (hj : j ∈ p.jobs) (h : j.isServing = false) : Becomes p e p.exit
  | list {i now o pre post sessions} (hjobs : p.jobs = pre ++ [.startup] ++ post)
      (h : activeSessionAllocations p.node.state now = .ok sessions) :
      Becomes p (.proceed i now o) { p with
        jobs := pre ++ [.reconcile sessions d.controls false 1] ++ post }
  | ready {i now o pre sessions attempt post}
      (hjobs : p.jobs = pre ++ [.reconcile sessions [] false attempt] ++ post) :
      Becomes p (.proceed i now o) { p with
        phase := .ready
        meter := UsageMeter.new now
        jobs := pre ++ post }
  | meterIdle {now} (hjobs : p.jobs.all (fun j => !j.isMeter) = true)
      (h : meteredSessions p.node.state now = []) :
      Becomes p (.meterAllowances now) { p with meter := (p.meter.take [] []).1 }
  | meter {now} (hphase : p.phase = .ready) (hjobs : p.jobs.all (fun j => !j.isMeter) = true) :
      Becomes p (.meterAllowances now) { p with
        jobs := p.jobs ++ [.meter (meteredSessions p.node.state now) d.controls [] 0] }
  | read {i o pre sessions c rest readings failures rs post}
      (hjobs : p.jobs = pre ++ [.meter sessions (c :: rest) readings failures] ++ post)
      (hi : p.jobs[i]? = some (.meter sessions (c :: rest) readings failures))
      (h : p.usage d c (d.controls.length - (rest.length + 1)) sessions o = some rs) :
      Becomes p (.advance i o) { p with
        jobs := pre ++ [.meter sessions rest (readings ++ rs) failures] ++ post }
  | unread {i o pre sessions c rest readings failures post}
      (hjobs : p.jobs = pre ++ [.meter sessions (c :: rest) readings failures] ++ post)
      (hi : p.jobs[i]? = some (.meter sessions (c :: rest) readings failures))
      (h : p.usage d c (d.controls.length - (rest.length + 1)) sessions o = none) :
      Becomes p (.advance i o) { p with
        jobs := pre ++ [.meter sessions rest readings (failures + 1)] ++ post }
  | unavailable {i o pre sessions readings failures post}
      (hjobs : p.jobs = pre ++ [.meter sessions [] readings failures] ++ post)
      (hi : p.jobs[i]? = some (.meter sessions [] readings failures))
      (h : failures = d.controls.length ∧ d.controls ≠ []) :
      Becomes p (.advance i o) { p with jobs := pre ++ post }
  | take {i o pre sessions readings failures post}
      (hjobs : p.jobs = pre ++ [.meter sessions [] readings failures] ++ post)
      (hi : p.jobs[i]? = some (.meter sessions [] readings failures)) :
      Becomes p (.advance i o) { p with
        meter := (p.meter.take sessions readings).1
        jobs := pre ++ [.record (p.meter.take sessions readings).2] ++ post }
  | traffic {c owner place n} :
      Becomes p (.traffic c owner place n) { p with
        table := update p.table c ((p.table c).count owner place n) }
  | count {c id e} : Becomes p (.count c id e) (p.count c id e)

variable {C cfg d} {p p' : Plane}

variable {i : ℕ} {j : Job} {e : PlaneEvent} {follow : Handed → List Job} {o : StoreOutcome}
  {op : Access}

/-- A step of no job. -/
lemma jobs_eq (p : Plane) : p.jobs = p.jobs ++ [] ++ [] := by simp

lemma jobs_eq_of_getElem? (h : p.jobs[i]? = some j) :
    p.jobs = p.jobs.take i ++ [j] ++ p.jobs.drop (i + 1) := by
  obtain ⟨hi, rfl⟩ := List.getElem?_eq_some_iff.mp h
  rw [append_assoc, singleton_append, getElem_cons_drop, take_append_drop]

lemma becomes_request (hop : p.operation e = some (op, o)) (hfollows : Follows d [] op follow)
    (h : p.request C cfg op o follow = some p') : p.Becomes C cfg d e p' := by
  unfold request at h
  split at h
  · cases h
  · rename_i hphase
    cases h
    exact .access (by simp) (fun _ => hphase) hop hfollows

lemma becomes_requestWhenReady (hop : p.operation e = some (op, o))
    (hfollows : Follows d [] op follow) (h : p.requestWhenReady C cfg op o follow = some p') :
    p.Becomes C cfg d e p' := by
  unfold requestWhenReady at h
  split at h
  · rename_i hphase
    cases h
    exact .access (by simp) (fun _ => by rw [hphase]; decide) hop hfollows
  · cases h

lemma becomes_advance {o : CallOutcome} (hi : p.jobs[i]? = some j)
    (h : p.advance d j o (p.jobs.take i) (p.jobs.drop (i + 1)) = some p') :
    p.Becomes C cfg d (.advance i o) p' := by
  have hjobs := jobs_eq_of_getElem? hi
  cases hpending : j.pending with
  | some ck =>
    obtain ⟨c, k⟩ := ck
    simp only [advance, hpending, Option.some.injEq] at h
    subst h
    exact .call hjobs hi hpending
  | none =>
    simp only [advance, hpending] at h
    split at h
    · split at h
      · cases h
        exact .retry hjobs
      · cases h
        exact .exit (mem_of_getElem? hi) rfl
    · split at h
      · rename_i rs hrs
        cases h
        exact .read hjobs hi hrs
      · rename_i hrs
        cases h
        exact .unread hjobs hi hrs
    · split at h
      · rename_i hall
        cases h
        exact .unavailable hjobs hi hall
      · cases h
        exact .take hjobs hi
    · obtain ⟨new, hresume, heq⟩ := Option.map_eq_some_iff.mp h
      cases heq
      exact .resume hjobs hi hresume

lemma becomes_proceed {now : ℕ} (hi : p.jobs[i]? = some j)
    (h : p.proceed C cfg d j now o (p.jobs.take i) (p.jobs.drop (i + 1)) = some p') :
    p.Becomes C cfg d (.proceed i now o) p' := by
  have hjobs := jobs_eq_of_getElem? hi
  unfold proceed at h
  split at h
  · split at h
    · cases h
      exact .exit (mem_of_getElem? hi) rfl
    · rename_i sessions hsessions
      cases h
      exact .list hjobs hsessions
  · cases h
    exact .ready hjobs
  · split at h
    · rename_i hphase
      cases h
      exact .access hjobs nofun (by simp [operation, hi]) (.refuse hphase)
    · cases h
  · cases h
    exact .access hjobs nofun (by simp [operation, hi]) .record
  · cases h

/-- Every step is one of these. -/
theorem becomes_of_step (h : p.step C cfg d e = some p') : p.Becomes C cfg d e p' := by
  cases e with
  | start now o =>
    simp only [step, start, Option.some.injEq] at h
    split at h
    · rename_i hload
      cases h
      exact .started hload
    · rename_i hload
      cases h
      exact .stopped hload
  | createGrant => exact becomes_request rfl .createGrant h
  | updateGrant => exact becomes_request rfl .updateGrant h
  | revokeGrant => exact becomes_request rfl .revokeGrant h
  | createSession => exact becomes_requestWhenReady rfl .createSession h
  | renewSession => exact becomes_request rfl .renewSession h
  | releaseSession => exact becomes_request rfl .releaseSession h
  | expireSessions => exact becomes_requestWhenReady rfl .expireSessions h
  | meterAllowances now =>
    simp only [step] at h
    split at h
    · rename_i hmeter
      split at h
      · rename_i hnone
        cases h
        exact .meterIdle hmeter.2 hnone
      · cases h
        exact .meter hmeter.1 hmeter.2
    · cases h
  | advance i o =>
    obtain ⟨j, hi, h⟩ := Option.bind_eq_some_iff.mp h
    exact becomes_advance hi h
  | proceed i now o =>
    obtain ⟨j, hi, h⟩ := Option.bind_eq_some_iff.mp h
    exact becomes_proceed hi h
  | traffic c owner place n =>
    cases h
    exact .traffic
  | count c id e =>
    cases h
    exact .count

/-- What an operation leaves: the jobs that follow from what it hands over, which is nothing when
it fails. -/
lemma exists_of_access (hn : p.node.Holds (StateInv C cfg)) (op : Access) (o : StoreOutcome)
    (pre post : List Job) (follow : Handed → List Job) :
    ∃ n handed new, p.access C cfg op o pre post follow
        = { p with node := n, jobs := pre ++ new ++ post } ∧
      n.Holds (StateInv C cfg) ∧ Transfer p.node.state n.state handed ∧
      ((p.node.access C cfg op o).2 = .ok handed ∧ new = follow handed ∨
        (∃ e, (p.node.access C cfg op o).2 = .error e) ∧ handed = ⟨[], none⟩ ∧ new = []) := by
  have hlands := Node.lands_access (o := o) hn op
  rcases hr : p.node.access C cfg op o with ⟨n, r⟩
  rw [hr] at hlands
  cases r with
  | ok handed =>
    refine ⟨n, handed, follow handed, ?_, hlands.holds, hlands.ok handed rfl, .inl ⟨rfl, rfl⟩⟩
    rw [access, hr]
  | error e =>
    have hsame : n.state = p.node.state := hlands.error e rfl
    refine ⟨n, ⟨[], none⟩, [], ?_, hlands.holds, ?_, .inr ⟨⟨e, rfl⟩, rfl, rfl⟩⟩
    · rw [access, hr, append_nil]
    · rw [hsame]
      exact Transfer.refl _

/-- The jobs that follow from an operation. -/
lemma follow_cases {old : List Job} (h : Follows d old op follow) (handed : Handed) :
    follow handed = [] ∨ follow handed = [.kick handed.ended d.controls] ∨
      ∃ created ∈ handed.created, ∃ updateRequired noTransport,
        follow handed = [.enroll ⟨created, updateRequired, noTransport, .kickExpired d.controls⟩] := by
  cases h with
  | createGrant => exact .inl rfl
  | renewSession => exact .inl rfl
  | createSession =>
    cases hcreated : handed.created with
    | none => exact .inl (by rw [enrolls, hcreated])
    | some created => exact .inr (.inr ⟨created, rfl, _, _, by rw [enrolls, hcreated]⟩)
  | record =>
    by_cases hnone : handed.ended = []
    · exact .inl (if_pos hnone)
    · exact .inr (.inl (if_neg hnone))
  | _ => exact .inr (.inl rfl)

end Plane

/-- The control plane from before its first start. -/
def planeSystem (C : Crypto) (cfg : Config) (d : DataPlane) : System Plane PlaneEvent :=
  ⟨Plane.initial, Plane.step C cfg d⟩

namespace Sample

/-- A server with three engines. -/
def dataPlane : DataPlane := ⟨[.xray, .shadowsocks, .wireguard], 20000, by decide⟩

/-- The server starts and reconciles the engines. -/
def boot (now : ℕ) : List PlaneEvent :=
  [.start now .stored, .proceed 0 now .stored, .advance 0 .ok, .advance 0 .ok, .advance 0 .ok,
    .proceed 0 now .stored]

/-- A job calls all three engines and goes on. -/
def sweep (i : ℕ) : List PlaneEvent := List.replicate 4 (.advance i .ok)

/-- An invite is created and a device asks for a session. -/
def asking : List PlaneEvent :=
  [.createGrant request 10 code "hash" .stored,
    .createSession code "phone" 11 token secret false false .stored]

end Sample

end Ket.Server
