import Ket.Client.RouteKeeper
import Ket.Client.State
import Ket.Lib.Check

/-!
# Supervision of a tunnel's processes (`ket-client-core/src/full_route.rs`)

A supervisor waits for its processes, for a command and for the network.  What comes first decides
what it takes down and in which order.  Then it publishes the status, and where its function ends it
drops what it still owns.  One event is one thing that somebody does: a process ends, something is
taken down, the status is published, a caller of `stop` reads it.

A child that is killed and waited for has ended.  What decides where a process is started and what
the bridge writes before it ends is not part of the model.
-/

namespace Ket.Client.FullRoute

open Ket.Lib

inductive Process where
  | engine
  | carrier
  | bridge
deriving DecidableEq, Repr

/-- What stands while a tunnel is up. -/
inductive Resource where
  | process (p : Process)
  | leakGuard
  | routeKeeper
  /-- The DNS configuration, until restoring it has been attempted. -/
  | dns
deriving DecidableEq, Repr

/-- `supervise_processes`, `supervise_three_processes` and `supervise_two_processes`. -/
inductive Supervisor where
  | processes
  | threeProcesses
  | twoProcesses
deriving DecidableEq, Repr

inductive BridgeDiagnostic where
  | permission
  | wintun
  | tunDevice
  | dnsSetup
  | routeSetup
  | addressConflict
  | resourceBusy
  | networkUnavailable
  | missingComponent
deriving DecidableEq, Repr

def BridgeDiagnostic.message : BridgeDiagnostic → String
  | permission => "permission was denied while configuring protected routes"
  | wintun => "the Wintun driver could not be initialized"
  | tunDevice => "the TUN interface could not be created or retained"
  | dnsSetup => "protected DNS routing could not be configured"
  | routeSetup => "system routes could not be configured"
  | addressConflict => "a required local address or port is already in use"
  | resourceBusy => "a required networking device is busy"
  | networkUnavailable => "the underlying network became unreachable"
  | missingComponent => "a required operating-system networking component is missing"

/-- How a tunnel ends. -/
inductive Ending where
  /-- Waiting for a process has returned: its exit status, or `none` when waiting has failed. -/
  | exited (p : Process) (exit : Option String)
  /-- A command, or nobody is left who could send one. -/
  | command
  /-- The carrier could not start again. -/
  | stranded
deriving DecidableEq, Repr

namespace Supervisor

def uses : Supervisor → Resource → Bool
  | processes, .process .carrier => false
  | twoProcesses, .process .bridge => false
  | twoProcesses, .leakGuard => false
  | twoProcesses, .routeKeeper => false
  | _, _ => true

/-- `stop_bridge`. -/
def stopBridge : List Resource := [.process .bridge, .leakGuard, .routeKeeper, .dns]

/-- What is taken down before the status is published, in this order. -/
def takesDown : Supervisor → Ending → List Resource
  | processes, .exited .engine _ => stopBridge
  | processes, .exited .bridge _ => [.process .engine, .dns]
  | processes, .command => stopBridge ++ [.process .engine]
  | threeProcesses, .exited .engine _ => stopBridge ++ [.process .carrier]
  | threeProcesses, .exited .carrier _ => stopBridge ++ [.process .engine]
  | threeProcesses, .exited .bridge _ => [.process .carrier, .process .engine, .dns]
  | threeProcesses, .command => stopBridge ++ [.process .carrier, .process .engine]
  | threeProcesses, .stranded => stopBridge ++ [.process .engine]
  | twoProcesses, .exited .engine _ => [.process .carrier, .dns]
  | twoProcesses, .exited .carrier _ => [.process .engine, .dns]
  | twoProcesses, .command => [.process .engine, .process .carrier, .dns]
  -- the function has no such branch
  | _, _ => []

/-- What the function drops at its end: its arguments in reverse, the fields of each in order. -/
def drops : Supervisor → List Resource
  | processes => [.process .bridge, .dns, .leakGuard, .routeKeeper, .process .engine]
  | threeProcesses =>
    [.process .bridge, .dns, .leakGuard, .routeKeeper, .process .carrier, .process .engine]
  | twoProcesses => [.dns, .process .carrier, .process .engine]

/-- The branches of the function. -/
def hasBranch (supervisor : Supervisor) : Ending → Bool
  | .exited p _ => supervisor.uses (.process p)
  | .command => true
  | .stranded => supervisor = .threeProcesses

end Supervisor

/-! ### The published status -/

def appendDnsCleanupFailure (message : String) (cleanup : Bool) : String :=
  if cleanup then message else message ++ "; system DNS restoration failed"

def bridgeExitMessage (exit : String) : Option BridgeDiagnostic → String
  | none => "full-route bridge exited unexpectedly (" ++ exit ++ ")"
  | some diagnostic =>
    "full-route bridge exited unexpectedly (" ++ exit ++ "): " ++ diagnostic.message

/-- What a supervisor is started with. -/
structure Supervision where
  supervisor : Supervisor
  transportId : String
  engineName : String
  carrierName : String
  /-- The network that the tunnel is started on. -/
  report : NetworkReport

namespace Supervision

def exitMessage (name : String) : Option String → String
  | none => "failed to wait for " ++ name
  | some exit => name ++ " exited unexpectedly (" ++ exit ++ ")"

def message (S : Supervision) (diagnostic : Option BridgeDiagnostic) :
    Process → Option String → String
  | .engine, exit => exitMessage S.engineName exit
  | .carrier, exit => exitMessage S.carrierName exit
  | .bridge, none => "failed to wait for the full-route bridge"
  | .bridge, some exit => bridgeExitMessage exit diagnostic

/-- The last status, by the end and by whether DNS was restored. -/
def published (S : Supervision) (cleanup : Bool) (diagnostic : Option BridgeDiagnostic) :
    Ending → TunnelStatus
  | .exited p exit => .failed (appendDnsCleanupFailure (S.message diagnostic p exit) cleanup)
  | .stranded =>
    .failed (appendDnsCleanupFailure
      (S.carrierName ++ " could not start again on the new network") cleanup)
  -- `publish_stopped_or_dns_failure`
  | .command =>
    if cleanup then .stopped else .failed "system DNS restoration failed after tunnel shutdown"

lemma published_ne_connected (S : Supervision) (cleanup : Bool)
    (diagnostic : Option BridgeDiagnostic) (e : Ending) :
    S.published cleanup diagnostic e ≠ .connected := by
  cases e with
  | command =>
    cases cleanup
    · exact TunnelStatus.noConfusion
    · exact TunnelStatus.noConfusion
  | _ => exact TunnelStatus.noConfusion

end Supervision

/-! ### The system -/

inductive Phase where
  | selecting
  /-- Stops the carrier, for the device has moved to another network. -/
  | moving
  | relaunching
  /-- `rest` is to be taken down before the status is published. -/
  | ending (e : Ending) (rest : List Resource)
  /-- The status is published, and the function has not dropped anything. -/
  | published
  | dropping (rest : List Resource)
deriving DecidableEq

/-- A call of `stop`. -/
inductive Call where
  | idle
  | sending
  | waiting
  | returned (result : Except ClientError Unit)
deriving DecidableEq

structure State where
  /-- A process runs, the guard or the keeper is held, DNS has not been restored. -/
  standing : Resource → Bool
  cleanup : Bool
  status : TunnelStatus
  phase : Phase
  report : NetworkReport
  /-- The generation of the network that the carrier was started on. -/
  seen : ℕ
  /-- The channel of commands holds one. -/
  queued : Bool
  /-- No sender of commands is left. -/
  abandoned : Bool
  calls : ℕ → Call

inductive Event where
  /-- A process ends by itself. -/
  | exit (p : Process)
  | network (report : NetworkReport)
  /-- The first look of a call at the status. -/
  | stop (n : ℕ)
  | send (n : ℕ)
  /-- The wait of a call for another status is over. -/
  | awaited (n : ℕ)
  | timeout (n : ℕ)
  | abandon
  | select (e : Ending)
  /-- `moved_to_another_network` has returned. -/
  | move
  /-- The next thing is taken down; `ok` is the result of restoring DNS. -/
  | takeDown (ok : Bool)
  | relaunch (ok : Bool)
  | publish (diagnostic : Option BridgeDiagnostic)
  | drop

namespace State

def release (s : State) (r : Resource) : State :=
  { s with standing := Function.update s.standing r false }

def answer (s : State) (n : ℕ) (call : Call) : State :=
  { s with calls := Function.update s.calls n call }

/-- The receiver of commands and the sender of the status are gone. -/
def closed (s : State) : Bool :=
  match s.phase with
  | .dropping _ => true
  | _ => false

/-- Everything is stopped and released, and restoring DNS has been attempted. -/
def TornDown (s : State) : Prop := ∀ r, s.standing r = false

end State

namespace Supervision

variable (S : Supervision)

def startState : State where
  standing := S.supervisor.uses
  cleanup := true
  status := .connected
  phase := .selecting
  report := S.report
  seen := S.report.generation
  queued := false
  abandoned := false
  calls _ := .idle

def error (message : String) : Except ClientError Unit :=
  .error (.transport S.transportId message true)

/-- What a call of `stop` that has waited returns. -/
def stopResult : TunnelStatus → Except ClientError Unit
  | .stopped => .ok ()
  | .failed message => S.error message
  | .connected => S.error "transport shutdown did not complete"

/-- Whether a branch can be chosen. -/
def ready (s : State) (e : Ending) : Bool :=
  S.supervisor.hasBranch e &&
    match e with
    | .exited p (some _) => !s.standing (.process p)
    | .exited _ none => true
    | .command => s.queued || s.abandoned
    | .stranded => false

def step (s : State) : Event → Option State
  | .exit p => if s.standing (.process p) then some (s.release (.process p)) else none
  | .network report => some { s with report := report }
  | .stop n =>
    if s.calls n = .idle then
      some (s.answer n (if s.status = .connected then .sending else .returned (.ok ())))
    else none
  | .send n =>
    if s.calls n ≠ .sending then none
    else if s.closed then
      some (s.answer n (.returned (S.error "transport supervisor is unavailable")))
    else if s.queued then none
    else some ({ s with queued := true }.answer n .waiting)
  | .awaited n =>
    if s.calls n = .waiting ∧ (s.status ≠ .connected ∨ s.closed) then
      some (s.answer n (.returned (S.stopResult s.status)))
    else none
  | .timeout n =>
    if s.calls n = .waiting then
      some (s.answer n (.returned (S.error "transport shutdown timed out")))
    else none
  | .abandon => some { s with abandoned := true }
  | .select e =>
    if s.phase = .selecting ∧ S.ready s e then
      some { s with
        phase := .ending e (S.supervisor.takesDown e)
        queued := if e = .command then false else s.queued }
    else none
  | .move =>
    if s.phase = .selecting ∧ S.supervisor = .threeProcesses ∧ s.seen < s.report.generation ∧
        !s.report.offline then
      some { s with phase := .moving, seen := s.report.generation }
    else none
  | .takeDown ok =>
    match s.phase with
    | .moving => some { s.release (.process .carrier) with phase := .relaunching }
    | .ending e (r :: rest) =>
      some { s.release r with
        phase := .ending e rest
        cleanup := if r = .dns then ok else s.cleanup }
    | _ => none
  | .relaunch ok =>
    if s.phase = .relaunching then
      some (if ok then
        { s with
          standing := Function.update s.standing (.process .carrier) true
          phase := .selecting }
      else { s with phase := .ending .stranded (S.supervisor.takesDown .stranded) })
    else none
  | .publish diagnostic =>
    match s.phase with
    | .ending e [] =>
      some { s with status := S.published s.cleanup diagnostic e, phase := .published }
    | _ => none
  | .drop =>
    match s.phase with
    | .published => some { s with phase := .dropping S.supervisor.drops }
    | .dropping (r :: rest) => some { s.release r with phase := .dropping rest }
    | _ => none

def system : System State Event := ⟨S.startState, S.step⟩

/-- What a step can do.  Three kinds of steps are the same for the tunnel: somebody calls `stop`
(`answered`), something that does not touch the tunnel changes (`noted`), and something falls
(`fell`). -/
inductive Stepped (s : State) : Event → State → Prop where
  | fell {p : Process} : Stepped s (.exit p) (s.release (.process p))
  | noted {e : Event} (report : NetworkReport) (queued abandoned : Bool) :
      Stepped s e { s with report := report, queued := queued, abandoned := abandoned }
  | answered {e : Event} (n : ℕ) (call : Call) (queued : Bool)
      (hcall : call = .returned (.ok ()) → s.status ≠ .connected) :
      Stepped s e ({ s with queued := queued }.answer n call)
  | select {e : Ending} (queued : Bool) (hphase : s.phase = .selecting) (hready : S.ready s e) :
      Stepped s (.select e)
        { s with phase := .ending e (S.supervisor.takesDown e), queued := queued }
  | move (seen : ℕ) (hphase : s.phase = .selecting) (hthree : S.supervisor = .threeProcesses) :
      Stepped s .move { s with phase := .moving, seen := seen }
  | stopCarrier {ok : Bool} (hphase : s.phase = .moving) :
      Stepped s (.takeDown ok) { s.release (.process .carrier) with phase := .relaunching }
  | takeDown {ok : Bool} {e : Ending} {r : Resource} {rest : List Resource} (cleanup : Bool)
      (hphase : s.phase = .ending e (r :: rest)) :
      Stepped s (.takeDown ok)
        { s.release r with phase := .ending e rest, cleanup := cleanup }
  | relaunched (hphase : s.phase = .relaunching) :
      Stepped s (.relaunch true)
        { s with
          standing := Function.update s.standing (.process .carrier) true
          phase := .selecting }
  | stranded (hphase : s.phase = .relaunching) :
      Stepped s (.relaunch false)
        { s with phase := .ending .stranded (S.supervisor.takesDown .stranded) }
  | publish {diagnostic : Option BridgeDiagnostic} {e : Ending} (hphase : s.phase = .ending e []) :
      Stepped s (.publish diagnostic)
        { s with status := S.published s.cleanup diagnostic e, phase := .published }
  | returned (hphase : s.phase = .published) :
      Stepped s .drop { s with phase := .dropping S.supervisor.drops }
  | drop {r : Resource} {rest : List Resource} (hphase : s.phase = .dropping (r :: rest)) :
      Stepped s .drop { s.release r with phase := .dropping rest }

lemma returned_error_ne {message : String} {P : Prop}
    (h : Call.returned (S.error message) = .returned (.ok ())) : P := by
  cases h

lemma stepped {s s' : State} {e : Event} (h : S.step s e = some s') : S.Stepped s e s' := by
  cases e with
  | exit p =>
    obtain ⟨-, rfl⟩ := of_guard h
    exact .fell
  | network report =>
    cases h
    exact .noted report s.queued s.abandoned
  | stop n =>
    obtain ⟨-, rfl⟩ := of_guard h
    refine .answered n _ s.queued fun hcall hstatus => ?_
    rw [if_pos hstatus] at hcall
    cases hcall
  | send n =>
    simp only [step] at h
    split at h
    · cases h
    · split at h
      · cases h
        exact .answered n _ s.queued S.returned_error_ne
      · obtain ⟨-, h⟩ := Option.ite_none_left_eq_some.mp h
        cases h
        exact .answered n .waiting true Call.noConfusion
  | awaited n =>
    obtain ⟨-, rfl⟩ := of_guard h
    refine .answered n _ s.queued fun hcall hstatus => ?_
    rw [hstatus] at hcall
    cases hcall
  | timeout n =>
    obtain ⟨-, rfl⟩ := of_guard h
    exact .answered n _ s.queued S.returned_error_ne
  | abandon =>
    cases h
    exact .noted s.report s.queued true
  | select e =>
    obtain ⟨⟨hphase, hready⟩, rfl⟩ := of_guard h
    exact .select _ hphase hready
  | move =>
    obtain ⟨⟨hphase, hthree, -⟩, rfl⟩ := of_guard h
    exact .move _ hphase hthree
  | takeDown ok =>
    simp only [step] at h
    split at h
    · rename_i hphase
      cases h
      exact .stopCarrier hphase
    · rename_i hphase
      cases h
      exact .takeDown _ hphase
    · cases h
  | relaunch ok =>
    obtain ⟨hphase, rfl⟩ := of_guard h
    cases ok
    · exact .stranded hphase
    · exact .relaunched hphase
  | publish diagnostic =>
    simp only [step] at h
    split at h
    · rename_i hphase
      cases h
      exact .publish hphase
    · cases h
  | drop =>
    simp only [step] at h
    split at h
    · rename_i hphase
      cases h
      exact .returned hphase
    · rename_i hphase
      cases h
      exact .drop hphase
    · cases h

end Supervision

/-! ### Nothing stands when the status is published -/

/-- The process that has ended when a tunnel comes to this end. -/
def Ending.gone : Ending → Option Process
  | .exited p _ => some p
  | .stranded => some .carrier
  | .command => none

/-- Unless the bridge has exited, everything that may stand is taken down. -/
lemma Supervisor.mem_takesDown {supervisor : Supervisor} {e : Ending} {r : Resource}
    (hbranch : supervisor.hasBranch e) (hbridge : e.gone ≠ some .bridge)
    (huses : supervisor.uses r) (hgone : ∀ p, e.gone = some p → r ≠ .process p) :
    r ∈ supervisor.takesDown e := by
  have hgone' : e.gone.all (fun p => decide (r ≠ .process p)) = true := by
    cases hp : e.gone with
    | none => rfl
    | some p => exact decide_eq_true (hgone p hp)
  rcases supervisor with _ | _ | _ <;> rcases e with ⟨_ | _ | _, exit⟩ | _ | _ <;>
    rcases r with (_ | _ | _) | _ | _ | _ <;>
    first
    | exact absurd rfl hbridge
    | exact absurd huses Bool.false_ne_true
    | exact absurd hbranch Bool.false_ne_true
    | exact absurd hgone' Bool.false_ne_true
    | simp [takesDown, stopBridge]

namespace State

/-- What the phase says about what stands. -/
def Descends (S : Supervision) (s : State) : Phase → Prop
  | .selecting => s.status = .connected
  | .moving => s.status = .connected ∧ S.supervisor = .threeProcesses
  | .relaunching => s.status = .connected ∧ S.supervisor = .threeProcesses ∧
      ∀ r, s.standing r = true → r ≠ .process .carrier
  | .ending _ rest => s.status = .connected ∧ ∀ r, s.standing r = true → r ∈ rest
  | .published => s.TornDown
  | .dropping _ => s.TornDown

/-- The invariant of a supervised tunnel. -/
structure Supervised (S : Supervision) (s : State) : Prop where
  uses : ∀ r, s.standing r = true → S.supervisor.uses r = true
  descends : s.Descends S s.phase
  calls : ∀ n, s.calls n = .returned (.ok ()) → s.status ≠ .connected

variable {S : Supervision} {s s' : State}

lemma standing_of_release {r : Resource} (r' : Resource) (h : (s.release r).standing r' = true) :
    r' ≠ r ∧ s.standing r' = true := by
  simp only [release, Function.update_apply] at h
  split at h
  · cases h
  · rename_i hne
    exact ⟨hne, h⟩

lemma TornDown.mono (hstanding : ∀ r, s'.standing r = true → s.standing r = true)
    (h : s.TornDown) : s'.TornDown := fun r =>
  Bool.eq_false_iff.mpr fun hr => Bool.false_ne_true ((h r).symm.trans (hstanding r hr))

lemma Descends.mono {phase : Phase} (hstatus : s'.status = s.status)
    (hstanding : ∀ r, s'.standing r = true → s.standing r = true) (h : s.Descends S phase) :
    s'.Descends S phase := by
  cases phase with
  | selecting => exact hstatus.trans h
  | moving => exact ⟨hstatus.trans h.1, h.2⟩
  | relaunching => exact ⟨hstatus.trans h.1, h.2.1, fun r hr => h.2.2 r (hstanding r hr)⟩
  | ending e rest => exact ⟨hstatus.trans h.1, fun r hr => h.2 r (hstanding r hr)⟩
  | _ => exact TornDown.mono hstanding h

namespace Supervised

section

variable (h : s.Supervised S)
include h

/-- A step after which no more stands than before, and with the same status. -/
lemma enter (hcalls : s'.calls = s.calls) (hstatus : s'.status = s.status)
    (hstanding : ∀ r, s'.standing r = true → s.standing r = true)
    (hdescends : s'.Descends S s'.phase) : s'.Supervised S where
  uses r hr := h.uses r (hstanding r hr)
  descends := hdescends
  calls n hn := by
    rw [hstatus]
    exact h.calls n (hcalls ▸ hn)

/-- The branch that is chosen leaves nothing standing. -/
lemma covers {e : Ending} (hready : S.ready s e)
    (hregular : ∀ p exit, e = .exited p exit → p ≠ .bridge ∧ exit ≠ none) {r : Resource}
    (hr : s.standing r = true) : r ∈ S.supervisor.takesDown e := by
  obtain ⟨hbranch, hready⟩ := Bool.and_eq_true_iff.mp hready
  cases e with
  | exited p exit =>
    obtain ⟨hbridge, hexit⟩ := hregular p exit rfl
    obtain ⟨exit, rfl⟩ := Option.ne_none_iff_exists'.mp hexit
    refine Supervisor.mem_takesDown hbranch (fun hp => hbridge (Option.some.inj hp))
      (h.uses r hr) ?_
    rintro p' hp' rfl
    cases hp'
    simp only [hr, Bool.not_true, Bool.false_eq_true] at hready
  | command =>
    refine Supervisor.mem_takesDown hbranch (fun hp => ?_) (h.uses r hr) fun p hp => ?_
    · cases hp
    · cases hp
  | stranded => cases hready

lemma step {e : Event} (hstep : S.Stepped s e s')
    (hregular : ∀ p exit, e = .select (.exited p exit) → p ≠ .bridge ∧ exit ≠ none) :
    s'.Supervised S := by
  have hdescends := h.descends
  cases hstep with
  | fell =>
    refine h.enter rfl rfl (standing_of_release · · |>.2) ?_
    exact Descends.mono (s := s) rfl (standing_of_release · · |>.2) hdescends
  | noted report queued abandoned => exact ⟨h.uses, hdescends.mono rfl fun _ => id, h.calls⟩
  | answered n call queued hcall =>
    refine ⟨h.uses, hdescends.mono rfl fun _ => id, fun m hm => ?_⟩
    simp only [answer, Function.update_apply] at hm
    split at hm
    · exact hcall hm
    · exact h.calls m hm
  | @select e queued hphase hready =>
    rw [hphase] at hdescends
    refine h.enter rfl rfl (fun _ => id) ⟨hdescends, fun r => h.covers hready fun p exit he => ?_⟩
    exact hregular p exit (by rw [he])
  | move seen hphase hthree =>
    rw [hphase] at hdescends
    exact h.enter rfl rfl (fun _ => id) ⟨hdescends, hthree⟩
  | stopCarrier hphase =>
    rw [hphase] at hdescends
    exact h.enter rfl rfl (standing_of_release · · |>.2)
      ⟨hdescends.1, hdescends.2, (standing_of_release · · |>.1)⟩
  | takeDown cleanup hphase =>
    rw [hphase] at hdescends
    refine h.enter rfl rfl (standing_of_release · · |>.2) ⟨hdescends.1, fun r hr => ?_⟩
    obtain ⟨hne, hr⟩ := standing_of_release r hr
    exact (List.mem_cons.mp (hdescends.2 r hr)).resolve_left hne
  | relaunched hphase =>
    rw [hphase] at hdescends
    refine ⟨fun r hr => ?_, hdescends.1, h.calls⟩
    simp only [Function.update_apply] at hr
    split at hr
    · rename_i hcarrier
      rw [hcarrier, hdescends.2.1]
      rfl
    · exact h.uses r hr
  | stranded hphase =>
    rw [hphase] at hdescends
    obtain ⟨hstatus, hthree, hcarrier⟩ := hdescends
    refine h.enter rfl rfl (fun _ => id) ⟨hstatus, fun r hr => ?_⟩
    refine Supervisor.mem_takesDown (decide_eq_true hthree) (fun hp => ?_) (h.uses r hr)
      fun p hp => ?_
    · cases hp
    · cases hp
      exact hcarrier r hr
  | publish hphase =>
    rw [hphase] at hdescends
    refine ⟨h.uses, fun r => ?_, fun _ _ => S.published_ne_connected _ _ _⟩
    -- the list of what is to be taken down is empty
    exact Bool.eq_false_iff.mpr fun hr => List.not_mem_nil (hdescends.2 r hr)
  | returned hphase =>
    rw [hphase] at hdescends
    exact h.enter rfl rfl (fun _ => id) hdescends
  | drop hphase =>
    rw [hphase] at hdescends
    exact h.enter rfl rfl (standing_of_release · · |>.2)
      (TornDown.mono (standing_of_release · · |>.2) hdescends)

lemma tornDown (hstatus : s.status ≠ .connected) : s.TornDown := by
  have hdescends := h.descends
  cases hphase : s.phase <;> rw [hphase] at hdescends
  case selecting => exact absurd hdescends hstatus
  case moving => exact absurd hdescends.1 hstatus
  case relaunching => exact absurd hdescends.1 hstatus
  case ending => exact absurd hdescends.1 hstatus
  case published => exact hdescends
  case dropping => exact hdescends

end

end Supervised

end State

/-- The supervisor does not see the end of its bridge first, and it does not fail to wait. -/
def Event.regular : Event → Bool
  | .select (.exited .bridge _) => false
  | .select (.exited _ none) => false
  | _ => true

lemma Event.regular_exited {p : Process} {exit : Option String}
    (h : regular (.select (.exited p exit)) = true) : p ≠ .bridge ∧ exit ≠ none := by
  constructor
  · rintro rfl
    cases h
  · rintro rfl
    cases p <;> cases h

lemma supervised_of_reachable {S : Supervision} {s : State}
    (h : S.system.Reachable (fun _ e => e.regular = true) s) : s.Supervised S := by
  refine h.invariant ⟨fun _ => id, rfl, fun _ hn => ?_⟩
    fun s e s' _ hs hcond hstep => hs.step (S.stepped hstep) ?_
  · cases hn
  · rintro p exit rfl
    exact Event.regular_exited hcond

/-- **Not connected means torn down.**  In every run in which the supervisor does not end for the
exit of its bridge and no wait fails, nothing stands once the published status is another than
connected, nor once a call of `stop` has succeeded. -/
theorem not_connected_torn_down (S : Supervision) {s : State}
    (h : S.system.Reachable (fun _ e => e.regular = true) s) :
    (s.status ≠ .connected → s.TornDown) ∧ ∀ n, s.calls n = .returned (.ok ()) → s.TornDown :=
  have hs := supervised_of_reachable h
  ⟨hs.tornDown, fun n hn => hs.tornDown (hs.calls n hn)⟩

namespace Sample

def wireGuard : Supervision where
  supervisor := .threeProcesses
  transportId := "wireguard"
  engineName := "WireGuard"
  carrierName := "wstunnel"
  report := ⟨0, false⟩

/-- `stop_bridge` without a failure. -/
def stopBridge : List Event := [.takeDown true, .takeDown true, .takeDown true, .takeDown true]

end Sample

theorem not_connected_torn_down_command :
    (∃ s, Sample.wireGuard.system.Reachable (fun _ e => e.regular = true) s ∧
        s.calls 0 = .returned (.ok ()) ∧ s.TornDown) ∧
      ∃ s, Sample.wireGuard.system.Reachable (fun _ e => e.regular = true) s ∧
        s.status = .failed "wstunnel could not start again on the new network" ∧ s.TornDown := by
  constructor
  · obtain ⟨s, hs, hcall⟩ := System.exists_reachable_of_run Sample.wireGuard.system
      (fun _ e => e.regular = true) (fun s => s.calls 0 = .returned (.ok ()))
      ([.stop 0, .send 0, .select .command] ++ Sample.stopBridge ++
        [.takeDown true, .takeDown true, .publish none, .awaited 0])
      (by decide)
    exact ⟨s, hs, hcall, (not_connected_torn_down _ hs).2 0 hcall⟩
  · obtain ⟨s, hs, hstatus⟩ := System.exists_reachable_of_run Sample.wireGuard.system
      (fun _ e => e.regular = true)
      (fun s => s.status = .failed "wstunnel could not start again on the new network")
      ([.network ⟨1, false⟩, .move, .takeDown true, .relaunch true, .network ⟨2, false⟩, .move,
        .takeDown true, .relaunch false] ++ Sample.stopBridge ++ [.takeDown true, .publish none])
      (by decide)
    refine ⟨s, hs, hstatus, (not_connected_torn_down _ hs).1 ?_⟩
    rw [hstatus]
    exact TunnelStatus.noConfusion

/-- The bridge exits.  The status is published while the leak guard and the route keeper are held,
and a call of `stop` succeeds. -/
theorem published_before_release : ∃ s, Sample.wireGuard.system.Reachable (fun _ _ => True) s ∧
      s.status = .failed "full-route bridge exited unexpectedly (exit status: 1)" ∧
      s.calls 0 = .returned (.ok ()) ∧ s.standing .leakGuard = true ∧
      s.standing .routeKeeper = true :=
  System.exists_reachable_of_run Sample.wireGuard.system (fun _ _ => True)
    (fun s => s.status = .failed "full-route bridge exited unexpectedly (exit status: 1)" ∧
      s.calls 0 = .returned (.ok ()) ∧ s.standing .leakGuard = true ∧
      s.standing .routeKeeper = true)
    [.exit .bridge, .select (.exited .bridge (some "exit status: 1")), .takeDown true,
      .takeDown true, .takeDown true, .publish none, .stop 0]
    (by decide)

end Ket.Client.FullRoute
