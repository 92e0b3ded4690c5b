import Ket.Client.RoutePlan
import Ket.Client.State
import Ket.Lib.System

/-!
# The keeper of the direct routes (`ket-client-core/src/route_keeper/mod.rs`)

The keeper and its task share the state behind a lock.  One event is one thing that somebody does: a
look at the routing table, one action on it, a tick, the abort of the task.  Aborting a task takes
effect where it waits next; a task that has its tick and has not taken the lock goes on.

`table` are Ket's routes in the system.  An action on it succeeds, or fails and changes nothing.
-/

namespace Ket.Client.Routes

open Ket.Lib
open Ket.Tunnel (IpPrefix)

/-- What `engage_with` is called with. -/
structure Setup where
  destinations : List IpPrefix
  tunnelInterface : String
  /-- Routes that a previous process left behind. -/
  leftovers : RouteMap

inductive Keeper where
  /-- Before `clear_stale`. -/
  | starting
  /-- `clear_stale` has failed. -/
  | uncleared
  /-- In the first refresh, before there is a lock to share. -/
  | engaging
  /-- The first refresh has failed, and its routes are released. -/
  | refused
  | held
  /-- `drop` has aborted the task and wants the lock. -/
  | dropping
  | dropped
deriving DecidableEq, Repr

inductive Task where
  /-- Not spawned yet, not needed, or at an end. -/
  | none
  /-- Waits for its tick. -/
  | waiting
  /-- Has its tick and wants the lock. -/
  | due
  | refreshing
deriving DecidableEq, Repr

/-- What the holder of the lock has before it. -/
inductive Work where
  | nothing
  | refreshing (actions : List RouteAction) (moved : Bool)
  | releasing (actions : List RouteAction)
deriving DecidableEq

structure KeeperState where
  keeper : Keeper
  task : Task
  work : Work
  applied : RouteMap
  report : NetworkReport
  /-- Ket's routes in the system. -/
  table : RouteMap
  /-- A removal by `release` has failed. -/
  leftBehind : Bool
deriving DecidableEq

inductive KeeperEvent where
  | clearStale (ok : Bool)
  /-- The start of a refresh: the default routes and the attached networks, or a failure. -/
  | look (routes : Option (List DefaultRoute)) (onLink : Option (List OnLinkNetwork))
  /-- The next action of the refresh. -/
  | act (ok : Bool)
  /-- The end of a refresh without a failure. -/
  | finish
  | tick
  /-- `drop` begins and aborts the task. -/
  | abort
  /-- `drop` has the lock and begins to release. -/
  | lock
  /-- The next removal of a release. -/
  | removal (ok : Bool)
  /-- The end of a release. -/
  | released

namespace KeeperState

/-- A refresh that failed: the first one is released, a later one is tried again at the next tick. -/
def failed (s : KeeperState) : KeeperState :=
  if s.keeper = .engaging then { s with work := .releasing (release s.applied) }
  else { s with work := .nothing, task := if s.keeper = .held then .waiting else .none }

/-- A refresh that came to its end.  After the first one the task is spawned. -/
def refreshed (s : KeeperState) (destinations : List IpPrefix) : KeeperState :=
  if s.keeper = .engaging then
    { s with
      work := .nothing
      keeper := .held
      task := if destinations = [] then .none else .waiting }
  else { s with work := .nothing, task := if s.keeper = .held then .waiting else .none }

/-- The report at the end of a refresh. -/
def reported (s : KeeperState) (moved : Bool) : NetworkReport where
  generation := s.report.generation + moved.toNat
  offline := decide (s.applied.entries ≠ []) &&
    s.applied.entries.all fun e => decide (e.2 = .unreachable)

end KeeperState

/-- Whether an action that was carried out counts as a move. -/
def RouteAction.moves : RouteAction → Bool
  | .install _ _ replacing => replacing.isSome
  | .remove _ _ => true

namespace Setup

variable (S : Setup)

def startState : KeeperState where
  keeper := .starting
  task := .none
  work := .nothing
  applied := .empty
  report := ⟨0, false⟩
  table := S.leftovers
  leftBehind := false

/-- The first part of `refresh`. -/
def look (s : KeeperState) : Option (List DefaultRoute) → Option (List OnLinkNetwork) → KeeperState
  | some routes, some onLink =>
    let actions := plan routes onLink S.destinations s.applied S.tunnelInterface
    { s with work := .refreshing actions false }
  | _, _ => s.failed

def step (s : KeeperState) : KeeperEvent → Option KeeperState
  | .clearStale ok =>
    if s.keeper = .starting then
      some (if ok then { s with keeper := .engaging, table := .empty }
        else { s with keeper := .uncleared })
    else none
  | .look routes onLink =>
    if s.work ≠ .nothing then none
    else if s.keeper = .engaging then some (S.look s routes onLink)
    else if s.task = .due then some (S.look { s with task := .refreshing } routes onLink)
    else none
  | .act ok =>
    match s.work with
    | .refreshing (action :: actions) moved =>
      some (if ok then
        { s with
          table := action.carryOut s.table
          applied := action.carryOut s.applied
          work := .refreshing actions (moved || action.moves) }
      else s.failed)
    | _ => none
  | .finish =>
    match s.work with
    | .refreshing [] moved =>
      some ({ s with report := s.reported moved }.refreshed S.destinations)
    | _ => none
  | .tick => if s.task = .waiting then some { s with task := .due } else none
  | .abort =>
    if s.keeper = .held then
      some { s with
        keeper := .dropping
        task := if s.task = .waiting then .none else s.task }
    else none
  | .lock =>
    if s.keeper = .dropping ∧ s.work = .nothing then
      some { s with work := .releasing (release s.applied) }
    else none
  | .removal ok =>
    match s.work with
    | .releasing (action :: actions) =>
      some { s with
        table := if ok then action.carryOut s.table else s.table
        work := .releasing actions
        leftBehind := s.leftBehind || !ok }
    | _ => none
  | .released =>
    match s.work with
    | .releasing [] =>
      some { s with
        work := .nothing
        applied := .empty
        keeper := if s.keeper = .engaging then .refused else .dropped }
    | _ => none

def system : System KeeperState KeeperEvent := ⟨S.startState, S.step⟩

/-- What a step can do. -/
inductive Stepped (s : KeeperState) : KeeperEvent → KeeperState → Prop where
  | cleared (hkeeper : s.keeper = .starting) :
      Stepped s (.clearStale true) { s with keeper := .engaging, table := .empty }
  | uncleared (hkeeper : s.keeper = .starting) :
      Stepped s (.clearStale false) { s with keeper := .uncleared }
  | firstLook {routes onLink} (hwork : s.work = .nothing) (hkeeper : s.keeper = .engaging) :
      Stepped s (.look routes onLink) (S.look { s with task := s.task } routes onLink)
  | look {routes onLink} (hwork : s.work = .nothing) (hkeeper : s.keeper ≠ .engaging)
      (htask : s.task = .due) :
      Stepped s (.look routes onLink) (S.look { s with task := .refreshing } routes onLink)
  | act {action actions moved} (hwork : s.work = .refreshing (action :: actions) moved) :
      Stepped s (.act true)
        { s with
          table := action.carryOut s.table
          applied := action.carryOut s.applied
          work := .refreshing actions (moved || action.moves) }
  | fail {action actions moved} (hwork : s.work = .refreshing (action :: actions) moved) :
      Stepped s (.act false) s.failed
  | finish {moved} (hwork : s.work = .refreshing [] moved) :
      Stepped s .finish ({ s with report := s.reported moved }.refreshed S.destinations)
  | tick (htask : s.task = .waiting) : Stepped s .tick { s with task := .due }
  | abort (hkeeper : s.keeper = .held) :
      Stepped s .abort
        { s with keeper := .dropping, task := if s.task = .waiting then .none else s.task }
  | lock (hkeeper : s.keeper = .dropping) (hwork : s.work = .nothing) :
      Stepped s .lock { s with work := .releasing (release s.applied) }
  | removal {action actions} (ok : Bool) (hwork : s.work = .releasing (action :: actions)) :
      Stepped s (.removal ok)
        { s with
          table := if ok then action.carryOut s.table else s.table
          work := .releasing actions
          leftBehind := s.leftBehind || !ok }
  | released (hwork : s.work = .releasing []) :
      Stepped s .released
        { s with
          work := .nothing
          applied := .empty
          keeper := if s.keeper = .engaging then .refused else .dropped }

lemma stepped {s s' : KeeperState} {e : KeeperEvent} (h : S.step s e = some s') :
    S.Stepped s e s' := by
  cases e with
  | clearStale ok =>
    obtain ⟨hkeeper, rfl⟩ := of_guard h
    cases ok
    · exact .uncleared hkeeper
    · exact .cleared hkeeper
  | look routes onLink =>
    simp only [step] at h
    split at h
    · cases h
    · rename_i hwork
      split at h
      · rename_i hkeeper
        cases h
        exact .firstLook (not_not.mp hwork) hkeeper
      · rename_i hkeeper
        obtain ⟨htask, rfl⟩ := of_guard h
        exact .look (not_not.mp hwork) hkeeper htask
  | act ok =>
    simp only [step] at h
    split at h
    · rename_i hwork
      cases h
      cases ok
      · exact .fail hwork
      · exact .act hwork
    · cases h
  | finish =>
    simp only [step] at h
    split at h
    · rename_i hwork
      cases h
      exact .finish hwork
    · cases h
  | tick =>
    obtain ⟨htask, rfl⟩ := of_guard h
    exact .tick htask
  | abort =>
    obtain ⟨hkeeper, rfl⟩ := of_guard h
    exact .abort hkeeper
  | lock =>
    obtain ⟨hlock, rfl⟩ := of_guard h
    exact .lock hlock.1 hlock.2
  | removal ok =>
    simp only [step] at h
    split at h
    · rename_i hwork
      cases h
      exact .removal ok hwork
    · cases h
  | released =>
    simp only [step] at h
    split at h
    · rename_i hwork
      cases h
      exact .released hwork
    · cases h

end Setup

/-! ### The table is the applied map -/

namespace KeeperState

/-- The routes are kept: the keeper engages, is held, or waits for its release. -/
def Keeping (s : KeeperState) : Prop :=
  (s.keeper = .engaging ∨ s.keeper = .held ∨ s.keeper = .dropping) ∧
    ∀ actions, s.work ≠ .releasing actions

/-- How the table follows the work. -/
def Follows (s : KeeperState) : Work → Prop
  | .releasing actions => (∀ action ∈ actions, action.result = none) ∧
      (s.leftBehind = false → ∀ d, s.table.get? d ≠ none → d ∈ actions.map RouteAction.destination)
  | _ => s.leftBehind = false → s.table = s.applied

/-- The invariant of the keeper. -/
structure Aligned (s : KeeperState) : Prop where
  follows : s.keeper ≠ .starting → s.keeper ≠ .uncleared → s.Follows s.work
  leftBehind : s.Keeping → s.leftBehind = false
  starting : s.keeper = .starting → s.applied = .empty ∧ s.leftBehind = false
  fresh : s.keeper = .starting ∨ s.keeper = .uncleared → s.work = .nothing ∧ s.task = .none

variable {s : KeeperState}

/-- Once the stale routes are cleared there are two things to show. -/
lemma Aligned.of_cleared (hstarting : s.keeper ≠ .starting) (huncleared : s.keeper ≠ .uncleared)
    (hfollows : s.Follows s.work) (hleft : s.Keeping → s.leftBehind = false) : s.Aligned where
  follows _ _ := hfollows
  leftBehind := hleft
  starting h := absurd h hstarting
  fresh h := h.elim (absurd · hstarting) (absurd · huncleared)

lemma Aligned.cleared_of_work (h : s.Aligned) {work : Work} (hwork : s.work = work)
    (hne : work ≠ .nothing) :
    s.keeper ≠ .starting ∧ s.keeper ≠ .uncleared ∧ s.Follows work := by
  subst hwork
  have hstarting : s.keeper ≠ .starting := fun hk => hne (h.fresh (.inl hk)).1
  have huncleared : s.keeper ≠ .uncleared := fun hk => hne (h.fresh (.inr hk)).1
  exact ⟨hstarting, huncleared, h.follows hstarting huncleared⟩

lemma Aligned.cleared_of_task (h : s.Aligned) (htask : s.task ≠ .none) :
    s.keeper ≠ .starting ∧ s.keeper ≠ .uncleared :=
  ⟨fun hk => htask (h.fresh (.inl hk)).2, fun hk => htask (h.fresh (.inr hk)).2⟩

end KeeperState

lemma mem_release {applied : RouteMap} {d : IpPrefix} (h : applied.get? d ≠ none) :
    d ∈ (release applied).map RouteAction.destination := by
  obtain ⟨path, hpath⟩ := Option.ne_none_iff_exists'.mp h
  have hmem : (d, path) ∈ applied.entries := OrderedMap.mem_of_get? hpath
  rw [release, List.map_map]
  exact List.mem_map.mpr ⟨(d, path), hmem, rfl⟩

lemma result_release {applied : RouteMap} : ∀ action ∈ release applied, action.result = none := by
  intro action haction
  obtain ⟨e, -, rfl⟩ := List.mem_map.mp haction
  rfl

namespace KeeperState

variable {s : KeeperState}

/-- A release begins where the table is the applied map. -/
lemma follows_release (h : s.leftBehind = false → s.table = s.applied) :
    Follows { s with work := .releasing (release s.applied) } (.releasing (release s.applied)) := by
  refine ⟨result_release, fun hleft d hd => ?_⟩
  rw [← h hleft] at *
  exact mem_release hd

lemma Aligned.failed (hstarting : s.keeper ≠ .starting) (huncleared : s.keeper ≠ .uncleared)
    (htable : s.leftBehind = false → s.table = s.applied)
    (hleft : s.keeper = .held ∨ s.keeper = .dropping → s.leftBehind = false) :
    s.failed.Aligned := by
  unfold KeeperState.failed
  split
  · refine .of_cleared hstarting huncleared (follows_release htable) fun hkeeping => ?_
    exact absurd rfl (hkeeping.2 _)
  · rename_i hengaging
    refine .of_cleared hstarting huncleared htable fun hkeeping => hleft ?_
    exact hkeeping.1.resolve_left hengaging

variable {S : Setup} {actions : List RouteAction} {moved : Bool} {e : KeeperEvent}
  {s' : KeeperState}

section

variable (h : s.Aligned)
include h

lemma Aligned.look (hwork : s.work = .nothing) (hstarting : s.keeper ≠ .starting)
    (huncleared : s.keeper ≠ .uncleared) (routes : Option (List DefaultRoute))
    (onLink : Option (List OnLinkNetwork)) (task : Task) :
    (S.look { s with task := task } routes onLink).Aligned := by
  have hfollows := h.follows hstarting huncleared
  rw [hwork] at hfollows
  have hkeeping : ∀ actions, s.work ≠ .releasing actions := fun actions hr => by
    rw [hwork] at hr
    cases hr
  unfold Setup.look
  split
  · exact .of_cleared hstarting huncleared hfollows fun hk => h.leftBehind ⟨hk.1, hkeeping⟩
  · exact .failed hstarting huncleared hfollows fun hk => h.leftBehind ⟨.inr hk, hkeeping⟩

/-- In a refresh the table is the applied map, which the rest of the refresh may rely on. -/
lemma Aligned.refreshing (hwork : s.work = .refreshing actions moved) :
    s.keeper ≠ .starting ∧ s.keeper ≠ .uncleared ∧ (s.leftBehind = false → s.table = s.applied) ∧
      ∀ actions, s.work ≠ .releasing actions := by
  obtain ⟨hstarting, huncleared, hfollows⟩ := h.cleared_of_work hwork Work.noConfusion
  rw [hwork]
  exact ⟨hstarting, huncleared, hfollows, fun _ => Work.noConfusion⟩

lemma Aligned.refreshed (hwork : s.work = .refreshing [] moved)
    (report : NetworkReport) (destinations : List IpPrefix) :
    ({ s with report := report }.refreshed destinations).Aligned := by
  obtain ⟨hstarting, huncleared, hfollows, hkeeping⟩ := h.refreshing hwork
  unfold KeeperState.refreshed
  split
  · rename_i hengaging
    refine .of_cleared Keeper.noConfusion Keeper.noConfusion hfollows fun _ => ?_
    exact h.leftBehind ⟨.inl hengaging, hkeeping⟩
  · exact .of_cleared hstarting huncleared hfollows fun hk => h.leftBehind ⟨hk.1, hkeeping⟩

/-- A removal of a release.  When it succeeds its destination is out of the table. -/
lemma Aligned.removal {action : RouteAction}
    (hwork : s.work = .releasing (action :: actions)) (ok : Bool) : Aligned { s with
      table := if ok then action.carryOut s.table else s.table
      work := .releasing actions
      leftBehind := s.leftBehind || !ok } := by
  obtain ⟨hstarting, huncleared, hresult, hmem⟩ := h.cleared_of_work hwork Work.noConfusion
  refine .of_cleared hstarting huncleared ⟨fun a ha => hresult a (List.mem_cons_of_mem _ ha), ?_⟩
    fun hk => absurd rfl (hk.2 actions)
  intro hleft d hd
  simp only [Bool.or_eq_false_iff, Bool.not_eq_false'] at hleft
  obtain ⟨hleft, rfl⟩ := hleft
  simp only [if_true, action.get?_carryOut, hresult action List.mem_cons_self] at hd
  split at hd
  · exact absurd rfl hd
  · rename_i hne
    exact (List.mem_cons.mp (hmem hleft d hd)).resolve_left hne

lemma Aligned.released (hwork : s.work = .releasing []) : Aligned { s with
      work := .nothing
      applied := .empty
      keeper := if s.keeper = .engaging then .refused else .dropped } := by
  obtain ⟨-, -, hfollows⟩ := h.cleared_of_work hwork Work.noConfusion
  have hempty : s.leftBehind = false → s.table = .empty := fun hleft =>
    OrderedMap.eq_empty fun d => by_contra fun hd => List.not_mem_nil (hfollows.2 hleft d hd)
  refine .of_cleared ?_ ?_ hempty ?_
  all_goals split
  all_goals simp [Keeping]

lemma Aligned.step (hstep : S.Stepped s e s') : s'.Aligned := by
  cases hstep with
  | cleared hkeeper =>
    obtain ⟨happlied, hleft⟩ := h.starting hkeeper
    refine .of_cleared Keeper.noConfusion Keeper.noConfusion ?_ fun _ => hleft
    rw [(h.fresh (.inl hkeeper)).1, happlied]
    exact fun _ => rfl
  | uncleared hkeeper =>
    exact ⟨fun _ hun => absurd rfl hun, fun _ => (h.starting hkeeper).2, Keeper.noConfusion,
      fun _ => h.fresh (.inl hkeeper)⟩
  | firstLook hwork hkeeper =>
    exact h.look hwork (by rw [hkeeper]; exact Keeper.noConfusion)
      (by rw [hkeeper]; exact Keeper.noConfusion) _ _ _
  | look hwork _ htask =>
    obtain ⟨hstarting, huncleared⟩ := h.cleared_of_task (by rw [htask]; exact Task.noConfusion)
    exact h.look hwork hstarting huncleared _ _ _
  | @act action _ _ hwork =>
    obtain ⟨hstarting, huncleared, hfollows, hkeeping⟩ := h.refreshing hwork
    refine .of_cleared hstarting huncleared (fun hleft => ?_) fun hk =>
      h.leftBehind ⟨hk.1, hkeeping⟩
    -- carried out on both maps
    show action.carryOut s.table = action.carryOut s.applied
    rw [hfollows hleft]
  | fail hwork =>
    obtain ⟨hstarting, huncleared, hfollows, hkeeping⟩ := h.refreshing hwork
    exact .failed hstarting huncleared hfollows fun hk => h.leftBehind ⟨.inr hk, hkeeping⟩
  | finish hwork => exact h.refreshed hwork _ _
  | tick htask =>
    obtain ⟨hstarting, huncleared⟩ := h.cleared_of_task (by rw [htask]; exact Task.noConfusion)
    exact .of_cleared hstarting huncleared (h.follows hstarting huncleared) h.leftBehind
  | abort hkeeper =>
    refine .of_cleared Keeper.noConfusion Keeper.noConfusion ?_ fun hkeeping => ?_
    · exact h.follows (by rw [hkeeper]; exact Keeper.noConfusion)
        (by rw [hkeeper]; exact Keeper.noConfusion)
    · exact h.leftBehind ⟨.inr (.inl hkeeper), hkeeping.2⟩
  | lock hkeeper hwork =>
    have hstarting : s.keeper ≠ .starting := by rw [hkeeper]; exact Keeper.noConfusion
    have huncleared : s.keeper ≠ .uncleared := by rw [hkeeper]; exact Keeper.noConfusion
    have hfollows := h.follows hstarting huncleared
    rw [hwork] at hfollows
    exact .of_cleared hstarting huncleared (follows_release hfollows) fun hkeeping =>
      absurd rfl (hkeeping.2 _)
  | removal ok hwork => exact h.removal hwork ok
  | released hwork => exact h.released hwork

end

/-! ### The task after the keeper is dropped -/

/-- The task is in a refresh. -/
def Refreshing (s : KeeperState) : Prop :=
  s.task = .refreshing ∧ ∃ actions moved, s.work = .refreshing actions moved

/-- Where the task and the holder of the lock can be, if the task is never aborted between its tick
and the lock. -/
def Quiet (s : KeeperState) : Prop :=
  match s.keeper with
  | .starting | .uncleared | .refused => s.task = .none ∧ s.work = .nothing
  | .engaging => s.task = .none
  | .held => s.Refreshing ∨ s.task ≠ .refreshing ∧ s.work = .nothing
  | .dropping => s.Refreshing ∨ s.task = .none ∧ ∀ actions moved, s.work ≠ .refreshing actions moved
  | .dropped => s.task = .none ∧ s.work = .nothing ∧ s.applied = .empty

/-- Who refreshes: `engage_with`, or the task. -/
lemma Quiet.of_refreshing (h : s.Quiet) (hwork : s.work = .refreshing actions moved) :
    s.keeper = .engaging ∧ s.task = .none ∨ s.keeper = .held ∧ s.task = .refreshing ∨
      s.keeper = .dropping ∧ s.task = .refreshing := by
  cases hkeeper : s.keeper <;> simp only [Quiet, hkeeper, hwork, Refreshing] at h
  case engaging => exact .inl ⟨rfl, h⟩
  case held => exact .inr (.inl ⟨rfl, (h.resolve_right fun hn => Work.noConfusion hn.2).1⟩)
  case dropping =>
    exact .inr (.inr ⟨rfl, (h.resolve_right fun hn => hn.2 actions moved rfl).1⟩)
  all_goals simp at h

/-- Who releases: `engage_with`, or `drop`, and then the task is at its end. -/
lemma Quiet.of_releasing (h : s.Quiet) (hwork : s.work = .releasing actions) :
    (s.keeper = .engaging ∨ s.keeper = .dropping) ∧ s.task = .none := by
  cases hkeeper : s.keeper <;> simp [Quiet, hkeeper, hwork, Refreshing] at h
  case engaging => exact ⟨.inl rfl, h⟩
  case dropping => exact ⟨.inr rfl, h⟩

lemma Quiet.of_task (h : s.Quiet) (hnone : s.task ≠ .none) (hrefreshing : s.task ≠ .refreshing) :
    s.keeper = .held ∧ s.work = .nothing := by
  cases hkeeper : s.keeper <;> simp [Quiet, hkeeper, hnone, hrefreshing, Refreshing] at h
  exact ⟨rfl, h⟩

lemma Quiet.step (h : s.Quiet) (hquiet : e = .abort → s.task ≠ .due) (hstep : S.Stepped s e s') :
    s'.Quiet := by
  cases hstep with
  | cleared hkeeper =>
    simp only [Quiet, hkeeper] at h
    exact h.1
  | uncleared hkeeper =>
    simp only [Quiet, hkeeper] at h
    exact h
  | @firstLook routes onLink hwork hkeeper =>
    simp only [Quiet, hkeeper] at h
    cases routes <;> cases onLink <;> simp [Setup.look, failed, Quiet, hkeeper, h]
  | @look routes onLink hwork _ htask =>
    obtain ⟨hheld, -⟩ := h.of_task (by simp [htask]) (by simp [htask])
    cases routes <;> cases onLink <;> simp [Setup.look, failed, Quiet, hheld, Refreshing]
  | act hwork =>
    rcases h.of_refreshing hwork with ⟨hkeeper, htask⟩ | ⟨hkeeper, htask⟩ | ⟨hkeeper, htask⟩
    all_goals simp [Quiet, hkeeper, htask, Refreshing]
  | fail hwork =>
    rcases h.of_refreshing hwork with ⟨hkeeper, htask⟩ | ⟨hkeeper, htask⟩ | ⟨hkeeper, htask⟩
    all_goals simp [failed, Quiet, hkeeper, htask]
  | finish hwork =>
    rcases h.of_refreshing hwork with ⟨hkeeper, htask⟩ | ⟨hkeeper, htask⟩ | ⟨hkeeper, htask⟩
    · by_cases hnil : S.destinations = [] <;> simp [KeeperState.refreshed, Quiet, hkeeper, hnil]
    all_goals simp [KeeperState.refreshed, Quiet, hkeeper]
  | tick htask =>
    obtain ⟨hheld, hwork⟩ := h.of_task (by simp [htask]) (by simp [htask])
    simp [Quiet, hheld, hwork]
  | abort hkeeper =>
    -- a task that waits is at its end, and one in a refresh ends after it
    simp only [Quiet, hkeeper] at h
    rcases h with ⟨htask, hwork⟩ | ⟨htask, hwork⟩
    · exact .inl ⟨by simp [htask], hwork⟩
    · refine .inr ⟨?_, by simp [hwork]⟩
      have hdue := hquiet rfl
      cases hcase : s.task <;> simp_all
  | lock hkeeper hwork =>
    simp only [Quiet, hkeeper, hwork, Refreshing] at h
    simp_all [Quiet, Refreshing]
  | removal ok hwork =>
    obtain ⟨hkeeper | hkeeper, htask⟩ := h.of_releasing hwork
    all_goals simp [Quiet, hkeeper, htask]
  | released hwork =>
    obtain ⟨hkeeper | hkeeper, htask⟩ := h.of_releasing hwork
    all_goals simp [Quiet, hkeeper, htask]

end KeeperState

/-! ### Whole runs -/

section Runs

variable {S : Setup} {s : KeeperState} {cond : KeeperState → KeeperEvent → Prop}

lemma aligned_of_reachable (h : S.system.Reachable cond s) : s.Aligned := by
  refine h.invariant ?_ fun s e s' _ hs _ hstep => hs.step (S.stepped hstep)
  exact ⟨fun hstarting => absurd rfl hstarting, fun _ => rfl, fun _ => ⟨rfl, rfl⟩,
    fun _ => ⟨rfl, rfl⟩⟩

/-- The task is not between its tick and the lock when `drop` aborts it. -/
def abortsWaiting (s : KeeperState) : KeeperEvent → Bool
  | .abort => s.task != .due
  | _ => true

lemma quiet_of_reachable (h : S.system.Reachable (fun s e => abortsWaiting s e = true) s) :
    s.Quiet := by
  refine h.invariant ⟨rfl, rfl⟩ fun s e s' _ hs hcond hstep => hs.step ?_ (S.stepped hstep)
  rintro rfl
  simpa [abortsWaiting] using hcond

end Runs

/-- **Routes follow the plan.**  The planned actions bring a map of routes to what is desired, never
through the tunnel, and then nothing is planned.  While the keeper keeps its routes, Ket's routes in
the system are the applied map after every event of every run, whichever of them fail.  If `drop`
never aborts the task between its tick and the lock, none is left once the keeper is dropped and its
removals have succeeded. -/
theorem routes_follow_plan (S : Setup) :
    (∀ (routes : List DefaultRoute) (onLink : List OnLinkNetwork) (destinations : List IpPrefix)
        (applied : RouteMap) (tunnelInterface : String), destinations.Nodup →
        (∀ d, applied.get? d ≠ none → d ∈ destinations) →
        let final := (plan routes onLink destinations applied tunnelInterface).foldl
          RouteAction.carryOut applied
        (∀ d ∈ destinations, Desired routes onLink tunnelInterface d (final.get? d)) ∧
          (∀ d ∉ destinations, final.get? d = none) ∧
          (∀ d route, final.get? d = some (.via route) → route.interface ≠ tunnelInterface) ∧
          plan routes onLink destinations final tunnelInterface = []) ∧
      (∀ s, S.system.Reachable (fun _ _ => True) s → s.Keeping → s.table = s.applied) ∧
      ∀ s, S.system.Reachable (fun s e => abortsWaiting s e = true) s →
        s.keeper = .dropped → s.leftBehind = false → s.table = .empty := by
  refine ⟨fun routes onLink destinations applied tunnelInterface hnodup hkeys => ?_,
    fun s hs hkeeping => ?_, fun s hs hdropped hleft => ?_⟩
  · intro final
    have hfinal : ∀ d, final.get? d =
        if d ∈ destinations then desired routes onLink tunnelInterface d else applied.get? d :=
      get?_foldl_plan hnodup applied fun _ _ => rfl
    have hin : ∀ d ∈ destinations, final.get? d = desired routes onLink tunnelInterface d :=
      fun d hd => by rw [hfinal, if_pos hd]
    have hout : ∀ d ∉ destinations, final.get? d = none := fun d hd => by
      rw [hfinal, if_neg hd]
      exact by_contra fun hne => hd (hkeys d hne)
    refine ⟨fun d hd => hin d hd ▸ desired_spec routes onLink tunnelInterface d, hout,
      fun d route hroute => ?_, plan_eq_nil hin⟩
    by_cases hd : d ∈ destinations
    · have hdesired := desired_spec routes onLink tunnelInterface d
      rw [← hin d hd, hroute] at hdesired
      exact hdesired.not_tunnel
    · rw [hout d hd] at hroute
      cases hroute
  · have haligned := aligned_of_reachable hs
    have hcleared : s.keeper ≠ .starting ∧ s.keeper ≠ .uncleared := by
      rcases hkeeping.1 with hk | hk | hk <;> rw [hk] <;>
        exact ⟨Keeper.noConfusion, Keeper.noConfusion⟩
    have hfollows := haligned.follows hcleared.1 hcleared.2
    have hleft := haligned.leftBehind hkeeping
    cases hwork : s.work with
    | releasing actions => exact absurd hwork (hkeeping.2 actions)
    | _ =>
      rw [hwork] at hfollows
      exact hfollows hleft
  · have hquiet := quiet_of_reachable hs
    simp only [KeeperState.Quiet, hdropped] at hquiet
    obtain ⟨-, hwork, happlied⟩ := hquiet
    have hfollows := (aligned_of_reachable hs).follows (by simp [hdropped]) (by simp [hdropped])
    rw [hwork] at hfollows
    exact (hfollows hleft).trans happlied

namespace Sample

/-- `203.0.113.5`. -/
def server : IpPrefix where
  address := ⟨.v4, 0xcb007105#32⟩
  length := 32
  length_le := by decide
  masked := by decide

def setup : Setup := ⟨[server], "ket0", .empty⟩

def wifi : DefaultRoute := ⟨.v4, "wlan0", 3, some ⟨.v4, 0xc0a80101#32⟩, 600⟩

def ethernet : DefaultRoute := ⟨.v4, "eth0", 2, some ⟨.v4, 0x0a000001#32⟩, 100⟩

/-- The first refresh installs a route over the Wi-Fi. -/
def engage : List KeeperEvent := [.clearStale true, .look (some [wifi]) (some []), .act true, .finish]

/-- The release of one route. -/
def drop : List KeeperEvent := [.abort, .lock, .removal true, .released]

end Sample

theorem routes_follow_plan_ethernet : Desired [Sample.wifi, Sample.ethernet] [] "ket0" Sample.server
        (((plan [Sample.wifi, Sample.ethernet] [] [Sample.server] .empty "ket0").foldl
          RouteAction.carryOut .empty).get? Sample.server) ∧
      ∃ s, Sample.setup.system.Reachable (fun s e => abortsWaiting s e = true) s ∧
        s.keeper = .dropped ∧ s.leftBehind = false ∧ s.table = .empty := by
  refine ⟨(((routes_follow_plan Sample.setup).1 _ _ _ _ _ (by simp) (by simp)).1 _ (by simp)), ?_⟩
  obtain ⟨s, hs, hdropped, hleft⟩ := System.exists_reachable_of_run Sample.setup.system
    (fun s e => abortsWaiting s e = true)
    (fun s => s.keeper = .dropped ∧ s.leftBehind = false)
    (Sample.engage ++ [.tick, .look (some [Sample.ethernet]) (some []), .act false, .tick,
      .look (some [Sample.ethernet]) (some []), .act true, .finish] ++ Sample.drop)
    (by decide)
  exact ⟨s, hs, hdropped, hleft, (routes_follow_plan _).2.2 s hs hdropped hleft⟩

/-- The task has its tick when `drop` aborts it.  It takes the lock after the release, and its
refresh installs the routes again. -/
theorem refresh_after_release :
    ∃ s, Sample.setup.system.Reachable (fun _ _ => True) s ∧ s.keeper = .dropped ∧
      s.leftBehind = false ∧ s.task = .none ∧ s.work = .nothing ∧
      s.table.get? Sample.server = some (.via Sample.wifi) :=
  System.exists_reachable_of_run Sample.setup.system (fun _ _ => True)
    (fun s => s.keeper = .dropped ∧ s.leftBehind = false ∧ s.task = .none ∧ s.work = .nothing ∧
      s.table.get? Sample.server = some (.via Sample.wifi))
    (Sample.engage ++ [.tick] ++ Sample.drop ++ [.look (some [Sample.wifi]) (some []), .act true,
      .finish])
    (by decide)

end Ket.Client.Routes
