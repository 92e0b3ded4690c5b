import Ket.Lib.OrderedMap
import Ket.Tunnel.Containment
import Mathlib.Data.List.MinMax

/-!
# Which way each destination leaves the device (`ket-client-core/src/route_keeper/plan.rs`)

Every destination that is kept outside the tunnel has a route through the current physical default
route, is made unreachable where there is none, and is left alone where the device is attached to
its network.  `plan` are the actions that bring the applied routes there.
-/

namespace Ket.Client.Routes

open Ket.Lib List
open Ket.Tunnel (Family IpAddr IpPrefix)

/-- A default route in the system table. -/
structure DefaultRoute where
  family : Family
  interface : String
  interfaceIndex : UInt32
  /-- `none` for an on-link route, such as a point-to-point modem. -/
  gateway : Option IpAddr
  metric : UInt32
deriving DecidableEq

/-- A network the device is directly attached to, without a gateway. -/
structure OnLinkNetwork where
  network : IpPrefix
  interface : String

/-- Where one destination is sent. -/
inductive ServerPath where
  | via (route : DefaultRoute)
  | unreachable
deriving DecidableEq

/-- `BTreeMap<IpPrefix, ServerPath>`. -/
abbrev RouteMap := OrderedMap IpPrefix ServerPath

inductive RouteAction where
  /-- Installs `path` for `destination`, taking the place of `replacing`. -/
  | install (destination : IpPrefix) (path : ServerPath) (replacing : Option ServerPath)
  | remove (destination : IpPrefix) (path : ServerPath)
deriving DecidableEq

/-- What the system compares default routes by. -/
def DefaultRoute.rank (route : DefaultRoute) : ℕ ×ₗ ℕ :=
  toLex (route.metric.toNat, route.interfaceIndex.toNat)

/-- A default route of the family outside the tunnel. -/
def DefaultRoute.isPhysical (tunnelInterface : String) (family : Family) (route : DefaultRoute) :
    Bool :=
  decide (route.family = family) && decide (route.interface ≠ tunnelInterface)

variable (routes : List DefaultRoute)

/-- `best_default`.  Of several with the lowest metric and index the first is taken. -/
def bestDefault (family : Family) (tunnelInterface : String) :
    Option DefaultRoute :=
  (routes.filter (DefaultRoute.isPhysical tunnelInterface family)).argmin DefaultRoute.rank

/-- The device is attached to a network that holds the destination. -/
def attached (onLink : List OnLinkNetwork) (tunnelInterface : String) (destination : IpPrefix) :
    Bool :=
  onLink.any fun n => decide (n.interface ≠ tunnelInterface) && decide (0 < n.network.length) &&
    n.network.contains destination

def desiredPath (tunnelInterface : String) (destination : IpPrefix) :
    ServerPath :=
  ((bestDefault routes destination.address.family tunnelInterface).map ServerPath.via).getD
    .unreachable

/-- What is planned for one destination. -/
def planFor (onLink : List OnLinkNetwork) (applied : RouteMap)
    (tunnelInterface : String) (destination : IpPrefix) : Option RouteAction :=
  let current := applied.get? destination
  if attached onLink tunnelInterface destination then
    current.map fun path => .remove destination path
  else
    let desired := desiredPath routes tunnelInterface destination
    if current ≠ some desired then some (.install destination desired current) else none

/-- `plan`. -/
def plan (onLink : List OnLinkNetwork) (destinations : List IpPrefix)
    (applied : RouteMap) (tunnelInterface : String) : List RouteAction :=
  destinations.filterMap (planFor routes onLink applied tunnelInterface)

/-- `release`: removes every route Ket installed. -/
def release (applied : RouteMap) : List RouteAction :=
  applied.entries.map fun e => .remove e.1 e.2

namespace RouteAction

def destination : RouteAction → IpPrefix
  | install destination _ _ => destination
  | remove destination _ => destination

/-- The change of a map of routes: an installed route replaces the one of its destination, and a
removed one is deleted. -/
def carryOut (routes : RouteMap) : RouteAction → RouteMap
  | install destination path _ => routes.insert destination path
  | remove destination _ => routes.erase destination

/-- The path of the destination after the action. -/
def result : RouteAction → Option ServerPath
  | install _ path _ => some path
  | remove _ _ => none

lemma get?_carryOut (action : RouteAction) (routes : RouteMap) (d : IpPrefix) :
    (action.carryOut routes).get? d =
      if d = action.destination then action.result else routes.get? d := by
  cases action with
  | install destination path replacing => exact OrderedMap.get?_insert routes
  | remove destination path => exact OrderedMap.get?_erase routes

end RouteAction

/-! ### What is desired -/

/-- The device is attached to the destination: a network outside the tunnel, other than the whole
address space, holds all of its addresses. -/
def Attached (onLink : List OnLinkNetwork) (tunnelInterface : String) (destination : IpPrefix) :
    Prop :=
  ∃ n ∈ onLink, n.interface ≠ tunnelInterface ∧ 0 < n.network.length ∧
    ∀ a, destination.Holds a → n.network.Holds a

/-- The default routes that may carry a destination. -/
def Physical (tunnelInterface : String) (destination : IpPrefix)
    (route : DefaultRoute) : Prop :=
  route ∈ routes ∧ route.family = destination.address.family ∧ route.interface ≠ tunnelInterface

/-- The path that a destination should have. -/
inductive Desired (routes : List DefaultRoute) (onLink : List OnLinkNetwork)
    (tunnelInterface : String) (destination : IpPrefix) : Option ServerPath → Prop where
  | attached (h : Attached onLink tunnelInterface destination) :
      Desired routes onLink tunnelInterface destination none
  | via {route : DefaultRoute} (h : ¬ Attached onLink tunnelInterface destination)
      (physical : Physical routes tunnelInterface destination route)
      (least : ∀ r, Physical routes tunnelInterface destination r → route.rank ≤ r.rank) :
      Desired routes onLink tunnelInterface destination (some (.via route))
  | unreachable (h : ¬ Attached onLink tunnelInterface destination)
      (missing : ∀ r, ¬ Physical routes tunnelInterface destination r) :
      Desired routes onLink tunnelInterface destination (some .unreachable)

section Desired

variable {routes : List DefaultRoute} {onLink : List OnLinkNetwork} {tunnelInterface : String}
  {destination : IpPrefix}

/-- The path that the plan gives a destination. -/
def desired (routes : List DefaultRoute) (onLink : List OnLinkNetwork) (tunnelInterface : String)
    (destination : IpPrefix) : Option ServerPath :=
  if attached onLink tunnelInterface destination then none
  else some (desiredPath routes tunnelInterface destination)

lemma attached_iff : attached onLink tunnelInterface destination = true ↔
      Attached onLink tunnelInterface destination := by
  simp only [attached, any_eq_true, Bool.and_eq_true, decide_eq_true_eq,
    IpPrefix.contains_iff, Attached, and_assoc]

lemma mem_filter_isPhysical {route : DefaultRoute} :
    route ∈ routes.filter (DefaultRoute.isPhysical tunnelInterface destination.address.family) ↔
      Physical routes tunnelInterface destination route := by
  simp only [List.mem_filter, DefaultRoute.isPhysical, Bool.and_eq_true, decide_eq_true_eq,
    Physical]

lemma desired_spec (routes : List DefaultRoute) (onLink : List OnLinkNetwork)
    (tunnelInterface : String) (destination : IpPrefix) :
    Desired routes onLink tunnelInterface destination
      (desired routes onLink tunnelInterface destination) := by
  unfold desired
  split
  · rename_i hattached
    exact .attached (attached_iff.mp hattached)
  · rename_i hattached
    rw [attached_iff] at hattached
    unfold desiredPath
    cases hbest : bestDefault routes destination.address.family tunnelInterface with
    | none =>
      refine .unreachable hattached fun r hr => ?_
      have hnil := argmin_eq_none.mp hbest
      rw [← mem_filter_isPhysical, hnil] at hr
      cases hr
    | some route =>
      refine .via hattached (mem_filter_isPhysical.mp (argmin_mem hbest)) fun r hr => ?_
      exact le_of_mem_argmin (mem_filter_isPhysical.mpr hr) hbest

/-- No route goes through the tunnel. -/
lemma Desired.not_tunnel {route : DefaultRoute}
    (h : Desired routes onLink tunnelInterface destination (some (.via route))) :
    route.interface ≠ tunnelInterface := by
  cases h with
  | via _ physical _ => exact physical.2.2

end Desired

/-! ### The plan reaches what is desired -/

section Plan

variable {routes : List DefaultRoute} {onLink : List OnLinkNetwork} {tunnelInterface : String}
  {applied : RouteMap} {d : IpPrefix}

/-- Nothing is planned for a destination only where it has the desired path. -/
lemma planFor_eq_none : planFor routes onLink applied tunnelInterface d = none ↔
      applied.get? d = desired routes onLink tunnelInterface d := by
  unfold planFor desired
  dsimp only
  split
  · exact Option.map_eq_none_iff
  · split
    · rename_i hne
      simp [hne]
    · rename_i heq
      simpa using heq

/-- An action gives its destination the desired path. -/
lemma planFor_eq_some {action : RouteAction}
    (h : planFor routes onLink applied tunnelInterface d = some action) :
    action.destination = d ∧ action.result = desired routes onLink tunnelInterface d := by
  unfold planFor at h
  unfold desired
  dsimp only at h
  split at h
  · rename_i hattached
    obtain ⟨path, -, rfl⟩ := Option.map_eq_some_iff.mp h
    rw [if_pos hattached]
    exact ⟨rfl, rfl⟩
  · rename_i hattached
    rw [if_neg hattached]
    split at h
    · cases h
      exact ⟨rfl, rfl⟩
    · cases h

/-- The actions one after another, on a map that has the planned destinations as they were. -/
lemma get?_foldl_plan {destinations : List IpPrefix} (hnodup : destinations.Nodup) (m : RouteMap)
    (hm : ∀ d ∈ destinations, m.get? d = applied.get? d) (d : IpPrefix) :
    ((plan routes onLink destinations applied tunnelInterface).foldl
        RouteAction.carryOut m).get? d =
      if d ∈ destinations then desired routes onLink tunnelInterface d else m.get? d := by
  induction destinations generalizing m with
  | nil => simp [plan]
  | cons first rest ih =>
    obtain ⟨hfirst, hrest⟩ := nodup_cons.mp hnodup
    have hm' : ∀ d ∈ rest, m.get? d = applied.get? d := fun d hd =>
      hm d (mem_cons_of_mem _ hd)
    unfold plan at ih ⊢
    cases hplan : planFor routes onLink applied tunnelInterface first with
    | none =>
      rw [filterMap_cons_none hplan, ih hrest m hm']
      have hsame : m.get? first = desired routes onLink tunnelInterface first :=
        (hm first mem_cons_self).trans (planFor_eq_none.mp hplan)
      by_cases hd : d = first
      · rw [hd, if_neg hfirst, if_pos mem_cons_self, hsame]
      · simp only [mem_cons, hd, false_or]
    | some action =>
      obtain ⟨hdestination, hresult⟩ := planFor_eq_some hplan
      rw [filterMap_cons_some hplan, foldl_cons, ih hrest]
      · rw [action.get?_carryOut, hdestination, hresult]
        by_cases hd : d = first
        · rw [hd, if_neg hfirst, if_pos rfl, if_pos mem_cons_self]
        · simp only [mem_cons, hd, false_or, if_false]
      · intro d hd
        have hne : d ≠ action.destination := by
          rintro rfl
          exact hfirst (hdestination ▸ hd)
        rw [action.get?_carryOut, if_neg hne, hm' d hd]

/-- Where every destination has the desired path nothing is planned. -/
lemma plan_eq_nil {destinations : List IpPrefix}
    (h : ∀ d ∈ destinations, applied.get? d = desired routes onLink tunnelInterface d) :
    plan routes onLink destinations applied tunnelInterface = [] := by
  refine eq_nil_iff_forall_not_mem.mpr fun action haction => ?_
  obtain ⟨d, hd, hplan⟩ := mem_filterMap.mp haction
  rw [planFor_eq_none.mpr (h d hd)] at hplan
  cases hplan

end Plan

end Ket.Client.Routes
