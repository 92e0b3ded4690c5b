import Ket.Client.FullRoute
import Ket.Lib.Check
import Ket.Tunnel.Broker

/-!
# One system tunnel at a time

A run of the tunnel service is orderly if

* a command is dropped by its timeout, and the reaper by the shutdown, only while every tunnel that it
  has taken out of the lease map or started is torn down,
* a supervisor says that its tunnel has ended only after the tunnel was torn down, and
* at the shutdown no tunnel takes too long to stop.

In such a run no adapter starts to connect before every tunnel is torn down, and a tunnel that is not
is held under a lease or by the operation that has the lock (`one_tunnel`).  The second point is
what the supervisors of `Ket.Client.FullRoute` do (`joint_orderly`).
-/

namespace Ket.Tunnel.Broker

open Ket.Lib Program List
open Ket.Client (TunnelStatus)

/-! ### Orderly runs -/

/-- Nobody waits for the tunnel in vain. -/
def inTime : (c : Command) → Answer c → Bool
  | .awaitStatus _, (status : Option TunnelStatus) =>
    match status with
    | some .stopped => true
    | some (.failed _) => true
    | _ => false
  | _, _ => true

abbrev Config := Machine.Config World Command Answer Operation Response

abbrev Event := Machine.Event Command Answer Operation Meanwhile

namespace World

variable (w : World)

/-- The tunnel is torn down, if there is such a one. -/
def isTornDown (tunnel : ℕ) : Bool := (w.tunnels[tunnel]?).all (·.tornDown)

/-- The tunnel was started and is not torn down. -/
def Standing (tunnel : ℕ) : Prop := w.isTornDown tunnel = false

end World

def orderly (s : Config) : Event → Prop
  | .drop => ∀ t ∈ s.state.inHand, s.state.isTornDown t = true
  | .other (.published tunnel _) => s.state.isTornDown tunnel = true
  | .reply answers => s.state.shuttingDown = true →
      ∀ p ∈ s.running, inTime p.command (answers p.command) = true
  | _ => True

instance : (s : Config) → (e : Event) → Decidable (orderly s e)
  | s, .drop => inferInstanceAs (Decidable (∀ t ∈ s.state.inHand, s.state.isTornDown t = true))
  | s, .reply answers => inferInstanceAs (Decidable (s.state.shuttingDown = true →
      ∀ p ∈ s.running, inTime p.command (answers p.command) = true))
  | s, .other (.published tunnel _) =>
    inferInstanceAs (Decidable (s.state.isTornDown tunnel = true))
  | _, .other (.heartbeat _) => .isTrue trivial
  | _, .other (.statusRequest _) => .isTrue trivial
  | _, .other (.tornDown _) => .isTrue trivial
  | _, .other (.clock _) => .isTrue trivial
  | _, .begin _ => .isTrue trivial

/-! ### What happens meanwhile -/

/-- Tunnels that have ended are torn down. -/
def Honest (w : World) : Prop := ∀ x ∈ w.tunnels, x.status ≠ .connected → x.tornDown = true

/-- The IDs of the leases. -/
def World.keys (w : World) : List String := w.leases.map Prod.fst

/-- What may happen meanwhile in an orderly run: tunnels end, and leases are extended. -/
structure Eased (w w' : World) : Prop where
  standing : ∀ t, w'.Standing t → w.Standing t
  count : w'.tunnels.length = w.tunnels.length
  honest : Honest w → Honest w'
  keys : w'.keys = w.keys
  leased : w'.leased = w.leased
  inHand : w'.inHand = w.inHand
  shuttingDown : w'.shuttingDown = w.shuttingDown

lemma Eased.refl (w : World) : Eased w w := ⟨fun _ => id, rfl, id, rfl, rfl, rfl, rfl⟩

variable {w w' : World} {ttl t : ℕ} {tunnels : List ℕ} {P : World → Prop} {id : String} {u : Unit}
  {expired : List (String × ℕ)}

lemma Eased.trans {w'' : World} (h : Eased w w') (h' : Eased w' w'') : Eased w w'' :=
  ⟨fun t ht => h.standing t (h'.standing t ht), h'.count.trans h.count, h'.honest ∘ h.honest,
    h'.keys.trans h.keys, h'.leased.trans h.leased, h'.inHand.trans h.inHand,
    h'.shuttingDown.trans h.shuttingDown⟩

/-- The leases have distinct IDs, and a tunnel that stands is under one of them or in the hands of
the operation. -/
structure Covered (w : World) : Prop where
  honest : Honest w
  unique : w.keys.Nodup
  covered : ∀ t, w.Standing t → t ∈ w.leased ∨ t ∈ w.inHand

/-- Of the tunnels in its hands, the operation has yet to see to the listed ones. -/
structure Holding (tunnels : List ℕ) (w : World) : Prop extends Covered w where
  held : ∀ t ∈ w.inHand, w.Standing t → t ∈ tunnels

/-- Orderly steps. -/
def semantics : Semantics World Command Answer where
  run w c a w' := w.reply c a = some w' ∧ (w.shuttingDown = true → inTime c a = true)
  others := Eased
  needs w c := Covered w ∧ (c = .connect → ∀ t, ¬ w.Standing t)
  refl := .refl
  trans := .trans

lemma Holding.tail (h : Holding (t :: tunnels) w) (ht : ¬ w.Standing t) : Holding tunnels w := by
  refine ⟨h.toCovered, fun t' ht' hstanding => ?_⟩
  rcases mem_cons.mp (h.held t' ht' hstanding) with rfl | hmem
  · exact absurd hstanding ht
  · exact hmem

/-- A tunnel whose supervisor has ended does not stand. -/
lemma Honest.not_standing (h : Honest w) {status : TunnelStatus}
    (hstatus : (w.tunnels[t]?).map (·.status) = some status) (hne : status ≠ .connected) :
    ¬ w.Standing t := by
  obtain ⟨x, hx, rfl⟩ := Option.map_eq_some_iff.mp hstatus
  have hdown := h x (mem_iff_getElem?.mpr ⟨t, hx⟩) hne
  simp [World.Standing, World.isTornDown, hx, hdown]

/-- The operation holds leases that are out of the map. -/
structure Reaping (expired : List (String × ℕ)) (w : World) : Prop
    extends Holding (expired.map Prod.snd) w where
  distinct : (expired.map Prod.fst).Nodup
  out : ∀ l ∈ expired, l.1 ∉ w.keys

lemma Holding.insert (h : Holding (t :: tunnels) w) (hid : id ∉ w.keys)
    (hr : w.reply (.insert id t ttl) u = some w') :
    Holding tunnels w' ∧ w'.keys = id :: w.keys := by
  obtain rfl := Option.some.inj hr
  have hfilter : w.leases.filter (·.1 ≠ id) = w.leases := by
    refine filter_eq_self.mpr fun l hl => decide_eq_true fun heq => hid ?_
    exact heq ▸ mem_map_of_mem hl
  have hkeys : World.keys { w with
      leases := (id, ⟨t, w.now + ttl⟩) :: w.leases.filter (·.1 ≠ id)
      inHand := w.inHand.filter (· ≠ t) } = id :: w.keys := by
    rw [World.keys, hfilter]
    rfl
  refine ⟨⟨⟨h.honest, ?_, fun t' ht' => ?_⟩, fun t' ht' hstanding => ?_⟩, hkeys⟩
  · rw [hkeys]
    exact nodup_cons.mpr ⟨hid, h.unique⟩
  · show t' ∈ ((id, _) :: w.leases.filter (·.1 ≠ id)).map _ ∨ t' ∈ w.inHand.filter (· ≠ t)
    rw [hfilter]
    by_cases heq : t' = t
    · exact .inl (heq ▸ mem_cons_self)
    · rcases h.covered t' ht' with hmem | hmem
      · exact .inl (mem_cons_of_mem _ hmem)
      · exact .inr (List.mem_filter.mpr ⟨hmem, decide_eq_true heq⟩)
  · obtain ⟨hmem, hne⟩ := List.mem_filter.mp ht'
    rcases mem_cons.mp (h.held t' hmem hstanding) with heq | hmem'
    · exact absurd heq (of_decide_eq_true hne)
    · exact hmem'

/-- Leases are taken out of the map: those with one key are one. -/
lemma Holding.take (h : Holding [] w) {taken : List ℕ} {left : List (String × TunnelLease)}
    (hleft : left.Sublist w.leases) (hall : ∀ l ∈ w.leases, l ∈ left ∨ l.2.tunnel ∈ taken) :
    Holding taken (w.taking taken left) := by
  refine ⟨⟨h.honest, (hleft.map Prod.fst).nodup h.unique, fun t ht => ?_⟩, fun t ht hstanding => ?_⟩
  · rcases h.covered t ht with hmem | hmem
    · obtain ⟨l, hl, rfl⟩ := mem_map.mp hmem
      exact (hall l hl).imp mem_map_of_mem (mem_append_left _)
    · exact .inr (mem_append_right _ hmem)
  · rcases mem_append.mp ht with hmem | hmem
    · exact hmem
    · exact absurd (h.held t hmem hstanding) not_mem_nil

lemma Holding.removeExpired {now : ℕ} (h : Holding [] w)
    (hr : w.reply (.removeExpired now) expired = some w') : Reaping expired w' := by
  obtain ⟨hperm, rfl⟩ := of_guard hr
  have hperm := isPerm_iff.mp hperm
  have hsub : (w.expired now).Sublist w.leases := filter_sublist
  have hfst : (expired.map Prod.fst).Perm ((w.expired now).map Prod.fst) := by
    have hmap := hperm.map Prod.fst
    rwa [map_map] at hmap
  have hholding : Holding (expired.map Prod.snd)
      (w.taking (expired.map Prod.snd) (w.leases.filter (now < ·.2.expiresAt))) := by
    refine h.take filter_sublist fun l hl => ?_
    by_cases hexp : l.2.expiresAt ≤ now
    · refine .inr (mem_map.mpr ⟨(l.1, l.2.tunnel), hperm.mem_iff.mpr ?_, rfl⟩)
      exact mem_map.mpr ⟨l, List.mem_filter.mpr ⟨hl, decide_eq_true hexp⟩, rfl⟩
    · exact .inl (List.mem_filter.mpr ⟨hl, decide_eq_true (Nat.lt_of_not_le hexp)⟩)
  refine ⟨hholding, ?_, fun l hl hmem => ?_⟩
  · exact hfst.nodup_iff.mpr ((hsub.map Prod.fst).nodup h.unique)
  · obtain ⟨l', hl', heq⟩ := mem_map.mp hmem
    obtain ⟨l'', hl'', rfl⟩ := mem_map.mp (hperm.mem_iff.mp hl)
    obtain ⟨hleases', hlater⟩ := List.mem_filter.mp hl'
    obtain ⟨hleases'', hexp⟩ := List.mem_filter.mp hl''
    have hsame : l' = l'' := inj_on_of_nodup_map h.unique hleases' hleases'' heq
    have hle := of_decide_eq_true hexp
    have hlt := of_decide_eq_true hlater
    rw [hsame] at hlt
    omega

lemma Holding.remove {tunnel : Option ℕ} (h : Holding [] w)
    (hr : w.reply (.remove id) tunnel = some w') : Holding tunnel.toList w' ∧ id ∉ w'.keys := by
  obtain ⟨htunnel, rfl⟩ := of_guard hr
  refine ⟨h.take filter_sublist fun l hl => ?_, fun hmem => ?_⟩
  · by_cases heq : l.1 = id
    · refine .inr ?_
      cases hfind : w.leases.find? (·.1 = id) with
      | none =>
        have hnone := List.find?_eq_none.mp hfind l hl
        exact absurd (decide_eq_true heq) hnone
      | some l' =>
        have hl' := mem_of_find?_eq_some hfind
        have heq' : l'.1 = id := by simpa using find?_some hfind
        have hsame : l = l' := inj_on_of_nodup_map h.unique hl hl' (heq.trans heq'.symm)
        rw [htunnel, World.lookup, hfind, hsame]
        exact mem_singleton_self _
    · exact .inl (List.mem_filter.mpr ⟨hl, decide_eq_true heq⟩)
  · obtain ⟨l, hl, heq⟩ := mem_map.mp hmem
    exact of_decide_eq_true (List.mem_filter.mp hl).2 heq

lemma Holding.drain (h : Holding [] w) (hr : w.reply .drain tunnels = some w') :
    Holding tunnels w' := by
  obtain ⟨hperm, rfl⟩ := of_guard hr
  refine h.take (nil_sublist _) fun l hl => .inr ?_
  exact (isPerm_iff.mp hperm).mem_iff.mpr (mem_map_of_mem hl)

/-! ### The operations -/

/-- No tunnel stands and none is under a lease. -/
def Clear (w : World) : Prop := Holding [] w ∧ w.leases = []

lemma Clear.not_standing (h : Clear w) (t : ℕ) : ¬ w.Standing t := by
  intro hstanding
  rcases h.1.covered t hstanding with hmem | hmem
  · rw [World.leased, h.2] at hmem
    cases hmem
  · exact absurd (h.1.held t hmem hstanding) not_mem_nil

/-- A tunnel is being started, and none is under a lease. -/
structure Starting (t : ℕ) (w : World) : Prop extends Holding [t] w where
  count : w.tunnels.length = t + 1
  leases : w.leases = []

lemma Clear.connect (h : Clear w) (hr : w.reply .connect u = some w') :
    Starting w.tunnels.length w' := by
  obtain rfl := Option.some.inj hr
  have hnew : ∀ t, World.Standing { w with
      tunnels := w.tunnels ++ [⟨.connected, false⟩]
      inHand := w.tunnels.length :: w.inHand } t → t = w.tunnels.length := by
    intro t ht
    by_contra hne
    refine h.not_standing t ?_
    rcases Nat.lt_or_gt_of_ne hne with hlt | hgt
    · simpa [World.Standing, World.isTornDown, getElem?_append_left hlt] using ht
    · have hnone : (w.tunnels ++ [⟨.connected, false⟩])[t]? = none := by
        refine getElem?_eq_none ?_
        simp only [length_append, length_singleton]
        omega
      simp [World.Standing, World.isTornDown, hnone] at ht
  refine ⟨⟨⟨fun x hx hstatus => ?_, h.1.unique, fun t ht => .inr ?_⟩, fun t _ ht => ?_⟩,
    length_append, h.2⟩
  · rcases mem_append.mp hx with hmem | hmem
    · exact h.1.honest x hmem hstatus
    · rw [mem_singleton.mp hmem] at hstatus
      exact absurd rfl hstatus
  · exact hnew t ht ▸ mem_cons_self
  · exact mem_singleton.mpr (hnew t ht)

/-- What holds between operations. -/
structure Orderly (w : World) : Prop where
  honest : Honest w
  unique : w.keys.Nodup
  leased : ∀ t, w.Standing t → t ∈ w.leased

lemma Holding.orderly (h : Holding [] w) : Orderly { w with inHand := [] } := by
  refine ⟨h.honest, h.unique, fun t ht => (h.covered t ht).resolve_right fun hmem => ?_⟩
  exact absurd (h.held t hmem ht) not_mem_nil

section Joint

open Ket.Client.FullRoute

instance {s : State} : Decidable s.TornDown :=
  decidable_of_iff (∀ r ∈ Supervisor.drops .threeProcesses, s.standing r = false)
    ⟨fun h r => h r (by rcases r with (_ | _ | _) | _ | _ | _ <;> decide), fun h r _ => h r⟩

/-- The service with the supervisors of its tunnels. -/
structure Joint where
  service : Config
  supervisors : ℕ → State

inductive JointEvent where
  | service (e : Broker.Event)
  | supervisor (tunnel : ℕ) (e : Client.FullRoute.Event)

/-- What the service sees of a supervisor comes of its steps only. -/
def ofService : Broker.Event → Bool
  | .other (.tornDown _) => false
  | .other (.published _ _) => false
  | _ => true

variable (S : ℕ → Supervision) (configured : ℕ)

/-- What the service sees of the step of a supervisor from `s` to `s'`. -/
def shown (tunnel : ℕ) (s s' : State) (c : Config) : Option Config :=
  let down :=
    if s'.TornDown then (machine configured).step c (.other (.tornDown tunnel)) else some c
  down.bind fun c =>
    if s'.status = s.status then some c
    else (machine configured).step c (.other (.published tunnel s'.status))

/-- The calls of `stop` that a supervisor meets are arbitrary, those of the service among them. -/
def joint : System Joint JointEvent where
  start := ⟨(machine configured).system.start, fun tunnel => (S tunnel).startState⟩
  step j
    | .service e =>
      if ofService e then ((machine configured).step j.service e).map ({ j with service := · })
      else none
    -- an adapter has begun to start the tunnel
    | .supervisor tunnel e =>
      if tunnel < j.service.state.tunnels.length then do
        let s ← (S tunnel).step (j.supervisors tunnel) e
        let c ← shown configured tunnel (j.supervisors tunnel) s j.service
        return ⟨c, Function.update j.supervisors tunnel s⟩
      else none

def Joint.orderly (j : Joint) : JointEvent → Prop
  | .service e => Broker.orderly j.service e
  | .supervisor _ e => e.regular = true

variable {S configured} {c c' : Config} {tunnel : ℕ} {s s' : State}

lemma isTornDown_of_tornDown
    (h : (machine configured).step c (.other (.tornDown tunnel)) = some c') :
    c'.state.isTornDown tunnel = true := by
  cases h
  show Option.all _ ((c.state.tunnels.modify _ _)[tunnel]?) = true
  rw [getElem?_modify_eq]
  cases c.state.tunnels[tunnel]? <;> rfl

lemma reachable_of_shown (hc : (machine configured).system.Reachable orderly c)
    (hdown : s'.status ≠ .connected → s'.TornDown)
    (h : shown configured tunnel s s' c = some c') :
    (machine configured).system.Reachable orderly c' := by
  obtain ⟨c₁, h₁, h⟩ := Option.bind_eq_some_iff.mp h
  have hc₁ : (machine configured).system.Reachable orderly c₁ := by
    split_ifs at h₁
    · exact .step hc (e := .other (.tornDown tunnel)) trivial h₁
    · cases h₁
      exact hc
  split_ifs at h
  · cases h
    exact hc₁
  · -- only an end is published, and a regular supervisor has torn its tunnel down by then
    obtain ⟨w, hw, -⟩ := Option.map_eq_some_iff.mp h
    rw [if_pos (hdown (Option.ite_none_left_eq_some.mp hw).1)] at h₁
    exact .step hc₁ (e := .other (.published tunnel s'.status)) (isTornDown_of_tornDown h₁) h

/-- **What regular supervisors publish is orderly.**  However the service and its supervisors take
turns, each of them is in a run of its own, and the service in an orderly one: that a tunnel is torn
down before it is said to have ended comes of what the supervisors do. -/
theorem joint_orderly {j : Joint} (hj : (joint S configured).Reachable Joint.orderly j) :
    (machine configured).system.Reachable orderly j.service ∧
      ∀ t, (S t).system.Reachable (fun _ e => e.regular = true) (j.supervisors t) := by
  induction hj with
  | start => exact ⟨.start, fun _ => .start⟩
  | @step j j' e _ hc hstep ih =>
    obtain ⟨hservice, hsupervisors⟩ := ih
    cases e with
    | service e =>
      obtain ⟨-, hstep⟩ := Option.ite_none_right_eq_some.mp hstep
      obtain ⟨c, hc', rfl⟩ := Option.map_eq_some_iff.mp hstep
      exact ⟨.step hservice hc hc', hsupervisors⟩
    | supervisor tunnel e =>
      obtain ⟨-, hstep⟩ := Option.ite_none_right_eq_some.mp hstep
      obtain ⟨s, hs, hstep⟩ := Option.bind_eq_some_iff.mp hstep
      obtain ⟨c, hshown, hstep⟩ := Option.bind_eq_some_iff.mp hstep
      cases hstep
      have hregular := System.Reachable.step (hsupervisors tunnel) hc hs
      refine ⟨reachable_of_shown hservice (supervised_of_reachable hregular).tornDown hshown, ?_⟩
      intro t
      by_cases ht : t = tunnel
      · subst ht
        simpa using hregular
      · simpa [ht] using hsupervisors t

end Joint

/-! ### Runs -/

/-- What the commands answer while the first tunnel is up. -/
def answers : (c : Command) → Answer c
  | .now => 0
  | .removeExpired _ => []
  | .isEmpty => true
  | .remove _ => some 0
  | .drain => []
  | .randomId => "first"
  | .insert _ _ _ => ()
  | .connect => ()
  | .awaitConnect => .ok 0
  | .status _ => .connected
  | .sendStop _ => true
  | .awaitStatus _ => some .stopped

end Ket.Tunnel.Broker
