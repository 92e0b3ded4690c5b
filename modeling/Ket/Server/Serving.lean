import Ket.Server.ControlPlane

/-!
# The server while it serves

The control plane from a start with nothing, together with what happened so far: the sessions that
were created, those that were provisioned completely, what moved through the engines and what the
meter has read and charged.  Session IDs are generated at random; `Fresh` says that none is
generated twice.

`Lineage` is what this gives: every session that is recorded, waits for its provision or its kick,
or has something at an engine was created once, with one resource slot; so no engine holds a
session twice.  `Plane.Serves` says what a step of such a server can change.
-/

namespace Ket.Server

open Ket.Core Ket.Lib Function List

/-- What has happened in a run. -/
structure History where
  /-- The sessions that were created. -/
  issued : List SessionAllocation
  /-- The sessions that all controls have provisioned. -/
  completed : List String
  /-- What moved through an engine for a session. -/
  moved : Control → String → ℕ
  /-- The counters that the meter has read. -/
  read : List MeterKey
  /-- What was added to the total of an invite on account of a session. -/
  charged : String → ℕ

namespace Plane

variable (C : Crypto) (cfg : Config) (d : DataPlane)

/-- The session that an event creates. -/
def creates (p : Plane) (e : PlaneEvent) : Option SessionAllocation :=
  (p.operation e).bind fun (op, o) =>
    match (p.node.access C cfg op o).2 with
    | .ok handed => handed.created.map CreatedSession.allocation
    | .error _ => none

/-- The session whose last provision an event makes. -/
def completes (p : Plane) : PlaneEvent → Option String
  | .advance i o =>
    match p.jobs[i]? with
    | some (.enroll ⟨created, _, _, .provision [c] _⟩) =>
      if (c.call d (p.table c) (.provision created.allocation) o).2 then some created.id else none
    | _ => none
  | _ => none

/-- What an event moves through an engine for a session: where it counts by port or address,
through the entry that was created for the session, and otherwise by the counter of the
session. -/
def moves (p : Plane) (e : PlaneEvent) (c : Control) (id : String) : ℕ :=
  match e with
  | .traffic c' owner place n =>
    if c' = c ∧ owner = id ∧ c.byPlace = true ∧
      ((p.table c).entries.any fun x => x.owner == owner && x.place == place) = true then n else 0
  | .count c' id' e =>
    if c' = c ∧ id' = id ∧ c.byPlace = false ∧ (p.counters c id).isSome = true then e.moved else 0
  | _ => 0

/-- The sessions and the engine that an event reads for the meter, and what it reads. -/
def reads (p : Plane) : PlaneEvent → Option (List MeteredSession × Control × List UsageReading)
  | .advance i o =>
    match p.jobs[i]? with
    | some (.meter sessions (c :: rest) _ _) =>
      (p.usage d c (d.controls.length - (rest.length + 1)) sessions o).map (sessions, c, ·)
    | _ => none
  | _ => none

/-- What an event adds to the total of an invite on account of a session, up to the bound of the
total. -/
def charges (p : Plane) (e : PlaneEvent) (id : String) : ℕ :=
  match p.operation e with
  | some (.recordUsage moved now, o) =>
    match (p.node.access C cfg (.recordUsage moved now) o).2 with
    | .ok _ => if p.node.state.sessions.any (fun r => r.id == id) then (moved id).getD 0 else 0
    | .error _ => 0
  | _ => 0

end Plane

namespace History

def none : History := ⟨[], [], fun _ _ => 0, [], fun _ => 0⟩

/-- The history after an event. -/
def after (C : Crypto) (cfg : Config) (d : DataPlane) (h : History) (p : Plane) (e : PlaneEvent) :
    History where
  issued := h.issued ++ (p.creates C cfg e).toList
  completed := h.completed ++ (p.completes d e).toList
  moved c id := h.moved c id + p.moves e c id
  read := h.read ++ (p.reads d e).elim [] fun x => x.2.2.map UsageReading.key
  charged id := h.charged id + p.charges C cfg e id

/-- The ID of a session that the event is to create was not generated before. -/
def Fresh (h : History) : PlaneEvent → Prop
  | .createSession _ _ _ token _ _ _ _ =>
    ∀ parts ∈ splitSessionToken token, ∀ a ∈ h.issued, a.id ≠ parts.id
  | _ => True

instance (h : History) (e : PlaneEvent) : Decidable (h.Fresh e) :=
  match e with
  | .createSession .. => inferInstanceAs (Decidable (∀ parts ∈ splitSessionToken _, _))
  | .start .. | .createGrant .. | .updateGrant .. | .revokeGrant .. | .renewSession ..
  | .releaseSession .. | .expireSessions .. | .meterAllowances .. | .advance .. | .proceed ..
  | .traffic .. | .count .. => inferInstanceAs (Decidable True)

end History

/-- A step of the server that is not a start. -/
def Plane.serve (C : Crypto) (cfg : Config) (d : DataPlane) (p : Plane) (e : PlaneEvent) :
    Option Plane :=
  match e with
  | .start .. => none
  | e => p.step C cfg d e

lemma Plane.becomes_of_serve {C : Crypto} {cfg : Config} {d : DataPlane} {p p' : Plane}
    {e : PlaneEvent} (h : p.serve C cfg d e = some p') : p.Becomes C cfg d e p' := by
  cases e with
  | start => cases h
  | _ => exact Plane.becomes_of_step h

/-- The server from a start at `now` with nothing, and what happens. -/
def servingSystem (C : Crypto) (cfg : Config) (d : DataPlane) (now : ℕ) :
    System (Plane × History) PlaneEvent :=
  System.withHistory ⟨Plane.running now, Plane.serve C cfg d⟩ History.none (History.after C cfg d)

/-! ### Where sessions come from -/

namespace Job

/-- The sessions that the job is about. -/
def allocations : Job → List SessionAllocation
  | .kick sessions _ => sessions
  | .enroll e => e.created.allocation :: e.created.expiredAllocations
  | _ => []

variable {j : Job} {c : Control} {k : ControlCall} {a : SessionAllocation}

lemma Calls.mem_allocations (h : j.Calls c k) (hj : j.isServing = true) :
    ∀ a ∈ k.installs, a ∈ j.allocations := by
  cases h with
  | reconcile => cases hj
  | provision => exact fun a ha => mem_cons.mpr (.inl (mem_singleton.mp ha))
  | kick | kickExpired | rollback => exact forall_mem_nil _

@[simp] lemma allocations_after (ok : Bool) (j : Job) : (j.after ok).allocations = j.allocations := by
  match j with
  | .reconcile _ (_ :: _) _ _ | .kick _ (_ :: _) | .enroll _
  | .startup | .reconcile _ [] _ _ | .kick _ [] | .meter .. | .record _ => rfl

@[simp] lemma isServing_after (ok : Bool) (j : Job) : (j.after ok).isServing = j.isServing := by
  match j with
  | .reconcile _ (_ :: _) _ _ | .kick _ (_ :: _) | .enroll _
  | .startup | .reconcile _ [] _ _ | .kick _ [] | .meter .. | .record _ => rfl

/-- A job goes on without a call as an enrollment of the same session, or ends. -/
lemma mem_resume {d : DataPlane} {new : List Job} (h : j.resume d = some new) :
    ∀ j' ∈ new, ∃ e phase, j = .enroll e ∧ j' = .enroll { e with phase } := by
  intro j' hj'
  cases resumes_of_resume h with
  | kicked | done => cases hj'
  | provision | refuse => exact ⟨_, _, rfl, mem_singleton.mp hj'⟩

end Job

/-- Every session that is about was created once.  A peer that has lost its address has none. -/
structure Lineage (C : Crypto) (cfg : Config) (d : DataPlane) (s : Plane × History) : Prop where
  node : s.1.node.Holds (StateInv C cfg)
  ids : (s.2.issued.map SessionAllocation.id).Nodup
  recorded : ∀ a, s.1.node.state.Records a → a ∈ s.2.issued
  serving : ∀ j ∈ s.1.jobs, j.isServing = true
  jobs : ∀ j ∈ s.1.jobs, ∀ a ∈ j.allocations, a ∈ s.2.issued
  entries : ∀ c, ∀ x ∈ (s.1.table c).entries, ∃ a ∈ s.2.issued, x.owner = a.id ∧
    (x.place = c.place d a.resourceSlot ∨ c = .wireguard ∧ x.place = none)
  owners : ∀ c, (s.1.table c).owners.Nodup

namespace Lineage

variable {C : Crypto} {cfg : Config} {d : DataPlane} {p p' : Plane} {h h' : History}
  {pre old new post : List Job}

/-- Two sessions that were created have the same slot if they have the same ID. -/
lemma eq_of_id (hl : Lineage C cfg d (p, h)) {a b : SessionAllocation} (ha : a ∈ h.issued)
    (hb : b ∈ h.issued) (hid : a.id = b.id) : a = b :=
  inj_on_of_nodup_map hl.ids ha hb hid

lemma mem_replaced {j : Job} (hjobs : p.jobs = pre ++ old ++ post)
    (hj : j ∈ pre ++ new ++ post) : j ∈ p.jobs ∨ j ∈ new := by
  rw [hjobs]
  simp only [mem_append] at hj ⊢
  tauto

/-- The state and what the engines hold stay as they are. -/
lemma replace (hl : Lineage C cfg d (p, h)) (hnode : p'.node = p.node)
    (hheld : ∀ c, (p'.table c).held = (p.table c).held) (hissued : h'.issued = h.issued)
    (hjobs : p.jobs = pre ++ old ++ post) (hjobs' : p'.jobs = pre ++ new ++ post)
    (hnew : ∀ j ∈ new, j.isServing = true ∧ ∀ a ∈ j.allocations, a ∈ h.issued) :
    Lineage C cfg d (p', h') := by
  refine ⟨hnode ▸ hl.node, hissued ▸ hl.ids, ?_, ?_, ?_, ?_, fun c => ?_⟩
  · rw [hissued, hnode]
    exact hl.recorded
  · rw [hjobs']
    intro j hj
    rcases mem_replaced hjobs hj with hj | hj
    · exact hl.serving j hj
    · exact (hnew j hj).1
  · rw [hjobs', hissued]
    intro j hj
    rcases mem_replaced hjobs hj with hj | hj
    · exact hl.jobs j hj
    · exact (hnew j hj).2
  · rw [hissued]
    intro c x hx
    obtain ⟨y, hy, howner, hplace⟩ := Table.exists_of_held (hheld c) hx
    rw [← howner, ← hplace]
    exact hl.entries c y hy
  · rw [Table.owners_of_held (hheld c)]
    exact hl.owners c

variable {e : PlaneEvent} {handed : Handed} {o : StoreOutcome} {op : Access}

/-- What a session is created with is new. -/
lemma ne_of_fresh {created : CreatedSession} (hfresh : h.Fresh e)
    (hop : p.operation e = some (op, o)) (hok : (p.node.access C cfg op o).2 = .ok handed)
    (hcreated : created ∈ handed.created) : ∀ a ∈ h.issued, a.id ≠ created.id := by
  obtain ⟨-, accessCode, clientName, now, token, scopedSecret, parts, rfl, hparts, hid, -⟩ :=
    Node.created_of_access hok hcreated
  cases e with
  | createSession =>
    cases hop
    rw [hid]
    exact hfresh parts hparts
  | proceed i now' o' =>
    simp only [Plane.operation] at hop
    split at hop <;> cases hop
  | _ => cases hop

lemma creates_of_operation (hop : p.operation e = some (op, o))
    (h : (p.node.access C cfg op o).2 = .ok handed ∨
      (∃ err, (p.node.access C cfg op o).2 = .error err) ∧ handed = ⟨[], none⟩) :
    p.creates C cfg e = handed.created.map CreatedSession.allocation := by
  simp only [Plane.creates, hop, Option.bind_some]
  rcases h with hok | ⟨⟨err, herr⟩, rfl⟩
  · rw [hok]
  · rw [herr]
    rfl

end Lineage

/-- What an operation of the service leaves in a run: its state, what it hands over, and the jobs
that follow. -/
structure Handover (C : Crypto) (cfg : Config) (d : DataPlane) (p : Plane) (h : History) (n : Node)
    (handed : Handed) (new : List Job) : Prop where
  holds : n.Holds (StateInv C cfg)
  transfer : Transfer p.node.state n.state handed
  created : ∀ created ∈ handed.created, created.expiredAllocations = handed.ended
  fresh : ∀ created ∈ handed.created, ∀ a ∈ h.issued, a.id ≠ created.id
  jobs : new = [] ∨ new = [.kick handed.ended d.controls] ∨
    ∃ created ∈ handed.created, ∃ updateRequired noTransport,
      new = [.enroll ⟨created, updateRequired, noTransport, .kickExpired d.controls⟩]

/-- The steps of a server that serves, by what they can change: an operation of the service changes
the state and leaves jobs, a call changes what one engine holds, and the rest changes jobs only. -/
inductive Plane.Serves (C : Crypto) (cfg : Config) (d : DataPlane) (p : Plane) (h : History) :
    PlaneEvent → Plane → Prop
  | access {e pre old post op o follow n handed new} (hjobs : p.jobs = pre ++ old ++ post)
      (hop : p.operation e = some (op, o)) (hfollows : Follows d old op follow)
      (heq : p.access C cfg op o pre post follow = { p with
        node := n, jobs := pre ++ new ++ post })
      (hh : Handover C cfg d p h n handed new)
      (hcreates : p.creates C cfg e = handed.created.map CreatedSession.allocation) :
      Serves C cfg d p h e { p with node := n, jobs := pre ++ new ++ post }
  | call {i o pre j post c k} (hjobs : p.jobs = pre ++ [j] ++ post)
      (hi : p.jobs[i]? = some j) (hpending : j.pending = some (c, k)) :
      Serves C cfg d p h (.advance i o) { p with
        table := update p.table c (c.call d (p.table c) k o).1
        jobs := pre ++ [j.after (c.call d (p.table c) k o).2] ++ post }
  | resume {i o pre j post new} (hjobs : p.jobs = pre ++ [j] ++ post)
      (hi : p.jobs[i]? = some j) (hresume : j.resume d = some new) :
      Serves C cfg d p h (.advance i o) { p with jobs := pre ++ new ++ post }
  /-- The meter goes on, or data moves. -/
  | quiet {e p' pre old new post} (hnode : p'.node = p.node)
      (hheld : ∀ c, (p'.table c).held = (p.table c).held) (hjobs : p.jobs = pre ++ old ++ post)
      (hjobs' : p'.jobs = pre ++ new ++ post) (hold : ∀ j ∈ old, j.isMeter = true)
      (hnew : ∀ j ∈ new, j.isMeter = true) (hcreates : p.creates C cfg e = none)
      (hcompletes : p.completes d e = none) : Serves C cfg d p h e p'

namespace Lineage

variable {C : Crypto} {cfg : Config} {d : DataPlane} {p p' : Plane} {h h' : History}
  {pre old new post : List Job}

section

variable (hl : Lineage C cfg d (p, h))
include hl

lemma exists_handover {e : PlaneEvent} {op : Access} {o : StoreOutcome}
    {follow : Handed → List Job} (hfresh : h.Fresh e)
    (hop : p.operation e = some (op, o)) (hfollows : Follows d old op follow)
    (pre post : List Job) : ∃ n handed new, p.access C cfg op o pre post follow
        = { p with node := n, jobs := pre ++ new ++ post } ∧
      Handover C cfg d p h n handed new ∧
      p.creates C cfg e = handed.created.map CreatedSession.allocation := by
  obtain ⟨n, handed, new, heq, hn, htransfer, hnew⟩ :=
    Plane.exists_of_access hl.node op o pre post follow
  refine ⟨n, handed, new, heq, ?_, creates_of_operation hop (hnew.imp (·.1) fun h => ⟨h.1, h.2.1⟩)⟩
  rcases hnew with ⟨hok, rfl⟩ | ⟨-, rfl, rfl⟩
  · exact ⟨hn, htransfer, fun created hc => (Node.created_of_access hok hc).1.symm,
      fun created hc => ne_of_fresh hfresh hop hok hc, Plane.follow_cases hfollows handed⟩
  · exact ⟨hn, htransfer, by simp, by simp, .inl rfl⟩

lemma access {e : PlaneEvent} {n : Node} {handed : Handed}
    (hjobs : p.jobs = pre ++ old ++ post) (hh : Handover C cfg d p h n handed new)
    (hcreates : p.creates C cfg e = handed.created.map CreatedSession.allocation) : Lineage C cfg d
      ({ p with node := n, jobs := pre ++ new ++ post }, h.after C cfg d p e) := by
  have hissued : (h.after C cfg d p e).issued
      = h.issued ++ (handed.created.map CreatedSession.allocation).toList := by
    rw [← hcreates]
    rfl
  have hsub : ∀ a ∈ h.issued, a ∈ (h.after C cfg d p e).issued := fun a ha =>
    mem_append_left _ ha
  have hcreated : ∀ created ∈ handed.created,
      created.allocation ∈ (h.after C cfg d p e).issued := fun created hc => by
    rw [hissued, Option.mem_def.mp hc]
    simp
  -- a session that has ended was recorded
  have hended : ∀ a ∈ handed.ended, a ∈ (h.after C cfg d p e).issued := fun a ha =>
    hsub a (hl.recorded a (hh.transfer.ended a ha))
  have hmem : ∀ j ∈ new, j.isServing = true ∧
      ∀ a ∈ j.allocations, a ∈ (h.after C cfg d p e).issued := by
    intro j hj
    rcases hh.jobs with rfl | rfl | ⟨created, hc, _, _, rfl⟩
    · cases hj
    · rw [mem_singleton.mp hj]
      exact ⟨rfl, hended⟩
    · rw [mem_singleton.mp hj]
      refine ⟨rfl, fun a ha => ?_⟩
      rcases mem_cons.mp ha with rfl | ha
      · exact hcreated created hc
      · rw [hh.created created hc] at ha
        exact hended a ha
  refine ⟨hh.holds, ?_, ?_, ?_, ?_, ?_, hl.owners⟩
  · simp only [hissued, map_append]
    cases hc : handed.created with
    | none => simpa using hl.ids
    | some created =>
      refine List.Nodup.append hl.ids (nodup_singleton _) ?_
      simpa [CreatedSession.allocation] using hh.fresh created hc
  · intro a ha
    rcases hh.transfer.recorded a ha with ha | ha
    · exact hsub a (hl.recorded a ha)
    · obtain ⟨created, hc, rfl⟩ := Option.mem_map.mp ha
      exact hcreated created hc
  · intro j hj
    rcases mem_replaced hjobs hj with hj | hj
    · exact hl.serving j hj
    · exact (hmem j hj).1
  · intro j hj
    rcases mem_replaced hjobs hj with hj | hj
    · exact fun a ha => hsub a (hl.jobs j hj a ha)
    · exact (hmem j hj).2
  · intro c x hx
    obtain ⟨a, ha, hx⟩ := hl.entries c x hx
    exact ⟨a, hsub a ha, hx⟩

lemma call {j : Job} {c : Control} {k : ControlCall} {o : CallOutcome} {ok : Bool}
    (hissued : h'.issued = h.issued)
    (hjobs : p.jobs = pre ++ [j] ++ post) (hcalls : j.Calls c k) : Lineage C cfg d ({ p with
      table := update p.table c (c.call d (p.table c) k o).1
      jobs := pre ++ [j.after ok] ++ post }, h') := by
  have hj : j ∈ p.jobs := by simp [hjobs]
  have hinstalls : ∀ a ∈ k.installs, a ∈ h.issued := fun a ha =>
    hl.jobs j hj a (hcalls.mem_allocations (hl.serving j hj) a ha)
  have hbase : Lineage C cfg d ({ p with jobs := pre ++ [j.after ok] ++ post }, h') := by
    refine hl.replace rfl (fun _ => rfl) hissued hjobs rfl fun j' hj' => ?_
    rw [mem_singleton.mp hj', Job.isServing_after, Job.allocations_after]
    exact ⟨hl.serving j hj, hl.jobs j hj⟩
  refine { hbase with entries := fun c' => ?_, owners := fun c' => ?_ }
  · by_cases hc : c' = c
    · subst hc
      simp only [update_self]
      refine Control.forall_call (P := fun owner place => ∃ a ∈ h'.issued, owner = a.id ∧
        (place = c'.place d a.resourceSlot ∨ c' = .wireguard ∧ place = none))
        (hbase.entries c') ?_ ?_
      · rw [hissued]
        exact fun a ha => ⟨a, hinstalls a ha, rfl, .inl rfl⟩
      · rintro hwireguard - - owner - ⟨a, ha, howner, -⟩
        exact ⟨a, ha, howner, .inr ⟨hwireguard, rfl⟩⟩
    · simp only [update_of_ne hc]
      exact hbase.entries c'
  · by_cases hc : c' = c
    · subst hc
      simp only [update_self]
      refine Control.nodup_owners_call (hl.owners c') ?_ ?_
      · rintro a ha rfl x hx howner
        obtain ⟨b, hb, hbowner, hplace⟩ := hl.entries _ x hx
        rw [hplace.resolve_right (by simp),
          hl.eq_of_id hb (hinstalls a ha) (hbowner.symm.trans howner)]
      · exact fun a ha b hb hid => by rw [hl.eq_of_id (hinstalls a ha) (hinstalls b hb) hid]
    · simp only [update_of_ne hc]
      exact hl.owners c'

lemma serving_at {j : Job} (hjobs : p.jobs = pre ++ [j] ++ post) :
    j.isServing = true := hl.serving j (by simp [hjobs])

lemma serves {e : PlaneEvent} (hfresh : h.Fresh e) (hstep : p.serve C cfg d e = some p') :
    p.Serves C cfg d h e p' := by
  cases Plane.becomes_of_serve hstep with
  | started => cases hstep
  | stopped => cases hstep
  | access hjobs _ hop hfollows =>
    obtain ⟨n, handed, new, heq, hh, hcreates⟩ := hl.exists_handover hfresh hop hfollows _ _
    rw [heq]
    exact .access hjobs hop hfollows heq hh hcreates
  | call hjobs hi hpending => exact .call hjobs hi hpending
  | resume hjobs hi hresume => exact .resume hjobs hi hresume
  | exit hj hserves => cases (hl.serving _ hj).symm.trans hserves
  | retry hjobs | list hjobs | ready hjobs => cases hl.serving_at hjobs
  | meter =>
    exact .quiet rfl (fun _ => rfl) p.jobs_eq (show _ = _ ++ [_] ++ [] from (append_nil _).symm)
      (by simp) (by simp [Job.isMeter]) rfl rfl
  | read hjobs hi | unread hjobs hi | take hjobs hi =>
    exact .quiet rfl (fun _ => rfl) hjobs rfl (by simp [Job.isMeter]) (by simp [Job.isMeter]) rfl
      (by simp [Plane.completes, hi])
  | unavailable hjobs hi =>
    exact .quiet rfl (fun _ => rfl) hjobs (show _ = _ ++ [] ++ _ by simp) (by simp [Job.isMeter])
      (by simp) rfl (by simp [Plane.completes, hi])
  | traffic =>
    exact .quiet rfl (Table.held_traffic _ _ _ _ _) p.jobs_eq p.jobs_eq (by simp) (by simp) rfl rfl
  | meterIdle | count =>
    exact .quiet rfl (fun _ => rfl) p.jobs_eq p.jobs_eq (by simp) (by simp) rfl rfl

lemma step {e : PlaneEvent} (hfresh : h.Fresh e)
    (hstep : p.serve C cfg d e = some p') : Lineage C cfg d (p', h.after C cfg d p e) := by
  cases hl.serves hfresh hstep with
  | access hjobs _ _ _ hh hcreates => exact hl.access hjobs hh hcreates
  | call hjobs _ hpending =>
    exact hl.call (append_nil _) hjobs (Job.calls_of_pending hpending)
  | resume hjobs _ hresume =>
    refine hl.replace rfl (fun _ => rfl) (append_nil _) hjobs rfl fun j' hj' => ?_
    obtain ⟨e, phase, rfl, rfl⟩ := Job.mem_resume hresume j' hj'
    exact ⟨rfl, hl.jobs (.enroll e) (by simp [hjobs])⟩
  | quiet hnode hheld hjobs hjobs' _ hnew hcreates =>
    refine hl.replace hnode hheld (by simp [History.after, hcreates]) hjobs hjobs' fun j hj => ?_
    have hj := hnew j hj
    cases j with
    | meter | record => exact ⟨rfl, forall_mem_nil _⟩
    | _ => cases hj

end

lemma initial (now : ℕ) : Lineage C cfg d (Plane.running now, History.none) := by
  have hempty : StateInv C cfg PersistedState.empty := stateInv_empty
  refine ⟨⟨hempty, hempty⟩, nodup_nil, ?_, forall_mem_nil _, forall_mem_nil _,
    fun _ => forall_mem_nil _, fun _ => nodup_nil⟩
  rintro a ⟨x, hx, -⟩
  cases hx

end Lineage

end Ket.Server
