import Ket.Server.Orphans
import Ket.Server.Removal
import Ket.Server.Serving

/-!
# Enrollments that are cut off (`api/mod.rs`)

A `create_session` request records its session, provisions it, and returns the manifest or refuses
the session, that is, takes its record out again and kicks it from the engines.  The server drops the
future of a request after 15 seconds, wherever it waits, and nothing goes on in its place but a store
that has begun.

`no_half_enrollment` is about runs without such a drop, in which a session that is refused can still
be discarded: a request that returned no manifest and has no work left has left nothing of its session
behind.  The run after it shows a request that is dropped while it provisions.
-/

namespace Ket.Server

open Ket.Core Ket.Lib List Function

/-! ### Requests and what cuts them off -/

namespace Job

/-- The session of an enrollment. -/
def session : Job → Option String
  | .enroll e => some e.created.id
  | _ => none

/-- The session whose manifest the job returns when it goes on. -/
def returns : Job → Option String
  | .enroll ⟨created, _, false, .provision [] _⟩ => some created.id
  | _ => none

/-- The job is the enrollment of the session or kicks it. -/
def worksOn (id : String) : Job → Bool
  | .enroll e => e.created.id == id
  | .kick sessions _ => sessions.any fun a => a.id == id
  | _ => false

end Job

/-- What has become of the requests for a session. -/
structure Requests where
  /-- The sessions that were stored, or were to be. -/
  created : List String
  /-- The sessions whose manifest was returned. -/
  returned : List String

inductive RequestEvent where
  | serve (e : PlaneEvent)
  /-- An enrollment is dropped between two of its steps. -/
  | drop (i : ℕ)
  /-- An enrollment is dropped while it stores its session; the store goes on. -/
  | dropAdmitting (accessCode clientName : String) (now : ℕ) (token scopedSecret : String)
  /-- An enrollment is dropped while it discards its session; the store goes on. -/
  | dropDiscarding (i now : ℕ)

namespace Plane

variable (C : Crypto) (d : DataPlane)

/-- The session whose manifest an event returns. -/
def returns (p : Plane) : PlaneEvent → Option String
  | .advance i _ => p.jobs[i]?.bind Job.returns
  | _ => none

/-- The store of the event succeeds, if it passes its checks. -/
def storesSucceed (p : Plane) (e : PlaneEvent) : Bool :=
  (p.operation e).all fun x => x.2 = .stored

/-- The kick of the event succeeds. -/
def kicksSucceed (p : Plane) (e : PlaneEvent) : Bool :=
  (p.next e).all fun x =>
    match x.2.1 with
    | .kick _ => (x.1.call d (p.table x.1) x.2.1 x.2.2).2
    | _ => true

/-- A session that is refused is still one that `authenticate` admits. -/
def discardsAdmitted (p : Plane) : PlaneEvent → Bool
  | .proceed i now _ =>
    p.jobs[i]?.all fun
      | .enroll e => (authenticate C p.node.state e.created.token now).isOk
      | _ => true
  | _ => true

/-- Nothing of the session is left: no record, with which its slot would be used, and nothing in an
engine. -/
structure Cleared (p : Plane) (id : String) : Prop where
  state : id ∉ p.node.state.ids
  file : id ∉ p.node.file.ids
  engines : ∀ c, ∀ x ∈ (p.table c).entries, x.owner ≠ id

end Plane

namespace Requests

def none : Requests := ⟨[], []⟩

def after (C : Crypto) (cfg : Config) (r : Requests) (p : Plane) (e : PlaneEvent) : Requests where
  created := r.created ++ ((p.creates C cfg e).map SessionAllocation.id).toList
  returned := r.returned ++ (p.returns e).toList

/-- The job is work of a request for a session that has not returned its manifest. -/
def runs (r : Requests) (j : Job) : Bool :=
  r.created.any fun id => j.worksOn id && !(r.returned.contains id)

end Requests

/-- The server with requests that may be dropped. -/
def requestSystem (C : Crypto) (cfg : Config) (d : DataPlane) (now : ℕ) :
    System ((Plane × History) × Requests) RequestEvent where
  start := ((servingSystem C cfg d now).start, Requests.none)
  step := fun ((p, h), r) e =>
    match e with
    | .serve e => ((servingSystem C cfg d now).step (p, h) e).map (·, r.after C cfg p e)
    | .drop i =>
      if p.jobs[i]?.any r.runs then some (({ p with jobs := p.jobs.eraseIdx i }, h), r) else none
    | .dropAdmitting accessCode clientName now token scopedSecret =>
      if p.phase = .ready then
        let op := .createSession accessCode clientName now token scopedSecret
        some (({ p with node := (p.node.access C cfg op .replaced).1 }, h),
          { r with created := r.created ++ op.generates.toList })
      else none
    | .dropDiscarding i now =>
      match p.jobs[i]? with
      | some (.enroll ⟨created, _, _, .refuse⟩) =>
        some (({ p with
          node := (p.node.access C cfg (.endSession created.token now) .replaced).1
          jobs := p.jobs.eraseIdx i }, h), r)
      | _ => none

/-- No session ID is generated twice, and stores and kicks succeed. -/
def Undisturbed (d : DataPlane) (s : (Plane × History) × Requests) : RequestEvent → Prop
  | .serve e => s.1.2.Fresh e ∧ s.1.1.storesSucceed e = true ∧ s.1.1.kicksSucceed d e = true
  | _ => True

/-- Moreover, no request is dropped once its session is being stored, and a session that is refused
can be discarded. -/
def Unhindered (C : Crypto) (d : DataPlane) (s : (Plane × History) × Requests) : RequestEvent → Prop
  | .serve e => Undisturbed d s (.serve e) ∧ s.1.1.discardsAdmitted C e = true
  | _ => False

instance (d : DataPlane) (s : (Plane × History) × Requests) (e : RequestEvent) :
    Decidable (Undisturbed d s e) :=
  match e with
  | .serve _ => inferInstanceAs (Decidable (_ ∧ _))
  | .drop _ | .dropAdmitting .. | .dropDiscarding .. => inferInstanceAs (Decidable True)

instance (C : Crypto) (d : DataPlane) (s : (Plane × History) × Requests) (e : RequestEvent) :
    Decidable (Unhindered C d s e) :=
  match e with
  | .serve _ => inferInstanceAs (Decidable (_ ∧ _))
  | .drop _ | .dropAdmitting .. | .dropDiscarding .. => inferInstanceAs (Decidable False)

/-! ### Jobs -/

namespace Job

variable {j : Job} {c c' : Control} {k : ControlCall} {a : SessionAllocation} {d : DataPlane}

@[simp] lemma session_after (ok : Bool) (j : Job) : (j.after ok).session = j.session := by
  match j with
  | .reconcile _ (_ :: _) _ _ | .kick _ (_ :: _) | .enroll _
  | .startup | .reconcile _ [] _ _ | .kick _ [] | .meter .. | .record _ => rfl

/-- The meter works on no session and calls no control. -/
lemma idle_of_isMeter (h : j.isMeter = true) :
    j.session = none ∧ (∀ c, j.kicks c = []) ∧ j.controls = [] := by
  cases j with
  | meter | record => exact ⟨rfl, fun _ => rfl, rfl⟩
  | _ => cases h

/-- What a call installs is the session of its enrollment. -/
lemma Calls.session_of_installs (h : j.Calls c k) (hj : j.isServing = true) :
    ∀ a ∈ k.installs, j.session = some a.id := by
  intro a ha
  cases h with
  | reconcile => cases hj
  | provision =>
    rw [mem_singleton.mp ha]
    rfl
  | kick | kickExpired | rollback => cases ha

@[simp] lemma worksOn_after (ok : Bool) (id : String) (j : Job) :
    (j.after ok).worksOn id = j.worksOn id := by
  match j with
  | .reconcile _ (_ :: _) _ _ | .kick _ (_ :: _) | .enroll _
  | .startup | .reconcile _ [] _ _ | .kick _ [] | .meter .. | .record _ => rfl

/-- A job that goes on without a call goes on with its session or returns the manifest. -/
lemma resume_session {new : List Job} (h : j.resume d = some new) :
    new.filterMap session = j.session.toList ∨ new = [] ∧ j.returns = j.session := by
  cases resumes_of_resume h with
  | kicked | provision | refuse => exact .inl rfl
  | done => exact .inr ⟨rfl, rfl⟩

/-- A call leaves an enrollment the one that it is. -/
lemma enroll_of_after {e : Enrollment} {ok : Bool} (h : .enroll e = j.after ok) :
    ∃ phase, j = .enroll { e with phase } := by
  match j with
  | .enroll ⟨created, updateRequired, noTransport, phase⟩ =>
    cases h
    exact ⟨phase, rfl⟩
  | .reconcile _ (_ :: _) _ _ | .kick _ (_ :: _) | .startup | .reconcile _ [] _ _ | .kick _ []
  | .meter .. | .record _ => cases h

end Job

/-! ### The invariant -/

/-- A job of the session is going to kick it from the engine. -/
def Plane.WorksOff (p : Plane) (a : SessionAllocation) (c : Control) : Prop :=
  ∃ j ∈ p.jobs, j.worksOn a.id = true ∧ a ∈ j.kicks c

/-- The session is taken back: its record is gone, its enrollment is over, and what an engine holds of
it is going to be kicked. -/
structure Withdrawn (p : Plane) (a : SessionAllocation) : Prop where
  unrecorded : p.node.Holds fun t => ∀ id ∈ t.ids, id ≠ a.id
  ended : a.id ∉ p.jobs.filterMap Job.session
  kicked : ∀ c, ∀ x ∈ (p.table c).entries, x.owner = a.id → p.WorksOff a c

/-- Every session that was created has returned its manifest, is being enrolled or is taken back. -/
structure Accounted (C : Crypto) (cfg : Config) (d : DataPlane) (s : (Plane × History) × Requests) :
    Prop where
  lineage : Lineage C cfg d s.1
  created : s.2.created = s.1.2.issued.map SessionAllocation.id
  tokens : ∀ e, .enroll e ∈ s.1.1.jobs →
    ∃ parts, splitSessionToken e.created.token = some parts ∧ parts.id = e.created.id
  distinct : (s.1.1.jobs.filterMap Job.session).Nodup
  controls : ∀ j ∈ s.1.1.jobs, j.controls ⊆ d.controls
  configured : ∀ c, (s.1.1.table c).entries ≠ [] → c ∈ d.controls ∧ c.keeps = true
  accounted : ∀ a ∈ s.1.2.issued, a.id ∈ s.2.returned ∨ a.id ∈ s.1.1.jobs.filterMap Job.session ∨
    Withdrawn s.1.1 a

section Steps

variable {C : Crypto} {cfg : Config} {d : DataPlane} {p p' : Plane} {h h' : History}
  {r r' : Requests} {pre old new post : List Job} {a : SessionAllocation}

/-- No session is created, and what was returned stays so. -/
structure Carries (h h' : History) (r r' : Requests) : Prop where
  issued : h'.issued = h.issued
  created : r'.created = r.created
  returned : r.returned ⊆ r'.returned

/-- The jobs that kick a session still do so when those that are replaced leave their kicks to
others. -/
lemma Plane.WorksOff.replaced {c : Control} (h : p.WorksOff a c)
    (hjobs : p.jobs = pre ++ old ++ post) (hjobs' : p'.jobs = pre ++ new ++ post)
    (hold : ∀ j ∈ old, j.worksOn a.id = true → a ∈ j.kicks c →
      ∃ j' ∈ new, j'.worksOn a.id = true ∧ a ∈ j'.kicks c) : p'.WorksOff a c := by
  obtain ⟨j, hj, hworks, ha⟩ := h
  rw [hjobs] at hj
  unfold Plane.WorksOff
  rw [hjobs']
  simp only [mem_append] at hj ⊢
  rcases hj with (hj | hj) | hj
  · exact ⟨j, .inl (.inl hj), hworks, ha⟩
  · obtain ⟨j', hj', ha'⟩ := hold j hj hworks ha
    exact ⟨j', .inl (.inr hj'), ha'⟩
  · exact ⟨j, .inr hj, hworks, ha⟩

/-- They do so when those that are replaced kick nothing. -/
lemma Plane.WorksOff.of_kicks {c : Control} (h : p.WorksOff a c)
    (hjobs : p.jobs = pre ++ old ++ post) (hjobs' : p'.jobs = pre ++ new ++ post)
    (hold : ∀ j ∈ old, j.kicks c = []) : p'.WorksOff a c := by
  refine h.replaced hjobs hjobs' fun j hj _ ha => ?_
  rw [hold j hj] at ha
  cases ha

lemma mem_session_of_replaced (new : List Job) {id : String}
    (hid : id ∈ (pre ++ old ++ post).filterMap Job.session) :
    id ∈ (pre ++ new ++ post).filterMap Job.session ∨ id ∈ old.filterMap Job.session := by
  simp only [filterMap_append, mem_append] at hid ⊢
  tauto

namespace Accounted

section

variable (hs : Accounted C cfg d ((p, h), r))
include hs

section Frame

variable (hl : Lineage C cfg d (p', h')) (hnode : p'.node = p.node) (hk : Carries h h' r r')
  (hjobs : p.jobs = pre ++ old ++ post) (hjobs' : p'.jobs = pre ++ new ++ post)

include hl hnode hk hjobs hjobs'

section

variable (henroll : ∀ e, .enroll e ∈ new → ∃ phase, .enroll { e with phase } ∈ old)
  (hcontrols : ∀ j ∈ new, j.controls ⊆ d.controls)
  (hsession : (new.filterMap Job.session).Sublist (old.filterMap Job.session))
  (hdone : ∀ id ∈ old.filterMap Job.session, id ∈ new.filterMap Job.session ∨ id ∈ r'.returned)

include henroll hcontrols hsession hdone

/-- A step of the jobs and the engines: enrollments go on or have returned their manifest. -/
lemma advance
    (hconfigured : ∀ c, (p'.table c).entries ≠ [] → c ∈ d.controls ∧ c.keeps = true)
    (hkicked : ∀ a ∈ h.issued, Withdrawn p a → ∀ c, ∀ x ∈ (p'.table c).entries,
      x.owner = a.id → p'.WorksOff a c) : Accounted C cfg d ((p', h'), r') := by
  have hsub : (p'.jobs.filterMap Job.session).Sublist (p.jobs.filterMap Job.session) := by
    rw [hjobs, hjobs']
    simp only [filterMap_append]
    exact (hsession.append_left _).append_right _
  refine ⟨hl, ?_, ?_, hs.distinct.sublist hsub, ?_, hconfigured, ?_⟩
  · rw [hk.created, hk.issued]
    exact hs.created
  · rw [hjobs']
    intro e he
    rcases Lineage.mem_replaced hjobs he with he | he
    · exact hs.tokens e he
    · obtain ⟨phase, hmem⟩ := henroll e he
      exact hs.tokens { e with phase } (by simp [hjobs, hmem])
  · rw [hjobs']
    intro j hj
    rcases Lineage.mem_replaced hjobs hj with hj | hj
    · exact hs.controls j hj
    · exact hcontrols j hj
  · rw [hk.issued]
    intro a ha
    rcases hs.accounted a ha with hret | hid | hw
    · exact .inl (hk.returned hret)
    · rcases mem_session_of_replaced new (hjobs ▸ hid) with hid | hid
      · exact .inr (.inl (hjobs' ▸ hid))
      · rcases hdone a.id hid with hid | hret
        · exact .inr (.inl (by simp [hjobs', filterMap_append, hid]))
        · exact .inl hret
    · exact .inr (.inr ⟨hnode ▸ hw.unrecorded, fun hmem => hw.ended (hsub.subset hmem),
        hkicked a ha hw⟩)

lemma replace (hheld : ∀ c, (p'.table c).held = (p.table c).held)
    (hkicks : ∀ j ∈ old, ∀ c, j.kicks c = []) : Accounted C cfg d ((p', h'), r') := by
  refine hs.advance hl hnode hk hjobs hjobs' henroll hcontrols hsession hdone (fun c hne => ?_)
    fun a _ hw c x hx howner => ?_
  · obtain ⟨x, hx⟩ := exists_mem_of_ne_nil _ hne
    obtain ⟨y, hy, -⟩ := Table.exists_of_held (hheld c) hx
    exact hs.configured c (ne_nil_of_mem hy)
  · obtain ⟨y, hy, hyowner, -⟩ := Table.exists_of_held (hheld c) hx
    exact (hw.kicked c y hy (hyowner.trans howner)).of_kicks hjobs hjobs' (hkicks · · c)

end

end Frame

/-- An engine holds nothing of a session that it was made to kick. -/
lemma ne_of_kick {c : Control} {sessions : List SessionAllocation} {o : CallOutcome} {x : Entry}
    (ha : a ∈ h.issued) (hmem : a ∈ sessions)
    (hok : (c.call d (p.table c) (.kick sessions) o).2 = true)
    (hx : x ∈ (c.call d (p.table c) (.kick sessions) o).1.entries) : x.owner ≠ a.id := by
  intro howner
  have hold := Control.mem_of_mem_kick hx
  have hkeeps := (hs.configured c (ne_nil_of_mem hold)).2
  have hnames := Control.names_eq_false_of_kick hkeeps hok hx a hmem
  obtain ⟨b, hb, hbowner, hplace⟩ := hs.lineage.entries c x hold
  obtain rfl : b = a := hs.lineage.eq_of_id hb ha (hbowner.symm.trans howner)
  rcases hplace with hplace | ⟨rfl, hplace⟩
  · rw [howner, hplace, Control.names_self] at hnames
    cases hnames
  · -- the agent has listed its peers, so each of them has an address
    have hlists := (Control.of_call_eq_true hok).1
    simp only [Control.lists, ne_eq, not_true_eq_false, decide_false, Bool.false_or,
      all_eq_true] at hlists
    have hsome := hlists x hold
    rw [hplace] at hsome
    cases hsome

/-- A call to an engine, which succeeds if it is a kick. -/
lemma call {j : Job} {c : Control} {k : ControlCall} {o : CallOutcome}
    (hl : Lineage C cfg d ({ p with
      table := update p.table c (c.call d (p.table c) k o).1
      jobs := pre ++ [j.after (c.call d (p.table c) k o).2] ++ post }, h'))
    (hk : Carries h h' r r') (hjobs : p.jobs = pre ++ [j] ++ post)
    (hcalls : j.Calls c k)
    (hkick : ∀ sessions, k = .kick sessions → (c.call d (p.table c) k o).2 = true) :
    Accounted C cfg d (({ p with
      table := update p.table c (c.call d (p.table c) k o).1
      jobs := pre ++ [j.after (c.call d (p.table c) k o).2] ++ post }, h'), r') := by
  have hj : j ∈ p.jobs := by simp [hjobs]
  have hserving := hs.lineage.serving j hj
  refine hs.advance hl rfl hk hjobs rfl ?_ ?_ ?_ ?_ ?_ ?_
  · intro e he
    obtain ⟨phase, rfl⟩ := Job.enroll_of_after (mem_singleton.mp he)
    exact ⟨phase, mem_singleton_self _⟩
  · intro j' hj'
    rw [mem_singleton.mp hj']
    exact List.Subset.trans (j.controls_after_subset _) (hs.controls j hj)
  · simp [filterMap_cons]
  · intro id hid
    exact .inl (by simpa [filterMap_cons] using hid)
  · intro c' hne
    by_cases hc : c' = c
    · subst hc
      simp only [update_self] at hne
      refine ⟨hs.controls j hj hcalls.mem_controls, ?_⟩
      by_contra hkeeps
      rw [Bool.not_eq_true] at hkeeps
      rw [Control.call_of_keeps_eq_false hkeeps] at hne
      rw [(hs.configured c' hne).2] at hkeeps
      cases hkeeps
    · simp only [update_of_ne hc] at hne
      exact hs.configured c' hne
  · intro a ha hw c' x hx howner
    -- an engine that holds something of the session has held it before
    have hbefore : ∃ y ∈ (p.table c').entries, y.owner = a.id := by
      by_cases hc : c' = c
      · subst hc
        simp only [update_self] at hx
        have hold : (∃ y ∈ (p.table c').entries, y.owner = x.owner) ∨
            ∃ b ∈ k.installs, b.id = x.owner :=
          Control.forall_call (P := fun owner _ => (∃ y ∈ (p.table c').entries, y.owner = owner) ∨
            ∃ b ∈ k.installs, b.id = owner) (fun y hy => .inl ⟨y, hy, rfl⟩)
            (fun b hb => .inr ⟨b, hb, rfl⟩) (fun _ _ _ _ _ hP => hP) x hx
        rw [howner] at hold
        refine hold.resolve_right ?_
        rintro ⟨b, hb, hid⟩
        refine hw.ended ?_
        exact mem_filterMap.mpr ⟨j, hj, by rw [hcalls.session_of_installs hserving b hb, hid]⟩
      · simp only [update_of_ne hc] at hx
        exact ⟨x, hx, howner⟩
    obtain ⟨y, hy, hyowner⟩ := hbefore
    refine (hw.kicked c' y hy hyowner).replaced hjobs rfl fun j' hj' hworks hkicks => ?_
    rw [mem_singleton.mp hj'] at hworks hkicks
    rcases hcalls.kicks_after (c.call d (p.table c) k o).2 hkicks with
      hkicks | ⟨rfl, sessions, rfl, hmem⟩
    · exact ⟨_, mem_singleton_self _, by rw [Job.worksOn_after, hworks], hkicks⟩
    · simp only [update_self] at hx
      exact absurd howner (hs.ne_of_kick ha hmem (hkick sessions rfl) hx)

/-- The session of an enrollment was created. -/
lemma exists_issued {id : String}
    (hid : id ∈ p.jobs.filterMap Job.session) : ∃ a ∈ h.issued, a.id = id := by
  obtain ⟨j, hj, hsession⟩ := mem_filterMap.mp hid
  cases j with
  | enroll e =>
    exact ⟨e.created.allocation, hs.lineage.jobs _ hj _ mem_cons_self,
      Option.some.inj hsession⟩
  | _ => cases hsession

end

end Accounted

variable {e : PlaneEvent} {o : StoreOutcome} {op : Access} {follow : Handed → List Job} {now : ℕ}
  {ticket : SessionTicket} {token : String}

/-- What an event generates is new. -/
lemma ne_of_generates (hfresh : h.Fresh e) (hop : p.operation e = some (op, o)) :
    ∀ id ∈ op.generates, ∀ a ∈ h.issued, a.id ≠ id := by
  intro id hid
  cases e with
  | createSession =>
    cases hop
    obtain ⟨parts, hparts, rfl⟩ := Option.map_eq_some_iff.mp hid
    exact hfresh parts hparts
  | proceed =>
    simp only [Plane.operation] at hop
    split at hop <;> cases hop <;> cases hid
  | createGrant | updateGrant | revokeGrant | renewSession | releaseSession | expireSessions =>
    cases hop
    cases hid
  | _ => cases hop

lemma Plane.node_access :
    (p.access C cfg op o pre post follow).node = (p.node.access C cfg op o).1 := by
  unfold Plane.access
  split <;> rename_i heq <;> rw [heq]

/-- An operation that creates a session is followed by its enrollment. -/
lemma follow_of_created {handed : Handed} {created : CreatedSession}
    (hfollows : Follows d old op follow) (hok : (p.node.access C cfg op o).2 = .ok handed)
    (hcreated : created ∈ handed.created) :
    ∃ e : Enrollment, follow handed = [.enroll e] ∧ e.created = created := by
  obtain ⟨-, _, _, _, _, _, _, rfl, -⟩ := Node.created_of_access hok hcreated
  cases hfollows
  exact ⟨_, by rw [Plane.enrolls, Option.mem_def.mp hcreated], rfl⟩

namespace Accounted

/-- An operation of the service that is not the discard of a refused session. -/
lemma access {e : PlaneEvent} {op : Access} {o : StoreOutcome} {follow : Handed → List Job}
    (hs : Accounted C cfg d ((p, h), r)) (hfresh : h.Fresh e) (hop : p.operation e = some (op, o))
    (hfollows : Follows d old op follow) (hjobs : p.jobs = pre ++ old ++ post)
    (hsession : old.filterMap Job.session = []) (hkicks : ∀ j ∈ old, ∀ c, j.kicks c = [])
    (hl : Lineage C cfg d (p.access C cfg op o pre post follow, h.after C cfg d p e)) :
    Accounted C cfg d ((p.access C cfg op o pre post follow, h.after C cfg d p e),
      r.after C cfg p e) := by
  obtain ⟨n, handed, new, heq, hn, htransfer, hnew⟩ :=
    Plane.exists_of_access hs.lineage.node op o pre post follow
  have hnode : n = (p.node.access C cfg op o).1 := by rw [← Plane.node_access, heq]
  have hcreates : p.creates C cfg e = handed.created.map CreatedSession.allocation :=
    Lineage.creates_of_operation hop (hnew.imp (·.1) fun h => ⟨h.1, h.2.1⟩)
  have hissued : (h.after C cfg d p e).issued
      = h.issued ++ (handed.created.map CreatedSession.allocation).toList := by
    rw [← hcreates]
    rfl
  -- what follows is at most one enrollment, of the session that was created
  have henroll : ∀ created ∈ handed.created, ∃ e, new = [.enroll e] ∧ e.created = created := by
    intro created hcreated
    rcases hnew with ⟨hok, rfl⟩ | ⟨-, rfl, -⟩
    · exact follow_of_created hfollows hok hcreated
    · cases hcreated
  have htoken : ∀ e, .enroll e ∈ new → e.created ∈ handed.created ∧
      (∃ parts, splitSessionToken e.created.token = some parts ∧ parts.id = e.created.id) ∧
      ∀ a ∈ h.issued, a.id ≠ e.created.id := by
    intro e' he'
    rcases hnew with ⟨hok, rfl⟩ | ⟨-, -, rfl⟩
    · rcases Plane.follow_cases hfollows handed with hf | hf | ⟨created, hcreated, _, _, hf⟩
      · rw [hf] at he'
        cases he'
      · rw [hf] at he'
        cases mem_singleton.mp he'
      · rw [hf] at he'
        cases mem_singleton.mp he'
        obtain ⟨-, _, _, _, _, _, parts, -, hparts, hid, rfl⟩ :=
          Node.created_of_access hok hcreated
        exact ⟨hcreated, ⟨parts, hparts, hid.symm⟩, Lineage.ne_of_fresh hfresh hop hok hcreated⟩
    · cases he'
  have hcontrols : ∀ j ∈ new, j.controls ⊆ d.controls := by
    rcases hnew with ⟨-, rfl⟩ | ⟨-, -, rfl⟩
    · exact Plane.controls_of_follows hfollows handed
    · exact forall_mem_nil _
  have hnewSession : ∀ id ∈ new.filterMap Job.session, ∀ a ∈ h.issued, a.id ≠ id := by
    intro id hid
    obtain ⟨j, hj, hjid⟩ := mem_filterMap.mp hid
    match j with
    | .enroll e' =>
      cases hjid
      exact (htoken e' hj).2.2
  rw [heq] at hl ⊢
  refine ⟨hl, ?_, ?_, ?_, ?_, hs.configured, ?_⟩
  · have hcreated : r.created = h.issued.map SessionAllocation.id := hs.created
    simp only [Requests.after, hcreates, hissued, hcreated, map_append]
    cases handed.created <;> rfl
  · intro e' he'
    rcases Lineage.mem_replaced hjobs he' with he' | he'
    · exact hs.tokens e' he'
    · exact (htoken e' he').2.1
  · -- the IDs of the enrollments that go on were created before
    have hdistinct := hs.distinct
    have hbefore : ∀ id ∈ (pre ++ post).filterMap Job.session, ∃ a ∈ h.issued, a.id = id := by
      intro id hid
      refine hs.exists_issued ?_
      rw [hjobs]
      simp only [filterMap_append, mem_append] at hid ⊢
      tauto
    have hone : new.filterMap Job.session = [] ∨ ∃ id, new.filterMap Job.session = [id] := by
      rcases hnew with ⟨-, rfl⟩ | ⟨-, -, rfl⟩
      · rcases Plane.follow_cases hfollows handed with hf | hf | ⟨_, _, _, _, hf⟩ <;> rw [hf]
        · exact .inl rfl
        · exact .inl rfl
        · exact .inr ⟨_, rfl⟩
      · exact .inl rfl
    rw [hjobs] at hdistinct
    simp only [filterMap_append, hsession, append_nil] at hdistinct hbefore ⊢
    rcases hone with hnil | ⟨id, hid⟩
    · rwa [hnil, append_nil]
    · rw [hid, append_assoc, singleton_append, nodup_middle, nodup_cons]
      refine ⟨fun hmem => ?_, hdistinct⟩
      obtain ⟨a, ha, haid⟩ := hbefore id hmem
      exact hnewSession id (by simp [hid]) a ha haid
  · intro j hj
    rcases Lineage.mem_replaced hjobs hj with hj | hj
    · exact hs.controls j hj
    · exact hcontrols j hj
  · intro a ha
    simp only [hissued, mem_append, Option.mem_toList, Option.map_eq_some_iff] at ha
    rcases ha with ha | ⟨created, hcreated, rfl⟩
    · rcases hs.accounted a ha with hret | hid | hw
      · exact .inl (mem_append_left _ hret)
      · rcases mem_session_of_replaced new (hjobs ▸ hid) with hid | hid
        · exact .inr (.inl hid)
        · rw [hsession] at hid
          cases hid
      · refine .inr (.inr ⟨?_, ?_, ?_⟩)
        · rw [hnode]
          exact Node.holds_ids_access hw.unrecorded fun id hid =>
            (ne_of_generates hfresh hop id hid a ha).symm
        · intro hmem
          rcases mem_session_of_replaced old hmem with hid | hid
          · exact hw.ended (hjobs ▸ hid)
          · exact hnewSession a.id hid a ha rfl
        · exact fun c x hx howner =>
            (hw.kicked c x hx howner).of_kicks hjobs rfl (hkicks · · c)
    · obtain ⟨e', hf, rfl⟩ := henroll created hcreated
      refine .inr (.inl ?_)
      simp [hf, filterMap_append, Job.session, CreatedSession.allocation]

end Accounted

lemma id_of_authenticate {t : PersistedState} {parts : TokenParts}
    (hauth : authenticate C t token now = .ok ticket)
    (hparts : splitSessionToken token = some parts) : ticket.session.id = parts.id := by
  obtain ⟨parts', hparts', hfind⟩ := authenticate_spec hauth
  cases hparts.symm.trans hparts'
  simpa using find?_some hfind

/-- A session is ended by a request of its client or by the refusal of its enrollment. -/
lemma Plane.event_of_endSession (hop : p.operation e = some (.endSession token now, o)) :
    e = .releaseSession token now o ∨ ∃ i en, e = .proceed i now o ∧
      p.jobs[i]? = some (.enroll en) ∧ en.created.token = token := by
  cases e with
  | releaseSession =>
    cases hop
    exact .inl rfl
  | proceed i =>
    simp only [Plane.operation] at hop
    split at hop
    · rename_i en hi
      cases hop
      exact .inr ⟨i, en, rfl, hi, rfl⟩
    · cases hop
    · cases hop
  | createGrant | updateGrant | revokeGrant | createSession | renewSession | expireSessions =>
    cases hop
  | _ => cases hop

/-- A session that is admitted is discarded when the store succeeds: what is stored is valid. -/
lemma Node.access_endSession {n : Node} (hn : n.Holds (StateInv C cfg))
    (hauth : authenticate C n.state token now = .ok ticket) :
    ∃ b : SessionAllocation, ∃ next : PersistedState, b.id = ticket.session.id ∧
      next.sessions = n.state.sessions.filter (fun x => !(x.id == ticket.session.id)) ∧
      n.access C cfg (.endSession token now) .stored
        = ({ n with state := next, file := next }, .ok ⟨[b], none⟩) := by
  obtain ⟨slot, -, hslot⟩ := hn.state.slotted _ (mem_of_authenticate hauth)
  set next : PersistedState := { n.state with
    sessions := n.state.sessions.filter fun x => !(x.id == ticket.session.id) } with hnext
  have hend : Server.endSession n.state ticket = .ok (next, ⟨ticket.session.id, slot⟩) := by
    have hallocation : sessionAllocation ticket.session = .ok ⟨ticket.session.id, slot⟩ :=
      sessionAllocation_eq_ok.mpr ⟨hslot, rfl⟩
    simp only [Server.endSession, hallocation]
    rfl
  have hstorable : isStorable C next = true :=
    isStorable_eq_true.mpr ⟨hn.state.schema, valid_filter_sessions hn.state.valid _⟩
  have hstores : stores C next .stored = true := by simp [stores, hstorable]
  refine ⟨⟨ticket.session.id, slot⟩, next, rfl, rfl, ?_⟩
  simp only [access, hauth, Node.endSession, hend, transact, if_pos hstores]
  rfl

namespace Accounted

/-- A refused session is discarded, and is then taken back. -/
lemma discard {e : PlaneEvent} {en : Enrollment} {now : ℕ} {ticket : SessionTicket}
    (hs : Accounted C cfg d ((p, h), r)) (hjobs : p.jobs = pre ++ [.enroll en] ++ post)
    (hop : p.operation e = some (.endSession en.created.token now, .stored))
    (hauth : authenticate C p.node.state en.created.token now = .ok ticket) (hl : Lineage C cfg d
      (p.access C cfg (.endSession en.created.token now) .stored pre post (Plane.kicks d),
        h.after C cfg d p e)) : Accounted C cfg d
      ((p.access C cfg (.endSession en.created.token now) .stored pre post (Plane.kicks d),
        h.after C cfg d p e), r.after C cfg p e) := by
  have hen : .enroll en ∈ p.jobs := by simp [hjobs]
  obtain ⟨parts, hparts, hpartsId⟩ := hs.tokens en hen
  have hticket : ticket.session.id = en.created.id := (id_of_authenticate hauth hparts).trans hpartsId
  obtain ⟨b, next, hb, hsessions, haccess⟩ := Node.access_endSession hs.lineage.node hauth
  have heq : p.access C cfg (.endSession en.created.token now) .stored pre post (Plane.kicks d)
      = { p with
          node := { p.node with state := next, file := next }
          jobs := pre ++ [.kick [b] d.controls] ++ post } := by
    unfold Plane.access
    rw [haccess]
    rfl
  have hcreates : p.creates C cfg e = none := by
    simp only [Plane.creates, hop, Option.bind_some]
    rw [haccess]
    rfl
  have hissued : (h.after C cfg d p e).issued = h.issued := by simp [History.after, hcreates]
  have hcreated : (r.after C cfg p e).created = r.created := by simp [Requests.after, hcreates]
  -- the session that is handed over is the one of the enrollment
  have halloc : en.created.allocation ∈ h.issued := hs.lineage.jobs _ hen _ mem_cons_self
  have hbeq : b = en.created.allocation := by
    have hmem : ticket.session ∈ p.node.state.sessions := mem_of_authenticate hauth
    have htransfer := (Node.lands_access (o := .stored) hs.lineage.node
      (.endSession en.created.token now)).ok ⟨[b], none⟩ (by rw [haccess])
    have hrecorded := hs.lineage.recorded b (htransfer.ended b (mem_singleton_self _))
    exact hs.lineage.eq_of_id hrecorded halloc (hb.trans hticket)
  have hids : ∀ id ∈ next.ids, id ∈ p.node.state.ids ∧ id ≠ en.created.id := by
    intro id hid
    obtain ⟨x, hx, rfl⟩ := mem_map.mp hid
    rw [hsessions] at hx
    obtain ⟨hx, hne⟩ := List.mem_filter.mp hx
    refine ⟨mem_map_of_mem hx, ?_⟩
    rw [← hticket]
    simpa using hne
  have hdistinct := hs.distinct
  rw [hjobs] at hdistinct
  simp only [filterMap_append, filterMap_cons, Job.session, append_assoc, singleton_append,
    nodup_middle, nodup_cons, mem_append] at hdistinct
  rw [heq] at hl ⊢
  refine ⟨hl, ?_, ?_, ?_, ?_, hs.configured, ?_⟩
  · rw [hcreated, hissued]
    exact hs.created
  · intro e' he'
    rcases Lineage.mem_replaced hjobs he' with he' | he'
    · exact hs.tokens e' he'
    · cases mem_singleton.mp he'
  · simpa [filterMap_append, filterMap_cons, Job.session] using hdistinct.2
  · intro j hj
    rcases Lineage.mem_replaced hjobs hj with hj | hj
    · exact hs.controls j hj
    · rw [mem_singleton.mp hj]
      exact List.Subset.refl _
  · rw [hissued]
    intro a ha
    rcases hs.accounted a ha with hret | hid | hw
    · exact .inl (mem_append_left _ hret)
    · by_cases haid : a.id = en.created.id
      · obtain rfl : a = en.created.allocation := hs.lineage.eq_of_id ha halloc haid
        refine .inr (.inr ⟨⟨fun id hid => (hids id hid).2, fun id hid => (hids id hid).2⟩, ?_, ?_⟩)
        · simpa [filterMap_append, Job.session, CreatedSession.allocation] using hdistinct.1
        · intro c x hx _
          have hc := (hs.configured c (ne_nil_of_mem hx)).1
          exact ⟨.kick [b] d.controls, by simp, by simp [Job.worksOn, hbeq],
            by simp [Job.kicks, hc, hbeq]⟩
      · refine .inr (.inl ?_)
        rcases mem_session_of_replaced [.kick [b] d.controls] (hjobs ▸ hid) with hid | hid
        · exact hid
        · exact absurd (by simpa [Job.session] using hid) haid
    · refine .inr (.inr ⟨⟨fun id hid => ?_, fun id hid => ?_⟩, ?_, fun c x hx howner => ?_⟩)
      · exact hw.unrecorded.state id (hids id hid).1
      · exact hw.unrecorded.state id (hids id hid).1
      · have hended := hw.ended
        rw [hjobs] at hended
        simp only [filterMap_append, mem_append, not_or] at hended ⊢
        exact ⟨⟨hended.1.1, by simp [Job.session]⟩, hended.2⟩
      · refine (hw.kicked c x hx howner).replaced hjobs rfl fun j hj hworks _ => ?_
        -- the enrollment of a session that is taken back is over
        rw [mem_singleton.mp hj] at hworks
        refine absurd (mem_filterMap.mpr ⟨_, hen, ?_⟩) hw.ended
        exact congrArg some (beq_iff_eq.mp hworks)

/-- Every step of the server under which no request is hindered. -/
lemma step {e : PlaneEvent} (hs : Accounted C cfg d ((p, h), r))
    (hcond : Unhindered C d ((p, h), r) (.serve e)) (hstep : p.serve C cfg d e = some p') :
    Accounted C cfg d ((p', h.after C cfg d p e), r.after C cfg p e) := by
  obtain ⟨⟨hfresh, hstores, hkicks⟩, hadmitted⟩ := hcond
  have hl := hs.lineage.step hfresh hstep
  have hk : p.creates C cfg e = none → Carries h (h.after C cfg d p e) r (r.after C cfg p e) :=
    fun hnone => ⟨by simp [History.after, hnone], by simp [Requests.after, hnone],
      subset_append_left _ _⟩
  cases hs.lineage.serves hfresh hstep with
  | @access _ pre old post op o follow _ _ _ hjobs hop hfollows heq =>
    rw [← heq] at hl ⊢
    cases hfollows with
    | @refuse en now hphase =>
      obtain rfl : o = .stored := by simpa [Plane.storesSucceed, hop] using hstores
      rcases Plane.event_of_endSession hop with rfl | ⟨i, en', rfl, hi, htoken⟩
      · -- a request of the client that releases the session of the same token
        simp only [Plane.serve, Plane.step, Plane.request] at hstep
        split at hstep
        · cases hstep
        · rw [heq, ← Option.some.inj hstep] at hl ⊢
          exact hs.access hfresh hop .releaseSession p.jobs_eq rfl (by simp) hl
      · have hok : (authenticate C p.node.state en.created.token now).isOk = true := by
          simpa [Plane.discardsAdmitted, hi, htoken] using hadmitted
        cases hauth : authenticate C p.node.state en.created.token now with
        | error => simp [hauth, Except.isOk, Except.toBool] at hok
        | ok ticket => exact hs.discard hjobs hop hauth hl
    | record | createGrant | updateGrant | revokeGrant | createSession | renewSession
    | releaseSession | expireSessions =>
      exact hs.access hfresh hop (by constructor) hjobs rfl (by simp [Job.kicks]) hl
  | call hjobs hi hpending =>
    refine hs.call hl (hk rfl) hjobs
      (Job.calls_of_pending hpending) ?_
    rintro sessions rfl
    simpa [Plane.kicksSucceed, Plane.next, hi, hpending] using hkicks
  | @resume i o pre j post new hjobs hi hresume =>
    have hsession := Job.resume_session hresume
    have hspec := Job.resume_spec hresume
    refine hs.replace hl rfl (hk rfl) hjobs rfl ?_ hspec.2 ?_ ?_ (fun _ => rfl)
      fun j hj c => by rw [mem_singleton.mp hj, (hspec.1 c).1]
    · intro e' he'
      obtain ⟨e'', phase, rfl, heq⟩ := Job.mem_resume hresume _ he'
      cases heq
      exact ⟨e''.phase, mem_singleton_self _⟩
    · rcases hsession with heq | ⟨rfl, -⟩
      · rw [heq]
        cases hjs : j.session <;> simp [hjs]
      · exact nil_sublist _
    · intro id hid
      have hid : j.session = some id := by simpa using hid
      rcases hsession with heq | ⟨rfl, hreturns⟩
      · exact .inl (by simp [heq, hid])
      · refine .inr (mem_append_right _ ?_)
        simp [Plane.returns, hi, hreturns, hid]
  | quiet hnode hheld hjobs hjobs' hold hnew hcreates =>
    have hsession : ∀ jobs : List Job, (∀ j ∈ jobs, j.isMeter = true) →
        jobs.filterMap Job.session = [] := fun jobs hjobs =>
      filterMap_eq_nil_iff.mpr fun j hj => (Job.idle_of_isMeter (hjobs j hj)).1
    refine hs.replace hl hnode (hk hcreates) hjobs hjobs'
      (fun e he => absurd (hnew _ he) (by simp [Job.isMeter])) (fun j hj => ?_) ?_ ?_ hheld
      fun j hj => (Job.idle_of_isMeter (hold j hj)).2.1
    · rw [(Job.idle_of_isMeter (hnew j hj)).2.2]
      exact nil_subset _
    · rw [hsession _ hnew]
      exact nil_sublist _
    · rw [hsession _ hold]
      exact forall_mem_nil _

lemma initial (now : ℕ) : Accounted C cfg d ((Plane.running now, History.none), Requests.none) :=
  ⟨Lineage.initial now, rfl, fun _ he => absurd he not_mem_nil, nodup_nil,
    forall_mem_nil _, fun _ hne => absurd rfl hne, forall_mem_nil _⟩

end Accounted

end Steps

/-! ### Half enrollments -/

section Theorem

variable {C : Crypto} {cfg : Config} {d : DataPlane} {now : ℕ} {s : (Plane × History) × Requests}

lemma accounted_of_reachable (hs : (requestSystem C cfg d now).Reachable (Unhindered C d) s) :
    Accounted C cfg d s := by
  refine hs.invariant (Accounted.initial now) ?_
  rintro ⟨⟨p, h⟩, r⟩ e s' - hs hcond hstep
  match e with
  | .serve e =>
    obtain ⟨⟨p', h'⟩, hserve, rfl⟩ := Option.map_eq_some_iff.mp hstep
    obtain ⟨hserve, rfl⟩ := System.withHistory_step.mp hserve
    exact hs.step hcond hserve
  | .drop _ | .dropAdmitting .. | .dropDiscarding .. => exact absurd hcond id

/-- A job that enrolls a session works on it. -/
lemma Job.worksOn_of_session {j : Job} {id : String} (hid : j.session = some id) :
    j.worksOn id = true := by
  cases j with
  | enroll e =>
    cases hid
    exact beq_self_eq_true _
  | _ => cases hid

/-- **No half enrollment.**  In every run in which no request is dropped once its session is being
stored, and in which a session that is refused can still be discarded, a session whose manifest was
not returned and on which nothing works any more has left nothing behind. -/
theorem no_half_enrollment
    (hs : (requestSystem C cfg d now).Reachable (Unhindered C d) s) {id : String}
    (hid : id ∈ s.2.created) (hreturned : id ∉ s.2.returned)
    (hwork : s.1.1.jobs.any (·.worksOn id) = false) : s.1.1.Cleared id := by
  have hacc := accounted_of_reachable hs
  have hidle : ∀ j ∈ s.1.1.jobs, ¬ j.worksOn id = true := by simpa using hwork
  rw [hacc.created] at hid
  obtain ⟨a, ha, rfl⟩ := mem_map.mp hid
  rcases hacc.accounted a ha with hret | henroll | hw
  · exact absurd hret hreturned
  · obtain ⟨j, hj, hsession⟩ := mem_filterMap.mp henroll
    exact absurd (Job.worksOn_of_session hsession) (hidle j hj)
  · refine ⟨fun hmem => hw.unrecorded.state _ hmem rfl, fun hmem => hw.unrecorded.file _ hmem rfl,
      fun c x hx howner => ?_⟩
    obtain ⟨j, hj, hworks, -⟩ := hw.kicked c x hx howner
    exact hidle j hj hworks

/-- An engine fails while a device is provisioned.  Its session is rolled back and refused. -/
def refusedEnrolling : List RequestEvent :=
  List.map RequestEvent.serve <| Sample.asking ++ Sample.sweep 0 ++
    [.advance 0 .ok, .advance 0 (.failed 0), .advance 0 .ok, .advance 0 .ok,
      .proceed 0 12 .stored] ++ Sample.sweep 0

theorem no_half_enrollment_refused :
    ∃ s, (requestSystem Sample.crypto Sample.config Sample.dataPlane 10).Reachable
        (Unhindered Sample.crypto Sample.dataPlane) s ∧
      "Session00001" ∈ s.2.created ∧ "Session00001" ∉ s.2.returned ∧
      s.1.1.jobs.any (·.worksOn "Session00001") = false ∧ s.1.1.Cleared "Session00001" := by
  obtain ⟨s, hs, hid, hreturned, hwork⟩ := System.exists_reachable_of_run
    (requestSystem Sample.crypto Sample.config Sample.dataPlane 10)
    (Unhindered Sample.crypto Sample.dataPlane)
    (fun s => "Session00001" ∈ s.2.created ∧ "Session00001" ∉ s.2.returned ∧
      s.1.1.jobs.any (·.worksOn "Session00001") = false)
    refusedEnrolling (by decide +kernel)
  exact ⟨s, hs, hid, hreturned, hwork, no_half_enrollment hs hid hreturned hwork⟩

/-- A device is provisioned at one engine when its request is dropped. -/
def droppedEnrolling : List RequestEvent :=
  List.map RequestEvent.serve (Sample.asking ++ Sample.sweep 0 ++ [.advance 0 .ok]) ++ [.drop 0]

/-- A request that is dropped while it provisions leaves its session recorded and at an engine. -/
theorem dropped_enrollment_stays :
    ∃ s, (requestSystem Sample.crypto Sample.config Sample.dataPlane 10).Reachable
        (Undisturbed Sample.dataPlane) s ∧
      "Session00001" ∈ s.2.created ∧ "Session00001" ∉ s.2.returned ∧
      s.1.1.jobs.any (·.worksOn "Session00001") = false ∧ "Session00001" ∈ s.1.1.node.state.ids ∧
      ∃ x ∈ (s.1.1.table .xray).entries, x.owner = "Session00001" :=
  System.exists_reachable_of_run _ _ _ droppedEnrolling (by decide +kernel)

end Theorem

end Ket.Server
