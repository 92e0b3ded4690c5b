import Ket.Server.Serving

/-!
# The ports and addresses of the sessions that are served

A resource slot is free for the next session as soon as its session has ended in the state, and
the Shadowsocks server and the WireGuard peer of the slot are removed after that, by port and
address.  An enrollment that takes over the slot of an expired session kicks that one itself before
it provisions its own.

`OnOwnSlots` says of a call about a session that no session that has its slot by then was provisioned
at the engine before.  In runs of such calls a session that has been provisioned keeps its port and
its address while it is recorded, and no kick of another session takes them (`keeps_place`).  A kick
that comes later takes them from the session that has the slot.
-/

namespace Ket.Server

open Ket.Core Ket.Lib List Option Function

/-- The session that the engine is yet to be called to provision. -/
def Job.awaits (c : Control) : Job → Option String
  | .enroll ⟨created, _, _, .kickExpired _⟩ => some created.id
  | .enroll ⟨created, _, _, .provision rest _⟩ => if c ∈ rest then some created.id else none
  | _ => none

namespace Plane

variable (d : DataPlane)

/-- The event calls Shadowsocks or WireGuard only about sessions whose resource slot is their own,
or has been taken over by a session that the engine is yet to be called to provision. -/
def OnOwnSlots (p : Plane) (e : PlaneEvent) : Prop :=
  ∀ x ∈ p.next e, x.1.byPlace = true → ∀ a ∈ x.2.1.sessions, ∀ r ∈ p.node.state.sessions,
    r.resourceSlot = some a.resourceSlot → r.id = a.id ∨ r.id ∈ p.jobs.filterMap (Job.awaits x.1)

instance (p : Plane) (e : PlaneEvent) : Decidable (p.OnOwnSlots e) :=
  inferInstanceAs (Decidable (∀ x ∈ p.next e, _))

/-- The session has the port or address of its slot at the engine. -/
def HeldAt (p : Plane) (c : Control) (a : SessionAllocation) : Prop :=
  ∀ q ∈ c.place d a.resourceSlot, (p.table c).holder q = some a.id

end Plane

/-- The session that an enrollment has yet to provision, or takes back. -/
def Job.enrolling : Job → Option String
  | .enroll ⟨created, _, _, .kickExpired _⟩ => some created.id
  | .enroll ⟨created, _, _, .provision (_ :: _) _⟩ => some created.id
  | .enroll ⟨created, _, _, .rollback _⟩ => some created.id
  | _ => none

/-- The invariant of runs in which no call is about a slot that was provisioned for another. -/
structure Settled (C : Crypto) (cfg : Config) (d : DataPlane) (s : Plane × History) : Prop where
  lineage : Lineage C cfg d s
  completed : ∀ id ∈ s.2.completed, ∃ a ∈ s.2.issued, a.id = id
  ended : ∀ j ∈ s.1.jobs, ∀ c, ∀ a ∈ j.kicks c, ∀ b, s.1.node.state.Records b → b.id ≠ a.id
  distinct : (s.1.jobs.filterMap Job.enrolling).Nodup
  enrolling : ∀ id ∈ s.1.jobs.filterMap Job.enrolling, id ∉ s.2.completed
  progress : ∀ e c rest done, .enroll e ∈ s.1.jobs → e.phase = .provision (c :: rest) done →
    (c :: rest).Nodup ∧ d.controls ⊆ done ++ c :: rest ∧
      (s.1.node.state.Records e.created.allocation →
        ∀ c' ∈ done, s.1.HeldAt d c' e.created.allocation)
  unheld : ∀ c, ∀ id ∈ s.1.jobs.filterMap (Job.awaits c), ∀ x ∈ (s.1.table c).entries, x.owner ≠ id
  held : ∀ a, s.1.node.state.Records a → a.id ∈ s.2.completed →
    ∀ c ∈ d.controls, s.1.HeldAt d c a

namespace Job

variable {j : Job} {c : Control} {k : ControlCall} {a : SessionAllocation}

/-- The sessions that a call is about have ended, or are the one of its enrollment. -/
lemma Calls.mem_sessions (h : j.Calls c k) (hj : j.isServing = true) (ha : a ∈ k.sessions) :
    a ∈ j.kicks c ∨ j.enrolling = some a.id := by
  cases h with
  | reconcile => cases hj
  | provision | rollback =>
    rw [mem_singleton.mp ha]
    exact .inr rfl
  | _ => exact .inl (by simpa [kicks, ControlCall.sessions] using ha)

lemma Calls.enrolling_of_installs (h : j.Calls c k) (hj : j.isServing = true) :
    ∀ a ∈ k.installs, j.enrolling = some a.id := by
  intro a ha
  cases h with
  | reconcile => cases hj
  | provision =>
    rw [mem_singleton.mp ha]
    rfl
  | kick | kickExpired | rollback => cases ha

lemma Calls.ne_reconcile (h : j.Calls c k) (hj : j.isServing = true) :
    ∀ sessions, k ≠ .reconcile sessions := by
  rintro sessions rfl
  cases h
  cases hj

lemma kicks_subset_allocations (c : Control) (j : Job) : j.kicks c ⊆ j.allocations := by
  match j with
  | .kick sessions rest =>
    simp only [kicks]
    split
    · exact List.Subset.refl _
    · exact nil_subset _
  | .enroll ⟨_, _, _, .kickExpired rest⟩ =>
    simp only [kicks]
    split
    · exact subset_cons_self _ _
    · exact nil_subset _
  | .enroll ⟨_, _, _, .provision ..⟩ | .enroll ⟨_, _, _, .rollback _⟩ | .enroll ⟨_, _, _, .refuse⟩
  | .startup | .reconcile .. | .meter .. | .record _ => exact nil_subset _

/-- The session of an enrollment that is not completed is one that the job is about. -/
lemma exists_of_enrolling {id : String} (h : j.enrolling = some id) :
    ∃ e, j = .enroll e ∧ e.created.id = id := by
  match j with
  | .enroll ⟨_, _, _, .kickExpired _⟩ | .enroll ⟨_, _, _, .provision (_ :: _) _⟩
  | .enroll ⟨_, _, _, .rollback _⟩ => exact ⟨_, rfl, Option.some.inj h⟩

/-- The meter enrolls and kicks no session. -/
lemma of_isMeter (h : j.isMeter = true) :
    j.enrolling = none ∧ ∀ c, j.kicks c = [] ∧ j.awaits c = none := by
  cases j with
  | meter | record => exact ⟨rfl, fun _ => ⟨rfl, rfl⟩⟩
  | _ => cases h

/-- A session that waits for an engine is one that is enrolled. -/
lemma enrolling_of_awaits {id : String} (h : j.awaits c = some id) : j.enrolling = some id := by
  match j with
  | .enroll ⟨_, _, _, .kickExpired _⟩ => exact h
  | .enroll ⟨_, _, _, .provision [] _⟩ => simp [awaits] at h
  | .enroll ⟨_, _, _, .provision (_ :: _) _⟩ =>
    simp only [awaits] at h
    split at h
    · exact h
    · cases h

/-- A session still waits for an engine after a call if the call has not provisioned it there. -/
lemma Calls.awaits_after {id : String} {ok : Bool} {c' : Control} (h : j.Calls c k)
    (hnodup : ∀ e rest done, j = .enroll e → e.phase = .provision (c :: rest) done →
      (c :: rest).Nodup) (hid : (j.after ok).awaits c' = some id) :
    j.awaits c' = some id ∧ (c' = c → k.installs = []) := by
  cases h with
  | reconcile | kick | rollback => cases hid
  | kickExpired => exact ⟨hid, fun _ => rfl⟩
  | provision =>
    cases ok with
    | false => cases hid
    | true =>
      obtain ⟨hnot, -⟩ := nodup_cons.mp (hnodup _ _ _ rfl rfl)
      obtain ⟨hmem, rfl⟩ : c' ∈ _ ∧ _ = id := by simpa [after, EnrollPhase.after, awaits] using hid
      exact ⟨by simp [awaits, hmem], fun hc => absurd (hc ▸ hmem) hnot⟩

/-- A call does not make a job kick more. -/
lemma Calls.kicks_after_subset (h : j.Calls c k) (ok : Bool) (c' : Control) :
    (j.after ok).kicks c' ⊆ j.kicks c' := by
  intro a ha
  cases h with
  | reconcile => exact ha
  | kick =>
    simp only [after, kicks] at ha ⊢
    split at ha
    · rename_i hmem
      rwa [if_pos (mem_cons_of_mem _ hmem)]
    · cases ha
  | kickExpired =>
    simp only [after, EnrollPhase.after, kicks] at ha ⊢
    split at ha
    · rename_i hmem
      rwa [if_pos (mem_cons_of_mem _ hmem)]
    · cases ha
  | provision => cases ok <;> exact ha
  | rollback => exact ha

/-- After a call an enrollment is still provisioning only if the call was one that went through. -/
lemma Calls.of_after {e : Enrollment} {c' : Control} {rest done : List Control} {ok : Bool}
    (h : j.Calls c k) (he : .enroll e = j.after ok) (hphase : e.phase = .provision (c' :: rest) done) :
    ok = true ∧ k = .provision e.created.allocation ∧
      ∃ done', done = c :: done' ∧
        j = .enroll { e with phase := .provision (c :: c' :: rest) done' } := by
  cases h with
  | reconcile => cases he
  | kick => cases he
  | provision =>
    cases ok with
    | true =>
      cases he
      cases hphase
      exact ⟨rfl, rfl, _, rfl, rfl⟩
    | false =>
      cases he
      cases hphase
  | _ =>
    cases he
    cases hphase

/-- An enrollment that goes on without a call begins to provision its session, or is over. -/
lemma resume_enrolling {d : DataPlane} {new : List Job} (h : j.resume d = some new) :
    (∀ j' ∈ new, ∀ c, j'.kicks c = []) ∧
      (new.filterMap enrolling).Sublist ([j].filterMap enrolling) ∧
      (∀ c, new.filterMap (awaits c) ⊆ [j].filterMap (awaits c)) ∧
      ∀ e c rest done, .enroll e ∈ new → e.phase = .provision (c :: rest) done →
        (c :: rest).Nodup ∧ d.controls ⊆ done ++ c :: rest ∧ done = [] := by
  cases resumes_of_resume h with
  | kicked | done => exact ⟨by simp, nil_sublist _, by simp, by simp⟩
  | provision =>
    refine ⟨by simp [kicks], ?_, fun c => ?_, ?_⟩
    · cases d.controls with
      | nil => exact nil_sublist _
      | cons => exact List.Sublist.refl _
    · by_cases hc : c ∈ d.controls <;> simp [awaits, hc]
    · intro e c rest done he hphase
      rw [Job.enroll.inj (mem_singleton.mp he)] at hphase
      obtain ⟨hcontrols, rfl⟩ := EnrollPhase.provision.inj hphase
      have hnodup : d.controls.Nodup := d.collected.nodup (by decide)
      rw [hcontrols] at hnodup ⊢
      exact ⟨hnodup, List.Subset.refl _, rfl⟩
  | refuse =>
    refine ⟨by simp [kicks], nil_sublist _, fun c => nil_subset _,
      fun e c rest done he hphase => ?_⟩
    rw [Job.enroll.inj (mem_singleton.mp he)] at hphase
    cases hphase

end Job

namespace Settled

variable {C : Crypto} {cfg : Config} {d : DataPlane} {p p' : Plane} {h h' : History}
  {pre old new post : List Job}

/-- The enrollments after a step, when those of the jobs that are replaced become fewer. -/
lemma enrolling_replaced (hjobs : p.jobs = pre ++ old ++ post)
    (hnew : (new.filterMap Job.enrolling).Sublist (old.filterMap Job.enrolling)) :
    ((pre ++ new ++ post).filterMap Job.enrolling).Sublist (p.jobs.filterMap Job.enrolling) := by
  rw [hjobs]
  simp only [filterMap_append]
  exact (hnew.append_left _).append_right _

/-- The state and what the engines hold stay as they are, and no session is completed. -/
lemma replace (hs : Settled C cfg d (p, h)) (hl : Lineage C cfg d (p', h'))
    (hnode : p'.node = p.node) (hheld : ∀ c, (p'.table c).held = (p.table c).held)
    (hissued : h'.issued = h.issued) (hcompleted : h'.completed = h.completed)
    (hjobs : p.jobs = pre ++ old ++ post) (hjobs' : p'.jobs = pre ++ new ++ post)
    (hkicks : ∀ j ∈ new, ∀ c, j.kicks c = [])
    (henrolling : (new.filterMap Job.enrolling).Sublist (old.filterMap Job.enrolling))
    (hawaits : ∀ c, new.filterMap (Job.awaits c) ⊆ old.filterMap (Job.awaits c))
    (hprogress : ∀ e c rest done, .enroll e ∈ new → e.phase = .provision (c :: rest) done →
      (c :: rest).Nodup ∧ d.controls ⊆ done ++ c :: rest ∧ done = []) :
    Settled C cfg d (p', h') := by
  have hsub := enrolling_replaced hjobs henrolling
  have hkeeps : ∀ c a, p.HeldAt d c a → p'.HeldAt d c a := fun c a ha q hq =>
    Table.holder_of_held (hheld c) (ha q hq)
  refine ⟨hl, ?_, ?_, ?_, ?_, ?_, ?_, ?_⟩
  · rw [hcompleted, hissued]
    exact hs.completed
  · rw [hjobs', hnode]
    intro j hj c a ha
    rcases Lineage.mem_replaced hjobs hj with hj | hj
    · exact hs.ended j hj c a ha
    · rw [hkicks j hj c] at ha
      cases ha
  · rw [hjobs']
    exact hs.distinct.sublist hsub
  · rw [hjobs', hcompleted]
    exact fun id hid => hs.enrolling id (hsub.subset hid)
  · rw [hjobs', hnode]
    intro e c rest done he hphase
    rcases Lineage.mem_replaced hjobs he with he | he
    · obtain ⟨hnodup, hcontrols, hdone⟩ := hs.progress e c rest done he hphase
      exact ⟨hnodup, hcontrols, fun hr c' hc' => hkeeps c' _ (hdone hr c' hc')⟩
    · obtain ⟨hnodup, hcontrols, rfl⟩ := hprogress e c rest done he hphase
      exact ⟨hnodup, hcontrols, by simp⟩
  · intro c id hid x hx
    obtain ⟨y, hy, howner, -⟩ := Table.exists_of_held (hheld c) hx
    rw [← howner]
    refine hs.unheld c id ?_ y hy
    have hsub := hawaits c (a := id)
    simp only [hjobs, hjobs', filterMap_append, mem_append] at hid ⊢
    tauto
  · rw [hnode, hcompleted]
    exact fun a ha hid c hc => hkeeps c a (hs.held a ha hid c hc)

variable {c c' : Control} {i : ℕ} {j : Job} {k : ControlCall} {o : CallOutcome} {op : Access}
  {e : PlaneEvent} {handed : Handed} {n : Node}

/-- What becomes of an enrollment in a call: it stays open, or the call was its last provision. -/
lemma enrolling_after (hi : p.jobs[i]? = some j) (hcalls : j.Calls c k) :
    ((j.after (c.call d (p.table c) k o).2).enrolling = j.enrolling ∧
        p.completes d (.advance i o) = none) ∨
      ∃ e done, j = .enroll e ∧ e.phase = .provision [c] done ∧
        k = .provision e.created.allocation ∧ (c.call d (p.table c) k o).2 = true ∧
        (j.after (c.call d (p.table c) k o).2).enrolling = none ∧
        p.completes d (.advance i o) = some e.created.id := by
  cases hcalls with
  | @provision created _ _ _ rest done =>
    cases hok : (c.call d (p.table c) (.provision created.allocation) o).2 with
    | false =>
      refine .inl ⟨rfl, ?_⟩
      cases rest <;> simp [Plane.completes, hi, hok]
    | true =>
      cases rest with
      | nil => exact .inr ⟨_, done, rfl, rfl, rfl, rfl, rfl, by simp [Plane.completes, hi, hok]⟩
      | cons => exact .inl ⟨rfl, by simp [Plane.completes, hi]⟩
  | _ => exact .inl ⟨rfl, by simp [Plane.completes, hi]⟩

/-- No other job enrolls the session of an enrollment. -/
lemma enrolling_ne (hs : Settled C cfg d (p, h)) (hjobs : p.jobs = pre ++ [j] ++ post) {id : String}
    (hid : id ∈ (pre ++ post).filterMap Job.enrolling) : j.enrolling ≠ some id := by
  intro hj
  have hdistinct := hs.distinct
  simp only [hjobs, filterMap_append, filterMap_cons, hj, append_assoc,
    singleton_append] at hdistinct
  rw [nodup_middle, nodup_cons, ← filterMap_append] at hdistinct
  exact hdistinct.1 hid

/-- A session that is provisioned at one more engine is at those before it, too. -/
lemma heldAt_provisioned {a : SessionAllocation} {done : List Control}
    (hdone : ∀ c' ∈ done, p.HeldAt d c' a) (hok : (c.call d (p.table c) (.provision a) o).2 = true)
    (hc' : c' ∈ c :: done)
    (htable : p'.table = update p.table c (c.call d (p.table c) (.provision a) o).1) :
    p'.HeldAt d c' a := by
  intro q hq
  rw [htable]
  by_cases hc : c' = c
  · subst hc
    rw [update_self]
    exact Control.holder_provision hok hq
  · rw [update_of_ne hc]
    exact hdone c' ((mem_cons.mp hc').resolve_left hc) q hq

/-- A job after a call is another one than the one that calls, or what this has become. -/
lemma mem_after (hjobs : p.jobs = pre ++ [j] ++ post) {j' after : Job}
    (hj' : j' ∈ pre ++ [after] ++ post) : (j' ∈ pre ++ post ∧ j' ∈ p.jobs) ∨ j' = after := by
  simp only [hjobs, mem_append, mem_singleton] at hj' ⊢
  tauto

section Call

variable (hs : Settled C cfg d (p, h)) (hown : p.OnOwnSlots (.advance i o))
  (hi : p.jobs[i]? = some j) (hpending : j.pending = some (c, k))

include hs hown hi hpending

/-- A call leaves what an engine holds for a session that is recorded, if it is not about it. -/
lemma mem_call {b : SessionAllocation} {x : Entry} (hb : p.node.state.Records b)
    (hne : ∀ a ∈ k.sessions, a.id ≠ b.id) (hx : x ∈ (p.table c).entries)
    (howner : x.owner = b.id) : x ∈ (c.call d (p.table c) k o).1.entries := by
  have hserving := hs.lineage.serving j (mem_of_getElem? hi)
  refine Control.mem_call_of_other ((Job.calls_of_pending hpending).ne_reconcile hserving) hx ?_
  refine fun a ha => ⟨fun hid => hne a ha (hid.symm.trans howner), fun hplace heq => ?_⟩
  obtain ⟨b', hb', hid, hxplace⟩ := hs.lineage.entries c x hx
  obtain rfl := hs.lineage.eq_of_id hb' (hs.lineage.recorded b hb) (hid.symm.trans howner)
  have hslot : a.resourceSlot = b'.resourceSlot := by
    rcases hxplace with hxplace | ⟨rfl, hnone⟩
    · rw [hxplace] at heq
      cases c with
      | shadowsocks | wireguard => simpa [Control.place] using heq.symm
      | _ => cases hplace
    · rw [hnone] at heq
      cases heq
  obtain ⟨r, hr, hrid, hrslot⟩ := hb
  rcases hown (c, k, o) (by simp [Plane.next, hi, hpending]) hplace a ha r hr
    (by rw [hrslot, hslot]) with hid | hid
  · exact hne a ha (hid.symm.trans hrid)
  · -- the engine holds nothing of a session that it is yet to provision
    exact hs.unheld c r.id hid x hx (howner.trans hrid.symm)

variable (htable : p'.table = update p.table c (c.call d (p.table c) k o).1)

include htable

lemma heldAt_call {b : SessionAllocation} (hb : p.node.state.Records b)
    (hother : j.enrolling ≠ some b.id) (hheld : p.HeldAt d c' b) : p'.HeldAt d c' b := by
  intro q hq
  rw [htable]
  by_cases hc : c' = c
  · subst hc
    rw [update_self]
    obtain ⟨x, hx, hplace, howner⟩ := Table.holder_eq_some.mp (hheld q hq)
    refine Table.holder_eq_some.mpr ⟨x, ?_, hplace, howner⟩
    refine hs.mem_call hown hi hpending hb (fun a ha hid => ?_) hx howner
    have hj := mem_of_getElem? hi
    rcases (Job.calls_of_pending hpending).mem_sessions (hs.lineage.serving j hj) ha with ha | ha
    · exact hs.ended j hj c' a ha b hb hid.symm
    · exact hother (by rw [ha, hid])
  · rw [update_of_ne hc]
    exact hheld q hq

variable (hjobs : p.jobs = pre ++ [j] ++ post)

include hjobs

/-- An enrollment has been at the engines that it is done with. -/
lemma progress_call {e : Enrollment} {rest done : List Control}
    (he : .enroll e ∈ pre ++ [j.after (c.call d (p.table c) k o).2] ++ post)
    (hphase : e.phase = .provision (c' :: rest) done) :
    (c' :: rest).Nodup ∧ d.controls ⊆ done ++ c' :: rest ∧
      (p.node.state.Records e.created.allocation →
        ∀ c'' ∈ done, p'.HeldAt d c'' e.created.allocation) := by
  have hj := mem_of_getElem? hi
  rcases mem_after hjobs he with ⟨he, hjob⟩ | he
  · obtain ⟨hnodup, hcontrols, hdone⟩ := hs.progress e c' rest done hjob hphase
    refine ⟨hnodup, hcontrols, fun hr c'' hc'' =>
      hs.heldAt_call hown hi hpending htable hr ?_ (hdone hr c'' hc'')⟩
    refine hs.enrolling_ne hjobs (mem_filterMap.mpr ⟨_, he, ?_⟩)
    obtain ⟨_, _, _, phase⟩ := e
    cases hphase
    rfl
  · obtain ⟨hok, rfl, done', rfl, rfl⟩ := (Job.calls_of_pending hpending).of_after he hphase
    obtain ⟨hnodup, hcontrols, hdone⟩ := hs.progress _ c (c' :: rest) done' hj rfl
    refine ⟨hnodup.of_cons, fun x hx => ?_, fun hr c'' hc'' =>
      heldAt_provisioned (hdone hr) hok hc'' htable⟩
    have hx := hcontrols hx
    simp only [mem_append, mem_cons] at hx ⊢
    tauto

omit hown in
/-- What an engine is yet to be called for was so before, and the call has not installed it. -/
lemma unheld_call {id : String} (hid : id ∈
      (pre ++ [j.after (c.call d (p.table c) k o).2] ++ post).filterMap (Job.awaits c')) :
    ∀ x ∈ (p'.table c').entries, x.owner ≠ id := by
  have hj := mem_of_getElem? hi
  have hcalls := Job.calls_of_pending hpending
  have hmem : id ∈ p.jobs.filterMap (Job.awaits c') ∧ (c' = c → ∀ a ∈ k.installs, a.id ≠ id) := by
    obtain ⟨j', hj', hid⟩ := mem_filterMap.mp hid
    rcases mem_after hjobs hj' with ⟨hj', hjob⟩ | rfl
    · refine ⟨mem_filterMap.mpr ⟨j', hjob, hid⟩, fun _ a ha heq => ?_⟩
      -- what is installed is the session of the job that calls
      refine hs.enrolling_ne hjobs (mem_filterMap.mpr ⟨j', hj', Job.enrolling_of_awaits hid⟩) ?_
      rw [hcalls.enrolling_of_installs (hs.lineage.serving j hj) a ha, heq]
    · obtain ⟨hid, hnone⟩ := hcalls.awaits_after (fun e rest done he hphase =>
        (hs.progress e c rest done (he ▸ hj) hphase).1) hid
      exact ⟨mem_filterMap.mpr ⟨j, hj, hid⟩, fun hc => by simp [hnone hc]⟩
  intro x hx
  rw [htable] at hx
  by_cases hc : c' = c
  · subst hc
    rw [update_self] at hx
    exact Control.forall_call (P := fun owner _ => owner ≠ id) (hs.unheld c' id hmem.1)
      (hmem.2 rfl) (fun _ _ _ _ _ hP => hP) x hx
  · rw [update_of_ne hc] at hx
    exact hs.unheld c' id hmem.1 x hx

end Call

lemma call (hs : Settled C cfg d (p, h)) (hown : p.OnOwnSlots (.advance i o))
    (hjobs : p.jobs = pre ++ [j] ++ post) (hi : p.jobs[i]? = some j)
    (hpending : j.pending = some (c, k)) (hp' : p' = { p with
      table := update p.table c (c.call d (p.table c) k o).1
      jobs := pre ++ [j.after (c.call d (p.table c) k o).2] ++ post })
    (hl : Lineage C cfg d (p', h.after C cfg d p (.advance i o))) :
    Settled C cfg d (p', h.after C cfg d p (.advance i o)) := by
  have hcalls := Job.calls_of_pending hpending
  have hj : j ∈ p.jobs := mem_of_getElem? hi
  have hnode : p'.node = p.node := by rw [hp']
  have htable : p'.table = update p.table c (c.call d (p.table c) k o).1 := by rw [hp']
  have hjobs' : p'.jobs = pre ++ [j.after (c.call d (p.table c) k o).2] ++ post := by rw [hp']
  have hissued : (h.after C cfg d p (.advance i o)).issued = h.issued := append_nil _
  have hcompleted : (h.after C cfg d p (.advance i o)).completed
      = h.completed ++ (p.completes d (.advance i o)).toList := rfl
  have hafter := enrolling_after (d := d) (o := o) hi hcalls
  have hsub : (p'.jobs.filterMap Job.enrolling).Sublist (p.jobs.filterMap Job.enrolling) := by
    rw [hjobs']
    refine enrolling_replaced hjobs ?_
    rcases hafter with ⟨hsame, -⟩ | ⟨_, _, -, -, -, -, hnone, -⟩
    · simp [filterMap_cons, hsame]
    · simp [filterMap_cons, hnone]
  refine ⟨hl, ?_, ?_, hs.distinct.sublist hsub, ?_, ?_, ?_, ?_⟩
  · intro id hid
    rw [hissued]
    rcases mem_append.mp hid with hid | hid
    · exact hs.completed id hid
    · rcases hafter with ⟨-, hnone⟩ | ⟨e, _, rfl, -, -, -, -, hsome⟩
      · simp [hnone] at hid
      · simp only [hsome, toList_some, mem_singleton] at hid
        exact ⟨_, hs.lineage.jobs _ hj _ mem_cons_self, hid.symm⟩
  · rw [hjobs', hnode]
    intro j' hj' c' a ha
    rcases Lineage.mem_replaced hjobs hj' with hj' | hj'
    · exact hs.ended j' hj' c' a ha
    · rw [mem_singleton.mp hj'] at ha
      exact hs.ended j hj c' a (hcalls.kicks_after_subset _ c' ha)
  · intro id hid hmem
    rcases mem_append.mp hmem with hmem | hmem
    · exact hs.enrolling id (hsub.subset hid) hmem
    · rcases hafter with ⟨-, hnone⟩ | ⟨e, done, rfl, hphase, -, -, hgone, hsome⟩
      · simp [hnone] at hmem
      · -- the session that is completed now is no longer one that is enrolled
        simp only [hsome, toList_some, mem_singleton] at hmem
        rw [hjobs'] at hid
        have hrest : id ∈ (pre ++ post).filterMap Job.enrolling := by
          simpa [filterMap_append, filterMap_cons, hgone] using hid
        refine hs.enrolling_ne hjobs hrest ?_
        obtain ⟨created, _, _, phase⟩ := e
        cases hphase
        rw [hmem]
        rfl
  · rw [hjobs', hnode]
    exact fun e c' rest done => hs.progress_call hown hi hpending htable hjobs
  · rw [hjobs']
    exact fun c' id => hs.unheld_call hi hpending htable hjobs
  · rw [hnode]
    intro a ha hid c' hc'
    rcases mem_append.mp hid with hid | hid
    · refine hs.heldAt_call hown hi hpending htable ha (fun hj' => ?_) (hs.held a ha hid c' hc')
      exact hs.enrolling a.id (mem_filterMap.mpr ⟨j, hj, hj'⟩) hid
    · rcases hafter with ⟨-, hnone⟩ | ⟨e, done, rfl, hphase, rfl, hok, -, hsome⟩
      · simp [hnone] at hid
      · simp only [hsome, toList_some, mem_singleton] at hid
        obtain rfl : a = e.created.allocation := hs.lineage.eq_of_id (hs.lineage.recorded a ha)
          (hs.lineage.jobs _ hj _ mem_cons_self) hid
        obtain ⟨-, hcontrols, hdone⟩ := hs.progress e c [] done hj hphase
        refine heldAt_provisioned (hdone ha) hok ?_ htable
        simpa [or_comm] using hcontrols hc'

/-- The jobs in whose place an operation is made enroll nothing. -/
lemma enrolling_of_follows {follow : Handed → List Job} (h : Follows d old op follow) :
    old.filterMap Job.enrolling = [] := by
  cases h with
  | @refuse e _ hphase =>
    obtain ⟨_, _, _, phase⟩ := e
    cases hphase
    rfl
  | _ => rfl

lemma completes_of_operation {o : StoreOutcome} (h : p.operation e = some (op, o)) :
    p.completes d e = none := by
  cases e with
  | advance => cases h
  | _ => rfl

lemma completes_of_resume (hi : p.jobs[i]? = some j) (h : j.resume d = some new) :
    p.completes d (.advance i o) = none := by
  simp only [Plane.completes, hi]
  split
  · rename_i heq
    cases heq
    cases h
  · rfl

/-- The sessions that are enrolled after an operation. -/
lemma enrolling_handover (hh : Handover C cfg d p h n handed new) :
    ((pre ++ new ++ post).filterMap Job.enrolling).Sublist
      (pre.filterMap Job.enrolling ++ (handed.created.map CreatedSession.id).toList ++
        post.filterMap Job.enrolling) := by
  simp only [filterMap_append]
  refine List.Sublist.append_right (List.Sublist.append_left ?_ _) _
  rcases hh.jobs with rfl | rfl | ⟨created, hc, _, _, rfl⟩
  · exact nil_sublist _
  · exact nil_sublist _
  · rw [mem_def.mp hc]
    exact List.Sublist.refl _

/-- A session that has ended is not recorded again. -/
lemma ne_of_ended (hs : Settled C cfg d (p, h)) (hh : Handover C cfg d p h n handed new) :
    ∀ a ∈ handed.ended, ∀ b, n.state.Records b → b.id ≠ a.id := by
  intro a ha b hb hid
  obtain ⟨created, hc, rfl⟩ := mem_map.mp (hh.transfer.gone a ha b hb hid)
  exact hh.fresh created hc a (hs.lineage.recorded a (hh.transfer.ended a ha)) hid.symm

/-- A session that is recorded was so before, or was created with a new ID. -/
lemma recorded_or_fresh (hh : Handover C cfg d p h n handed new) :
    ∀ b, n.state.Records b → p.node.state.Records b ∨ ∀ a ∈ h.issued, a.id ≠ b.id := by
  intro b hb
  rcases hh.transfer.recorded b hb with hb | hb
  · exact .inl hb
  · obtain ⟨created, hc, rfl⟩ := mem_map.mp hb
    exact .inr (hh.fresh created hc)

section

variable (hs : Settled C cfg d (p, h))
include hs

/-- A session that is enrolled was created. -/
lemma exists_issued_of_enrolling :
    ∀ id ∈ p.jobs.filterMap Job.enrolling, ∃ a ∈ h.issued, a.id = id := by
  intro id hid
  obtain ⟨j, hj, hjid⟩ := mem_filterMap.mp hid
  obtain ⟨e, rfl, rfl⟩ := Job.exists_of_enrolling hjid
  exact ⟨_, hs.lineage.jobs _ hj _ mem_cons_self, rfl⟩

lemma access (hjobs : p.jobs = pre ++ old ++ post)
    (hold : old.filterMap Job.enrolling = []) (hh : Handover C cfg d p h n handed new)
    (hcompletes : p.completes d e = none) (hl : Lineage C cfg d
      ({ p with node := n, jobs := pre ++ new ++ post }, h.after C cfg d p e)) :
    Settled C cfg d
      ({ p with node := n, jobs := pre ++ new ++ post }, h.after C cfg d p e) := by
  have hcompleted : (h.after C cfg d p e).completed = h.completed := by
    simp [History.after, hcompletes]
  have hids : p.jobs.filterMap Job.enrolling
      = pre.filterMap Job.enrolling ++ post.filterMap Job.enrolling := by
    rw [hjobs, filterMap_append, filterMap_append, hold, append_nil]
  have hsub : ((pre ++ new ++ post).filterMap Job.enrolling).Sublist _ := enrolling_handover hh
  refine ⟨hl, ?_, ?_, ?_, ?_, ?_, ?_, ?_⟩
  · intro id hid
    rw [hcompleted] at hid
    obtain ⟨a, ha, rfl⟩ := hs.completed id hid
    exact ⟨a, mem_append_left _ ha, rfl⟩
  · intro j hj c a ha b hb hid
    rcases Lineage.mem_replaced hjobs hj with hj | hj
    · rcases recorded_or_fresh hh b hb with hb | hb
      · exact hs.ended j hj c a ha b hb hid
      · exact hb a (hs.lineage.jobs j hj a (j.kicks_subset_allocations c ha)) hid.symm
    · refine hs.ne_of_ended hh a ?_ b hb hid
      rcases hh.jobs with rfl | rfl | ⟨created, hc, _, _, rfl⟩
      · cases hj
      · rw [mem_singleton.mp hj] at ha
        exact Job.kicks_subset_allocations c _ ha
      · rw [mem_singleton.mp hj] at ha
        rw [← hh.created created hc]
        simp only [Job.kicks] at ha
        split at ha
        · exact ha
        · cases ha
  · refine List.Nodup.sublist hsub ?_
    have hdistinct := hids ▸ hs.distinct
    cases hc : handed.created with
    | none => simpa using hdistinct
    | some created =>
      simp only [map_some, toList_some, append_assoc, singleton_append]
      rw [nodup_middle, nodup_cons, ← hids]
      refine ⟨fun hmem => ?_, hs.distinct⟩
      obtain ⟨a, ha, hid⟩ := hs.exists_issued_of_enrolling _ hmem
      exact hh.fresh created hc a ha hid
  · intro id hid hmem
    rw [hcompleted] at hmem
    have hid := hsub.subset hid
    simp only [mem_append] at hid
    rcases hid with (hid | hid) | hid
    · exact hs.enrolling id (by rw [hids]; exact mem_append_left _ hid) hmem
    · obtain ⟨created, hc, rfl⟩ := mem_map.mp (mem_toList.mp hid)
      obtain ⟨a, ha, hid⟩ := hs.completed _ hmem
      exact hh.fresh created hc a ha hid
    · exact hs.enrolling id (by rw [hids]; exact mem_append_right _ hid) hmem
  · intro e' c rest done he hphase
    rcases Lineage.mem_replaced hjobs he with he | he
    · obtain ⟨hnodup, hcontrols, hdone⟩ := hs.progress e' c rest done he hphase
      refine ⟨hnodup, hcontrols, fun hr => ?_⟩
      rcases recorded_or_fresh hh _ hr with hr | hr
      · exact hdone hr
      · exact absurd rfl (hr _ (hs.lineage.jobs _ he _ mem_cons_self))
    · rcases hh.jobs with rfl | rfl | ⟨created, hc, _, _, rfl⟩
      · cases he
      · cases mem_singleton.mp he
      · cases mem_singleton.mp he
        cases hphase
  · intro c id hid x hx howner
    obtain ⟨j, hj, hid⟩ := mem_filterMap.mp hid
    rcases Lineage.mem_replaced hjobs hj with hj | hj
    · exact hs.unheld c id (mem_filterMap.mpr ⟨j, hj, hid⟩) x hx howner
    · -- an engine has nothing of a session with a new ID
      obtain ⟨a, ha, haowner, -⟩ := hs.lineage.entries c x hx
      rcases hh.jobs with rfl | rfl | ⟨created, hc, _, _, rfl⟩
      · cases hj
      · cases mem_singleton.mp hj
        cases hid
      · cases mem_singleton.mp hj
        cases hid
        exact hh.fresh created hc a ha (haowner.symm.trans howner)
  · intro a ha hid
    rw [hcompleted] at hid
    rcases recorded_or_fresh hh a ha with ha | ha
    · exact hs.held a ha hid
    · obtain ⟨b, hb, hbid⟩ := hs.completed _ hid
      exact absurd hbid (ha b hb)

lemma step (hfresh : h.Fresh e) (hown : p.OnOwnSlots e)
    (hstep : p.serve C cfg d e = some p') :
    Settled C cfg d (p', h.after C cfg d p e) := by
  have hl := hs.lineage.step hfresh hstep
  have hcompleted : p.completes d e = none → (h.after C cfg d p e).completed = h.completed :=
    fun hnone => by simp [History.after, hnone]
  cases hs.lineage.serves hfresh hstep with
  | access hjobs hop hfollows _ hh =>
    exact hs.access hjobs (enrolling_of_follows hfollows) hh (completes_of_operation hop) hl
  | call hjobs hi hpending => exact hs.call hown hjobs hi hpending rfl hl
  | resume hjobs hi hresume =>
    obtain ⟨hkicks, henrolling, hawaits, hprogress⟩ := Job.resume_enrolling hresume
    exact hs.replace hl rfl (fun _ => rfl) (append_nil _)
      (hcompleted (completes_of_resume hi hresume)) hjobs rfl hkicks henrolling hawaits hprogress
  | quiet hnode hheld hjobs hjobs' _ hnew hcreates hcompletes =>
    have hmeter := fun j hj => Job.of_isMeter (hnew j hj)
    refine hs.replace hl hnode hheld (by simp [History.after, hcreates]) (hcompleted hcompletes)
      hjobs hjobs' (fun j hj c => ((hmeter j hj).2 c).1) ?_ (fun c => ?_) fun e _ _ _ he => ?_
    · rw [filterMap_eq_nil_iff.mpr fun j hj => (hmeter j hj).1]
      exact nil_sublist _
    · rw [filterMap_eq_nil_iff.mpr fun j hj => ((hmeter j hj).2 c).2]
      exact nil_subset _
    · exact absurd (hnew _ he) (by simp [Job.isMeter])

end

lemma initial (now : ℕ) : Settled C cfg d (Plane.running now, History.none) := by
  have hjobs : (Plane.running now).jobs = [] := rfl
  have hnone : (Plane.running now).node.state.sessions = [] := rfl
  refine ⟨Lineage.initial now, by simp [History.none], by simp [hjobs], nodup_nil,
    by simp [hjobs], by simp [hjobs], by simp [hjobs], ?_⟩
  rintro a ⟨x, hx, -⟩
  simp [hnone] at hx

end Settled

lemma Plane.exists_of_next {p : Plane} {e : PlaneEvent} {c : Control} {k : ControlCall}
    {o : CallOutcome} (h : p.next e = some (c, k, o)) :
    ∃ i j, e = .advance i o ∧ p.jobs[i]? = some j ∧ j.pending = some (c, k) := by
  cases e with
  | advance i o' =>
    obtain ⟨j, hi, h⟩ := Option.bind_eq_some_iff.mp h
    obtain ⟨x, hx, hxeq⟩ := Option.map_eq_some_iff.mp h
    cases hxeq
    exact ⟨i, j, rfl, hi, hx⟩
  | _ => cases h

/-- **A session keeps its port and address.**  In every run in which no session ID is generated
twice and Shadowsocks and WireGuard are not called about a session once they were called to provision
another one that has its resource slot, a session that is recorded and has been provisioned has the
port and the address of its slot.  No such kick of other sessions takes from any engine what it holds
for a session that is recorded. -/
theorem keeps_place {C : Crypto} {cfg : Config} {d : DataPlane} {now : ℕ} {s : Plane × History}
    (hs : (servingSystem C cfg d now).Reachable
      (fun s e => s.2.Fresh e ∧ s.1.OnOwnSlots e) s) :
    (∀ a, s.1.node.state.Records a → a.id ∈ s.2.completed → ∀ c ∈ d.controls,
      ∀ q ∈ c.place d a.resourceSlot, (s.1.table c).holder q = some a.id) ∧
    ∀ e, s.1.OnOwnSlots e → ∀ c sessions o, s.1.next e = some (c, .kick sessions, o) →
      ∀ b, s.1.node.state.Records b → (∀ a ∈ sessions, a.id ≠ b.id) →
        ∀ x ∈ (s.1.table c).entries, x.owner = b.id →
          x ∈ (c.call d (s.1.table c) (.kick sessions) o).1.entries := by
  have hsettled : Settled C cfg d s := by
    refine hs.invariant (Settled.initial now) ?_
    rintro ⟨p, h⟩ e ⟨p', h'⟩ - hs ⟨hfresh, hown⟩ hstep
    obtain ⟨hstep, rfl⟩ := System.withHistory_step.mp hstep
    exact hs.step hfresh hown hstep
  refine ⟨hsettled.held, fun e hown c sessions o hnext b hb hne x hx howner => ?_⟩
  obtain ⟨i, j, rfl, hi, hpending⟩ := Plane.exists_of_next hnext
  exact hsettled.mem_call hown hi hpending hb hne hx howner

/-- A session expires, and another device takes over its slot. -/
def takenOver : List PlaneEvent :=
  Sample.asking ++ Sample.sweep 0 ++ Sample.sweep 0 ++
    [.createSession Sample.code "laptop" 80 Sample.token' Sample.secret false false .stored] ++
      Sample.sweep 0 ++ Sample.sweep 0

/-- That session is released.  Before it is kicked, a third device takes over the slot and is
provisioned at Xray. -/
def takenOverAgain : List PlaneEvent :=
  takenOver ++ [.releaseSession Sample.token' 90 .stored, .createSession Sample.code "tablet" 91
    ("Session00003" ++ Sample.secret) Sample.secret false false .stored] ++
      Sample.sweep 1 ++ [.advance 1 .ok]

theorem keeps_place_takenOver :
    (∃ s, (servingSystem Sample.crypto Sample.config Sample.dataPlane 10).Reachable
        (fun s e => s.2.Fresh e ∧ s.1.OnOwnSlots e) s ∧
      s.1.node.state.Records ⟨"Session00002", 0⟩ ∧ "Session00002" ∈ s.2.completed ∧
      (s.1.table .wireguard).holder 2 = some "Session00002") ∧
    ∃ s, (servingSystem Sample.crypto Sample.config Sample.dataPlane 10).Reachable
        (fun s e => s.2.Fresh e ∧ s.1.OnOwnSlots e) s ∧
      s.1.node.state.Records ⟨"Session00003", 0⟩ ∧
      s.1.next (.advance 0 .ok) = some (.xray, .kick [⟨"Session00002", 0⟩], .ok) ∧
      ∃ x ∈ (s.1.table .xray).entries, x.owner = "Session00003" ∧
        x ∈ (Control.xray.call Sample.dataPlane (s.1.table .xray)
          (.kick [⟨"Session00002", 0⟩]) .ok).1.entries := by
  obtain ⟨s, hs, ha, hdone⟩ := System.exists_reachable_of_run
    (servingSystem Sample.crypto Sample.config Sample.dataPlane 10)
    (fun s e => s.2.Fresh e ∧ s.1.OnOwnSlots e)
    (fun s => s.1.node.state.Records ⟨"Session00002", 0⟩ ∧ "Session00002" ∈ s.2.completed)
    takenOver (by decide +kernel)
  obtain ⟨s', hs', hb, hnext, hown, x, hx, howner⟩ := System.exists_reachable_of_run
    (servingSystem Sample.crypto Sample.config Sample.dataPlane 10)
    (fun s e => s.2.Fresh e ∧ s.1.OnOwnSlots e)
    (fun s => s.1.node.state.Records ⟨"Session00003", 0⟩ ∧
      s.1.next (.advance 0 .ok) = some (.xray, .kick [⟨"Session00002", 0⟩], .ok) ∧
      s.1.OnOwnSlots (.advance 0 .ok) ∧
      ∃ x ∈ (s.1.table .xray).entries, x.owner = "Session00003")
    takenOverAgain (by decide +kernel)
  exact ⟨⟨s, hs, ha, hdone, (keeps_place hs).1 _ ha hdone .wireguard (by decide) 2 rfl⟩,
    s', hs', hb, hnext, x, hx, howner,
    (keeps_place hs').2 _ hown _ _ _ hnext _ hb (by decide) x hx howner⟩

/-- A device releases its session.  Before the session is kicked, another device gets its slot and
is provisioned at Shadowsocks, and at WireGuard after. -/
def lateKick : List PlaneEvent :=
  Sample.asking ++ Sample.sweep 0 ++ Sample.sweep 0 ++
    [.releaseSession Sample.token 20 .stored,
      .createSession Sample.code "laptop" 21 Sample.token' Sample.secret false false .stored] ++
      Sample.sweep 1 ++ [.advance 1 .ok, .advance 1 .ok] ++ Sample.sweep 0 ++ [.advance 0 .ok]

/-- The kick of a session that was released takes the port from the session that has its slot by
then, with every call succeeding. -/
theorem late_kick_takes_port :
    ∃ s, (servingSystem Sample.crypto Sample.config Sample.dataPlane 10).Reachable
        (fun s e => s.2.Fresh e ∧ s.1.succeeds Sample.dataPlane e = true) s ∧
      s.1.node.state.Records ⟨"Session00002", 0⟩ ∧ "Session00002" ∈ s.2.completed ∧
      Control.place Sample.dataPlane 0 .shadowsocks = some 20000 ∧
      (s.1.table .shadowsocks).holder 20000 = none :=
  System.exists_reachable_of_run _ _ _ lateKick (by decide +kernel)

end Ket.Server
