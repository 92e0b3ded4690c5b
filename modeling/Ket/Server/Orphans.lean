import Ket.Server.ControlPlane

/-!
# Sessions that an engine holds and the service does not

A session that ends is first taken out of the state and then out of the engines, and one that is
created is first recorded and then provisioned, in separate steps.  `Tidy` says what holds
between the steps: whatever an engine holds is of a recorded session, or a job is still going to
kick it, or the start of the server is still going to reconcile the engine.  So an engine holds
sessions of the service only, when no job is left.

A step breaks this when it installs a session whose record is gone, since the kick of the session
may have been before; when it takes the address of a peer of another session, since the agent of
WireGuard no longer removes any peer then; and when a kick fails, since it is not made again.
`no_orphans` and `no_orphans_after_failures` are about runs without such steps, and the runs
before them show what happens otherwise.
-/

namespace Ket.Server

open Ket.Core Ket.Lib List

/-- The controls that an enrollment may call before it is refused. -/
def EnrollPhase.controls : EnrollPhase → List Control
  | .kickExpired rest => rest
  | .provision rest done => rest ++ done
  | .rollback rest => rest
  | .refuse => []

lemma EnrollPhase.controls_after_subset (ok : Bool) (phase : EnrollPhase) :
    (phase.after ok).controls ⊆ phase.controls := by
  match phase with
  | .kickExpired [] => exact List.Subset.refl _
  | .kickExpired (_ :: _) => exact subset_cons_self _ _
  | .provision [] _ => exact List.Subset.refl _
  | .provision (c :: rest) done =>
    cases ok with
    | true =>
      intro x hx
      have hx : x ∈ rest ++ c :: done := hx
      simp only [controls, mem_append, mem_cons] at hx ⊢
      tauto
    | false => exact subset_append_right _ _
  | .rollback [] => exact List.Subset.refl _
  | .rollback (_ :: _) => exact subset_cons_self _ _
  | .refuse => exact List.Subset.refl _

namespace Job

/-- The job is going to reconcile the engine. -/
def sweeps (c : Control) : Job → Bool
  | .startup => true
  | .reconcile _ rest failed _ => failed || decide (c ∈ rest)
  | _ => false

/-- The controls that the job may call. -/
def controls : Job → List Control
  | .startup => []
  | .reconcile _ rest _ _ => rest
  | .kick _ rest => rest
  | .enroll e => e.phase.controls
  | .meter .. => []
  | .record _ => []

variable {j : Job} {c c' : Control} {k : ControlCall} {a : SessionAllocation}

lemma controls_after_subset (ok : Bool) (j : Job) : (j.after ok).controls ⊆ j.controls := by
  match j with
  | .reconcile _ (_ :: _) _ _ => exact subset_cons_self _ _
  | .kick _ (_ :: _) => exact subset_cons_self _ _
  | .enroll e => exact e.phase.controls_after_subset ok
  | .startup | .reconcile _ [] _ _ | .kick _ [] | .meter .. | .record _ => exact List.Subset.refl _

lemma Calls.mem_controls (h : j.Calls c k) : c ∈ j.controls := by
  cases h <;> simp [controls, EnrollPhase.controls]

/-- What a job is going to kick it still kicks after a call, but for that call. -/
lemma Calls.kicks_after (h : j.Calls c k) (ok : Bool) (ha : a ∈ j.kicks c') :
    a ∈ (j.after ok).kicks c' ∨ (c' = c ∧ ∃ sessions, k = .kick sessions ∧ a ∈ sessions) := by
  cases h with
  | kick =>
    by_cases hc : c' = c
    · subst hc
      exact .inr ⟨rfl, _, rfl, by simpa [kicks] using ha⟩
    · exact .inl (by simpa [kicks, after, hc] using ha)
  | kickExpired =>
    by_cases hc : c' = c
    · subst hc
      exact .inr ⟨rfl, _, rfl, by simpa [kicks] using ha⟩
    · exact .inl (by simpa [kicks, after, EnrollPhase.after, hc] using ha)
  | _ => simp [kicks] at ha

/-- What a job is going to reconcile it still reconciles after a call that fails, and after one
that succeeds but for that engine. -/
lemma Calls.sweeps_after (h : j.Calls c k) (ok : Bool) (hs : j.sweeps c' = true) :
    (j.after ok).sweeps c' = true ∨ (c' = c ∧ ok = true ∧ ∃ sessions, k = .reconcile sessions) := by
  cases h with
  | reconcile =>
    simp only [sweeps, Bool.or_eq_true, decide_eq_true_eq, mem_cons] at hs
    cases ok with
    | false => exact .inl (by simp [sweeps, after])
    | true =>
      rcases hs with hs | rfl | hs
      · exact .inl (by simp [sweeps, after, hs])
      · exact .inr ⟨rfl, rfl, _, rfl⟩
      · exact .inl (by simp [sweeps, after, hs])
  | _ => cases hs

/-- A job that goes on without a call has no engine work left, and none of what follows calls a
control that is not configured. -/
lemma resume_spec {d : DataPlane} {new : List Job} (h : j.resume d = some new) :
    (∀ c, j.kicks c = [] ∧ j.sweeps c = false) ∧ ∀ j' ∈ new, j'.controls ⊆ d.controls := by
  cases resumes_of_resume h with
  | kicked => exact ⟨fun c => ⟨by simp [kicks], rfl⟩, forall_mem_nil _⟩
  | provision => exact ⟨fun c => ⟨by simp [kicks], rfl⟩, by simp [controls, EnrollPhase.controls]⟩
  | done => exact ⟨fun c => ⟨rfl, rfl⟩, forall_mem_nil _⟩
  | refuse hphase =>
    refine ⟨fun c => ⟨?_, rfl⟩, by simp [controls, EnrollPhase.controls]⟩
    rcases hphase with rfl | ⟨_, rfl⟩ | rfl <;> simp [kicks]

end Job

namespace Plane

variable (C : Crypto) (cfg : Config) (d : DataPlane)

/-- The call of the event installs only sessions that are recorded, at addresses that are free or
their own. -/
def writesRecorded (p : Plane) (e : PlaneEvent) : Bool :=
  (p.next e).all fun x => decide ((∀ a ∈ x.2.1.installs, p.node.state.Records a) ∧
    x.1.Free d (p.table x.1) x.2.1)

/-- A kick of ended sessions fails only where the engine holds nothing of theirs. -/
def kicksLand (p : Plane) (e : PlaneEvent) : Bool :=
  p.succeeds d e || match e with
    | .advance i _ =>
      p.jobs[i]?.all fun j => j.pending.all fun ck =>
        (j.kicks ck.1).all fun a =>
          (p.table ck.1).entries.all fun x => !(ck.1.names d a x.owner x.place)
    | _ => true

/-- What an engine holds is of a recorded session. -/
def Owned (p : Plane) (c : Control) (owner : String) (place : Option ℕ) : Prop :=
  ∃ a, p.node.state.Records a ∧ owner = a.id ∧ place = c.place d a.resourceSlot

/-- What an engine holds is of a recorded session, or a job is going to take it out. -/
def Covered (p : Plane) (c : Control) (owner : String) (place : Option ℕ) : Prop :=
  p.Owned d c owner place ∨
    (∃ j ∈ p.jobs, ∃ a ∈ j.kicks c, c.names d a owner place = true) ∨
      ∃ j ∈ p.jobs, j.sweeps c = true

/-- The invariant of runs in which nothing is forgotten in an engine. -/
structure Tidy (p : Plane) : Prop where
  node : p.node.Holds (StateInv C cfg)
  up : ∀ j ∈ p.jobs, p.phase ≠ .down
  jobs : ∀ j ∈ p.jobs, j.controls ⊆ d.controls
  configured : ∀ c, (p.table c).entries ≠ [] → c ∈ d.controls ∧ c.keeps = true
  covered : p.phase ≠ .down → ∀ c, ∀ x ∈ (p.table c).entries, p.Covered d c x.owner x.place

variable {C cfg d} {p p' : Plane} {pre old new post : List Job} {j : Job}

/-- What is covered stays so when what is recorded is kept or kicked, and the jobs that are
replaced leave their work to others. -/
lemma Covered.mono {c : Control} {owner : String} {place : Option ℕ}
    (h : p.Covered d c owner place) (hjobs : p.jobs = pre ++ old ++ post)
    (hjobs' : p'.jobs = pre ++ new ++ post)
    (howned : ∀ a, p.node.state.Records a → p'.node.state.Records a ∨ ∃ j ∈ new, a ∈ j.kicks c)
    (hkicks : ∀ j ∈ old, ∀ a ∈ j.kicks c, c.names d a owner place = true →
      ∃ j' ∈ new, a ∈ j'.kicks c)
    (hsweeps : ∀ j ∈ old, j.sweeps c = true → ∃ j' ∈ new, j'.sweeps c = true) :
    p'.Covered d c owner place := by
  have hnew : ∀ j ∈ new, j ∈ p'.jobs := fun j hj => by simp [hjobs', hj]
  have hrest : ∀ j ∈ p.jobs, j ∈ p'.jobs ∨ j ∈ old := fun j hj => by
    rw [hjobs] at hj
    rw [hjobs']
    simp only [mem_append] at hj ⊢
    tauto
  rcases h with ⟨a, ha, howner, hplace⟩ | ⟨j, hj, a, ha, hnames⟩ | ⟨j, hj, hs⟩
  · rcases howned a ha with ha | ⟨j, hj, hk⟩
    · exact .inl ⟨a, ha, howner, hplace⟩
    · refine .inr (.inl ⟨j, hnew j hj, a, hk, ?_⟩)
      rw [howner, hplace]
      exact c.names_self d a
  · rcases hrest j hj with hj | hj
    · exact .inr (.inl ⟨j, hj, a, ha, hnames⟩)
    · obtain ⟨j', hj', ha'⟩ := hkicks j hj a ha hnames
      exact .inr (.inl ⟨j', hnew j' hj', a, ha', hnames⟩)
  · rcases hrest j hj with hj | hj
    · exact .inr (.inr ⟨j, hj, hs⟩)
    · obtain ⟨j', hj', hs'⟩ := hsweeps j hj hs
      exact .inr (.inr ⟨j', hnew j' hj', hs'⟩)

/-- The jobs after a step call only controls that are configured. -/
lemma Tidy.jobs_replaced (h : p.Tidy C cfg d) (hjobs : p.jobs = pre ++ old ++ post)
    (hnew : ∀ j ∈ new, j.controls ⊆ d.controls) :
    ∀ j ∈ pre ++ new ++ post, j.controls ⊆ d.controls := by
  have hold := h.jobs
  rw [hjobs] at hold
  simp only [mem_append] at hold ⊢
  rintro j ((hj | hj) | hj)
  · exact hold j (.inl (.inl hj))
  · exact hnew j hj
  · exact hold j (.inr hj)

/-- A step that changes only the jobs. -/
lemma Tidy.replace (h : p.Tidy C cfg d) (hnode : p'.node = p.node) (htable : p'.table = p.table)
    (hup : p.phase ≠ .down) (hup' : p'.phase ≠ .down) (hjobs : p.jobs = pre ++ old ++ post)
    (hjobs' : p'.jobs = pre ++ new ++ post) (hnew : ∀ j ∈ new, j.controls ⊆ d.controls)
    (hkicks : ∀ j ∈ old, ∀ c, j.kicks c = [])
    (hsweeps : ∀ j ∈ old, ∀ c ∈ d.controls, j.sweeps c = true →
      ∃ j' ∈ new, j'.sweeps c = true) : p'.Tidy C cfg d where
  node := hnode ▸ h.node
  up _ _ := hup'
  jobs := hjobs' ▸ h.jobs_replaced hjobs hnew
  configured := htable ▸ h.configured
  covered _ c x hx := by
    rw [htable] at hx
    have hc := (h.configured c (ne_nil_of_mem hx)).1
    refine (h.covered hup c x hx).mono hjobs hjobs' (fun a ha => .inl (hnode ▸ ha)) ?_
      (fun j hj hs => hsweeps j hj c hc hs)
    intro j hj a ha
    rw [hkicks j hj c] at ha
    cases ha

/-- The jobs in whose place an operation is made have no engine work left. -/
lemma kicks_of_follows {op : Access} {follow : Handed → List Job} (h : Follows d old op follow) :
    ∀ j ∈ old, ∀ c, j.kicks c = [] ∧ j.sweeps c = false := by
  intro j hj c
  cases h with
  | refuse hphase =>
    rw [mem_singleton.mp hj]
    simp [Job.kicks, Job.sweeps, hphase]
  | record =>
    rw [mem_singleton.mp hj]
    exact ⟨rfl, rfl⟩
  | _ => cases hj

lemma controls_of_follows {op : Access} {follow : Handed → List Job} (h : Follows d old op follow)
    (handed : Handed) : ∀ j ∈ follow handed, j.controls ⊆ d.controls := by
  intro j hj
  rcases follow_cases h handed with heq | heq | ⟨_, -, _, _, heq⟩
  · simp [heq] at hj
  · rw [heq, mem_singleton] at hj
    rw [hj]
    exact List.Subset.refl _
  · rw [heq, mem_singleton] at hj
    rw [hj]
    exact List.Subset.refl _

end Plane

/-- What an operation hands over is kicked by what follows from it. -/
lemma exists_kicks_of_follows {op : Access} {follow : Handed → List Job} {d : DataPlane}
    {old : List Job} {C : Crypto} {cfg : Config} {n : Node} {o : StoreOutcome} {handed : Handed}
    (h : Follows d old op follow) (hop : (n.access C cfg op o).2 = .ok handed)
    {a : SessionAllocation} (ha : a ∈ handed.ended) {c : Control} (hc : c ∈ d.controls) :
    ∃ j ∈ follow handed, a ∈ j.kicks c := by
  have hkicks : ∃ j ∈ Plane.kicks d handed, a ∈ j.kicks c :=
    ⟨_, mem_singleton_self _, by simpa [Job.kicks, hc] using ha⟩
  cases h with
  | createGrant =>
    obtain ⟨_, -, rfl⟩ := Node.hand_snd_eq_ok.mp hop
    cases ha
  | renewSession =>
    simp only [Node.access] at hop
    split at hop
    · cases hop
    · obtain ⟨_, -, rfl⟩ := Node.hand_snd_eq_ok.mp hop
      cases ha
  | createSession =>
    simp only [Node.access] at hop
    split at hop
    · cases hop
    · obtain ⟨created, -, rfl⟩ := Node.hand_snd_eq_ok.mp hop
      exact ⟨_, mem_singleton_self _, by simpa [Job.kicks, hc] using ha⟩
  | record =>
    have hne : handed.ended ≠ [] := ne_nil_of_mem ha
    simpa [hne] using hkicks
  | _ => exact hkicks

namespace Plane

variable {C : Crypto} {cfg : Config} {d : DataPlane} {p p' : Plane} {pre old new post : List Job}

lemma Tidy.access {op : Access} {follow : Handed → List Job} (h : p.Tidy C cfg d)
    (hup : p.phase ≠ .down) (hjobs : p.jobs = pre ++ old ++ post)
    (hfollows : Follows d old op follow) (o : StoreOutcome) :
    (p.access C cfg op o pre post follow).Tidy C cfg d := by
  obtain ⟨n, handed, new, heq, hn, htransfer, hnew⟩ :=
    exists_of_access h.node op o pre post follow
  have hcontrols : ∀ j ∈ new, j.controls ⊆ d.controls := by
    rcases hnew with ⟨-, rfl⟩ | ⟨-, -, rfl⟩
    · exact controls_of_follows hfollows handed
    · exact forall_mem_nil _
  have hended : ∀ c ∈ d.controls, ∀ a ∈ handed.ended, ∃ j ∈ new, a ∈ j.kicks c := by
    intro c hc a ha
    rcases hnew with ⟨hop, rfl⟩ | ⟨-, rfl, -⟩
    · exact exists_kicks_of_follows hfollows hop ha hc
    · cases ha
  rw [heq]
  refine ⟨hn, fun _ _ => hup, h.jobs_replaced hjobs hcontrols, h.configured, fun _ c x hx => ?_⟩
  have hc := (h.configured c (ne_nil_of_mem hx)).1
  -- the jobs in whose place the operation is made have no engine work left
  have hold := kicks_of_follows hfollows
  refine (h.covered hup c x hx).mono hjobs rfl ?_ ?_ ?_
  · exact fun a ha => (htransfer.kept a ha).imp_right (hended c hc a)
  · intro j hj a ha
    rw [(hold j hj c).1] at ha
    cases ha
  · intro j hj hs
    rw [(hold j hj c).2] at hs
    cases hs

/-- What is covered stays so in a call, but for what the call takes out or reconciles. -/
lemma Covered.call {j : Job} {c c' : Control} {k : ControlCall} {owner : String}
    {place : Option ℕ} {ok : Bool} (h : p.Covered d c' owner place)
    (hjobs : p.jobs = pre ++ [j] ++ post) (hjobs' : p'.jobs = pre ++ [j.after ok] ++ post)
    (hnode : p'.node = p.node) (hcalls : j.Calls c k)
    (hkick : c' = c → ∀ sessions, k = .kick sessions →
      ∀ a ∈ j.kicks c, a ∈ sessions → c.names d a owner place = false)
    (hreconcile : c' = c → ok = true → ∀ sessions, k ≠ .reconcile sessions) :
    p'.Covered d c' owner place := by
  refine h.mono hjobs hjobs' (fun a ha => .inl (hnode ▸ ha)) ?_ ?_
  · intro j' hj' a ha hnames
    rw [mem_singleton.mp hj'] at ha
    rcases hcalls.kicks_after ok ha with ha' | ⟨rfl, sessions, hk, hmem⟩
    · exact ⟨_, mem_singleton_self _, ha'⟩
    · rw [hkick rfl sessions hk a ha hmem] at hnames
      cases hnames
  · intro j' hj' hs
    rw [mem_singleton.mp hj'] at hs
    rcases hcalls.sweeps_after ok hs with hs' | ⟨rfl, hok, sessions, hk⟩
    · exact ⟨_, mem_singleton_self _, hs'⟩
    · exact absurd hk (hreconcile rfl hok sessions)

section

variable (h : p.Tidy C cfg d)
include h

/-- A call to an engine: what it installs is recorded, and what it was to take out is gone. -/
lemma Tidy.call {j : Job} {c : Control} {k : ControlCall} {o : CallOutcome}
    (hjobs : p.jobs = pre ++ [j] ++ post) (hcalls : j.Calls c k)
    (hrecords : ∀ a ∈ k.installs, p.node.state.Records a) (hfree : c.Free d (p.table c) k)
    (hkick : (c.call d (p.table c) k o).2 = true ∨
      ∀ a ∈ j.kicks c, ∀ x ∈ (p.table c).entries, c.names d a x.owner x.place = false) :
    Plane.Tidy C cfg d { p with
      table := Function.update p.table c (c.call d (p.table c) k o).1
      jobs := pre ++ [j.after (c.call d (p.table c) k o).2] ++ post } := by
  have hj : j.controls ⊆ d.controls := h.jobs j (by simp [hjobs])
  have hc : c ∈ d.controls := hj hcalls.mem_controls
  have hslots : ∀ a ∈ k.installs, ∀ b ∈ k.installs,
      a.resourceSlot = b.resourceSlot → a.id = b.id :=
    fun a ha b hb => h.node.state.eq_of_slot (hrecords a ha) (hrecords b hb)
  -- the engine that is called holds something afterwards only if it is one that does
  have hconfigured : (c.call d (p.table c) k o).1.entries ≠ [] → c.keeps = true := by
    intro hne
    by_contra hkeeps
    rw [Bool.not_eq_true] at hkeeps
    rw [Control.call_of_keeps_eq_false hkeeps] at hne
    rw [(h.configured c hne).2] at hkeeps
    cases hkeeps
  refine ⟨h.node, fun _ _ => h.up j (by simp [hjobs]), h.jobs_replaced hjobs ?_, ?_, ?_⟩
  · intro j' hj'
    rw [mem_singleton.mp hj']
    exact List.Subset.trans (j.controls_after_subset _) hj
  · intro c' hne
    by_cases heq : c' = c
    · subst heq
      simp only [Function.update_self] at hne
      exact ⟨hc, hconfigured hne⟩
    · simp only [Function.update_of_ne heq] at hne
      exact h.configured c' hne
  · intro hp c' x hx
    by_cases heq : c' = c
    · subst heq
      simp only [Function.update_self] at hx
      have hkeeps := hconfigured (ne_nil_of_mem hx)
      cases k with
      | provision a =>
        refine Control.forall_call_of_free hfree hslots (P := fun owner place =>
          Plane.Covered d _ c' owner place) ?_ ?_ x hx
        · intro y hy
          exact (h.covered hp c' y hy).call hjobs rfl rfl hcalls (fun _ _ hk => by cases hk)
            (fun _ _ _ hk => by cases hk)
        · intro b hb
          exact .inl ⟨b, hrecords b hb, rfl, rfl⟩
      | kick sessions =>
        have hx' := Control.mem_of_mem_kick hx
        refine (h.covered hp c' x hx').call hjobs rfl rfl hcalls ?_ (fun _ _ _ hk => by cases hk)
        rintro - _ ⟨⟩ a ha hmem
        rcases hkick with hok | hnothing
        · exact Control.names_eq_false_of_kick hkeeps hok hx a hmem
        · exact hnothing a ha x hx'
      | reconcile sessions =>
        cases hok : (c'.call d (p.table c') (.reconcile sessions) o).2 with
        | true =>
          obtain ⟨a, ha, howner, hplace⟩ :=
            Control.exists_of_mem_reconcile hkeeps hfree hslots hok x hx
          exact .inl ⟨a, hrecords a ha, howner, hplace⟩
        | false =>
          have hsweeps : j.sweeps c' = true := by
            cases hcalls
            simp [Job.sweeps]
          rcases hcalls.sweeps_after false hsweeps with hs | ⟨-, hfalse, -⟩
          · exact .inr (.inr ⟨_, by simp, hs⟩)
          · cases hfalse
    · simp only [Function.update_of_ne heq] at hx
      exact (h.covered hp c' x hx).call hjobs rfl rfl hcalls (fun hc' => absurd hc' heq)
        (fun hc' => absurd hc' heq)

lemma Tidy.started {n : Node} {now : ℕ} {o : StoreOutcome} {ok : Bool}
    (hload : p.node.load C cfg now o = (n, ok)) : n.Holds (StateInv C cfg) := by
  have hn : (p.node.load C cfg now o).1.Holds (StateInv C cfg) := h.node.load now o
    fun _ _ _ hload hprepare => (h.node.file.prepared hload hprepare).2
  rwa [hload] at hn

/-- What an engine holds stays what it is when data moves through it. -/
lemma Tidy.traffic (c : Control) (owner : String) (place : Option ℕ) (n : ℕ) :
    Plane.Tidy C cfg d
      { p with table := Function.update p.table c ((p.table c).count owner place n) } := by
  refine ⟨h.node, h.up, h.jobs, fun c' hne => ?_, fun hp c' x hx => ?_⟩
  · obtain ⟨x, hx⟩ := exists_mem_of_ne_nil _ hne
    obtain ⟨y, hy, -⟩ := Table.exists_of_held (Table.held_traffic ..) hx
    exact h.configured c' (ne_nil_of_mem hy)
  · obtain ⟨y, hy, howner, hplace⟩ := Table.exists_of_held (Table.held_traffic ..) hx
    rw [← howner, ← hplace]
    exact h.covered hp c' y hy

/-- Every step that installs only recorded sessions and leaves nothing of what it kicks. -/
lemma Tidy.step {e : PlaneEvent} (hwrites : p.writesRecorded d e = true)
    (hkicks : p.kicksLand d e = true) (hstep : p.step C cfg d e = some p') : p'.Tidy C cfg d := by
  have hup : ∀ {pre post : List Job} {j : Job}, p.jobs = pre ++ [j] ++ post → p.phase ≠ .down :=
    fun {_ _ j} hjobs => h.up j (by simp [hjobs])
  cases becomes_of_step hstep with
  | started hload =>
    exact ⟨h.started hload, by simp, by simp [Job.controls], h.configured,
      fun _ c x _ => .inr (.inr ⟨.startup, by simp, rfl⟩)⟩
  | stopped hload =>
    exact ⟨h.started hload, by simp, by simp, h.configured, fun hp => absurd rfl hp⟩
  | @access _ pre old post _ _ _ hjobs hphase hop hfollows =>
    refine h.access ?_ hjobs hfollows _
    cases old with
    | nil => exact hphase rfl
    | cons j _ => exact h.up j (by simp [hjobs])
  | call hjobs hi hpending =>
    simp only [writesRecorded, next, hi, Option.bind_some, hpending, Option.map_some,
      Option.all_some, decide_eq_true_eq] at hwrites
    refine h.call hjobs (Job.calls_of_pending hpending) hwrites.1 hwrites.2 ?_
    simp only [kicksLand, succeeds, next, hi, Option.bind_some, hpending, Option.map_some,
      Option.all_some, Bool.or_eq_true, all_eq_true, Bool.not_eq_true'] at hkicks
    exact hkicks
  | resume hjobs _ hresume =>
    obtain ⟨hdone, hnew⟩ := Job.resume_spec hresume
    exact h.replace rfl rfl (hup hjobs) (hup hjobs) hjobs rfl hnew
      (by simpa using fun c => (hdone c).1)
      (by simpa using fun c _ hs => by simp [(hdone c).2] at hs)
  | retry hjobs | list hjobs =>
    refine h.replace rfl rfl (hup hjobs) (hup hjobs) hjobs rfl (by simp [Job.controls])
      (by simp [Job.kicks]) ?_
    intro j hj c hc _
    exact ⟨_, mem_singleton_self _, by simp [Job.sweeps, hc]⟩
  | exit => exact ⟨h.node, by simp [exit], by simp [exit], h.configured, fun hp => absurd rfl hp⟩
  | ready hjobs =>
    exact h.replace rfl rfl (hup hjobs) (by simp) hjobs (show _ = _ ++ [] ++ _ by simp) (by simp)
      (by simp [Job.kicks]) (by simp [Job.sweeps])
  | meter hphase =>
    exact h.replace rfl rfl (by simp [hphase]) (by simp [hphase]) p.jobs_eq
      (show _ = _ ++ [_] ++ [] from (append_nil _).symm) (by simp [Job.controls])
      (by simp) (by simp)
  | read hjobs | unread hjobs | take hjobs =>
    exact h.replace rfl rfl (hup hjobs) (hup hjobs) hjobs rfl (by simp [Job.controls])
      (by simp [Job.kicks]) (by simp [Job.sweeps])
  | unavailable hjobs =>
    exact h.replace rfl rfl (hup hjobs) (hup hjobs) hjobs (show _ = _ ++ [] ++ _ by simp) (by simp)
      (by simp [Job.kicks]) (by simp [Job.sweeps])
  | traffic => exact h.traffic _ _ _ _
  | _ => exact ⟨h.node, h.up, h.jobs, h.configured, h.covered⟩

end

lemma tidy_initial : initial.Tidy C cfg d := by
  have hempty : StateInv C cfg PersistedState.empty := stateInv_empty
  exact ⟨⟨hempty, hempty⟩, forall_mem_nil _, forall_mem_nil _,
    fun _ hne => absurd rfl hne, fun hup => absurd rfl hup⟩

/-- The server is up, and no handler and no background task is at work. -/
def idle (p : Plane) : Bool := p.phase != .down && p.jobs.isEmpty

/-- When nothing is left to do, whatever an engine holds is of a recorded session. -/
lemma Tidy.owned (h : p.Tidy C cfg d) (hidle : p.idle = true) (c : Control) :
    ∀ x ∈ (p.table c).entries, ∃ r ∈ p.node.state.sessions, r.id = x.owner := by
  intro x hx
  obtain ⟨hup, hjobs⟩ : p.phase ≠ .down ∧ p.jobs = [] := by simpa [idle] using hidle
  rcases h.covered hup c x hx with ⟨a, ⟨r, hr, hid, -⟩, howner, -⟩ | ⟨j, hj, -⟩ | ⟨j, hj, -⟩
  · exact ⟨r, hr, hid.trans howner.symm⟩
  · simp [hjobs] at hj
  · simp [hjobs] at hj

lemma tidy_of_reachable
    (h : (planeSystem C cfg d).Reachable
      (fun p e => p.kicksLand d e = true ∧ p.writesRecorded d e = true) p) : p.Tidy C cfg d :=
  h.invariant tidy_initial fun _ _ _ _ hp hcond hstep => hp.step hcond.2 hcond.1 hstep

lemma kicksLand_of_succeeds {e : PlaneEvent} (h : p.succeeds d e = true) :
    p.kicksLand d e = true :=
  (Bool.or_eq_true _ _).mpr (.inl h)

end Plane

namespace Sample

/-- The server starts, and a device asks for a session. -/
def enrolling : List PlaneEvent := boot 10 ++ asking

/-- The device gets its session. -/
def enrolled : List PlaneEvent := enrolling ++ sweep 0 ++ sweep 0

end Sample

namespace Plane

variable {C : Crypto} {cfg : Config} {d : DataPlane} {p : Plane}

/-- **No orphans.**  In every run in which every call of a control succeeds and installs only
sessions that are then recorded, at addresses that no other session has at the engine, an engine
holds only recorded sessions whenever nothing is left to do. -/
theorem no_orphans
    (h : (planeSystem C cfg d).Reachable
      (fun p e => p.succeeds d e = true ∧ p.writesRecorded d e = true) p)
    (hidle : p.idle = true) (c : Control) :
    ∀ x ∈ (p.table c).entries, ∃ r ∈ p.node.state.sessions, r.id = x.owner :=
  (tidy_of_reachable (h.mono fun _ _ hcond => ⟨kicksLand_of_succeeds hcond.1, hcond.2⟩)).owned
    hidle c

/-- The invite of a device is revoked and the session kicked.  A device of another invite has got a
session of its own by then.  Then the server starts again. -/
def revokedEnrolled : List PlaneEvent :=
  Sample.enrolled ++ [.createGrant Sample.request 12 Sample.code' "hash" .stored,
    .createSession Sample.code' "laptop" 13 Sample.token' Sample.secret false false .stored] ++
      Sample.sweep 0 ++ Sample.sweep 0 ++ .revokeGrant "Grant00001" .stored :: Sample.sweep 0 ++
        Sample.boot 20

theorem no_orphans_enrolled :
    ∃ p, (planeSystem Sample.crypto Sample.config Sample.dataPlane).Reachable
        (fun p e => p.succeeds Sample.dataPlane e = true ∧
          p.writesRecorded Sample.dataPlane e = true) p ∧
      p.idle = true ∧ ((p.table .xray).entries.map Entry.owner) = ["Session00002"] ∧
      ∀ x ∈ (p.table .xray).entries, ∃ r ∈ p.node.state.sessions, r.id = x.owner := by
  obtain ⟨p, hp, hidle, howner⟩ := System.exists_reachable_of_run
    (planeSystem Sample.crypto Sample.config Sample.dataPlane)
    (fun p e => p.succeeds Sample.dataPlane e = true ∧
      p.writesRecorded Sample.dataPlane e = true)
    (fun p => p.idle = true ∧ ((p.table .xray).entries.map Entry.owner) = ["Session00002"])
    revokedEnrolled (by decide +kernel)
  exact ⟨p, hp, hidle, howner, no_orphans hp hidle .xray⟩

/-- The invite is revoked before the device is provisioned: the kick of the revocation is made
first, and finds nothing. -/
def revokedEnrolling : List PlaneEvent :=
  Sample.enrolling ++ .revokeGrant "Grant00001" .stored :: Sample.sweep 1 ++
    Sample.sweep 0 ++ Sample.sweep 0

/-- An enrollment that is overtaken by the revocation of its invite provisions a session without
a record, with every call succeeding. -/
theorem revoked_enrollment_leaves_orphan :
    ∃ p, (planeSystem Sample.crypto Sample.config Sample.dataPlane).Reachable
        (fun p e => p.succeeds Sample.dataPlane e = true) p ∧
      p.idle = true ∧ ∃ x ∈ (p.table .xray).entries, ∀ r ∈ p.node.state.sessions, r.id ≠ x.owner :=
  System.exists_reachable_of_run _ _ _ revokedEnrolling (by decide +kernel)

/-- **No orphans after failures.**  Calls of the controls may fail.  In every run in which a kick
of ended sessions fails only at an engine that holds nothing of theirs, and every call installs
only sessions that are then recorded, at addresses that no other session has at the engine, an
engine holds only recorded sessions whenever nothing is left to do. -/
theorem no_orphans_after_failures
    (h : (planeSystem C cfg d).Reachable
      (fun p e => p.kicksLand d e = true ∧ p.writesRecorded d e = true) p)
    (hidle : p.idle = true) (c : Control) :
    ∀ x ∈ (p.table c).entries, ∃ r ∈ p.node.state.sessions, r.id = x.owner :=
  (tidy_of_reachable h).owned hidle c

/-- A device is not provisioned since one engine fails, and its session is rolled back. -/
def failedEnrolling : List PlaneEvent :=
  Sample.enrolling ++ Sample.sweep 0 ++
    [.advance 0 .ok, .advance 0 (.failed 0), .advance 0 .ok, .advance 0 .ok,
      .proceed 0 12 .stored] ++ Sample.sweep 0

theorem no_orphans_failedEnrolling :
    ∃ p, (planeSystem Sample.crypto Sample.config Sample.dataPlane).Reachable
        (fun p e => p.kicksLand Sample.dataPlane e = true ∧
          p.writesRecorded Sample.dataPlane e = true) p ∧
      p.idle = true ∧
      ∀ x ∈ (p.table .xray).entries, ∃ r ∈ p.node.state.sessions, r.id = x.owner := by
  obtain ⟨p, hp, hidle⟩ := System.exists_reachable_of_run
    (planeSystem Sample.crypto Sample.config Sample.dataPlane)
    (fun p e => p.kicksLand Sample.dataPlane e = true ∧
      p.writesRecorded Sample.dataPlane e = true)
    (fun p => p.idle = true) failedEnrolling (by decide +kernel)
  exact ⟨p, hp, hidle, no_orphans_after_failures hp hidle .xray⟩

/-- The invite of a provisioned device is revoked while one engine does not answer. -/
def outage : List PlaneEvent :=
  Sample.enrolled ++ [.revokeGrant "Grant00001" .stored, .advance 0 (.failed 0), .advance 0 .ok,
    .advance 0 .ok, .advance 0 .ok]

/-- A whole tick of the expiry loop. -/
def expiryTick : List PlaneEvent := .expireSessions 40 .stored :: Sample.sweep 0

/-- A kick that fails is never made again: after a tick in which every call succeeds, the engine
still holds the session of an invite that was revoked. -/
theorem failed_kick_leaves_orphan :
    ∃ p₀ p, (planeSystem Sample.crypto Sample.config Sample.dataPlane).Reachable
        (fun _ _ => True) p₀ ∧
      (planeSystem Sample.crypto Sample.config Sample.dataPlane).runWith
        (fun p e => p.succeeds Sample.dataPlane e = true) p₀ expiryTick = some p ∧
      p.idle = true ∧ ∃ x ∈ (p.table .xray).entries, ∀ r ∈ p.node.state.sessions, r.id ≠ x.owner :=
  System.exists_reachable_of_runs _ _ _ _ outage expiryTick (by decide +kernel)

end Plane

end Ket.Server
