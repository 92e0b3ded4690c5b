import Ket.Server.Serving

/-!
# What a session is charged with

The meter reads Shadowsocks and WireGuard by the port and the address of a session's slot, and
charges the session with what has been counted there.  `ReadsOwn` says of a reading that what is
there was created for the session, and `CountsOnce` that a counter that the meter has read before
and then forgotten is not counted in full when it is read again.

In runs of such readings a session is charged with no more than has moved through what was created
for it (`charged_le_moved`): what the meter has reported for a counter, and what it would report
now, is at most what has moved through it.
-/

namespace Ket.Server

open Ket.Core Ket.Lib List Function

namespace Plane

variable (d : DataPlane)

/-- Where an engine counts by port or address, it has at those of the listed sessions what was
created for them. -/
def ReadsOwn (p : Plane) (e : PlaneEvent) : Prop :=
  ∀ x ∈ p.reads d e, x.2.1.byPlace = true → ∀ s ∈ x.1, ∀ y ∈ (p.table x.2.1).entries,
    y.place = x.2.1.place d s.allocation.resourceSlot → y.owner = s.allocation.id

instance (p : Plane) (e : PlaneEvent) : Decidable (p.ReadsOwn d e) :=
  inferInstanceAs (Decidable (∀ x ∈ p.reads d e, _))

/-- A counter that was read before, and of which the meter holds no reading any more, is not
counted in full. -/
def CountsOnce (p : Plane) (h : History) (e : PlaneEvent) : Prop :=
  ∀ x ∈ p.reads d e, ∀ r ∈ x.2.2, r.key ∈ h.read → p.meter.last r.key = none →
    ∀ s ∈ sessionsById x.1 r.sessionId, p.meter.countsInFull s r.since = false

instance (p : Plane) (h : History) (e : PlaneEvent) : Decidable (p.CountsOnce d h e) :=
  inferInstanceAs (Decidable (∀ x ∈ p.reads d e, _))

/-- The counter of a session at an engine: that of the entry that was created for it, or the one
by its ID. -/
def Shows (p : Plane) (c : Control) (id : String) (k : Counter) : Prop :=
  if c.byPlace then ∃ x ∈ (p.table c).entries, x.owner = id ∧ k = ⟨0, x.bytes⟩
  else p.counters c id = some k

variable {d} {C : Crypto} {cfg : Config} {p p' : Plane} {h : History} {c : Control} {id : String}
  {k k' : Counter}

lemma shows_byPlace (hc : c.byPlace = true) :
    p.Shows c id k ↔ ∃ x ∈ (p.table c).entries, x.owner = id ∧ k = ⟨0, x.bytes⟩ := by
  rw [Shows, if_pos hc]

lemma shows_byId (hc : c.byPlace = false) : p.Shows c id k ↔ p.counters c id = some k := by
  rw [Shows, hc, if_neg Bool.false_ne_true]

lemma Shows.unique (howners : (p.table c).owners.Nodup) (h : p.Shows c id k) (h' : p.Shows c id k') :
    k = k' := by
  cases hc : c.byPlace with
  | true =>
    obtain ⟨x, hx, hxid, rfl⟩ := (shows_byPlace hc).mp h
    obtain ⟨y, hy, hyid, rfl⟩ := (shows_byPlace hc).mp h'
    rw [inj_on_of_nodup_map howners hx hy (hxid.trans hyid.symm)]
  | false =>
    have heq := ((shows_byId hc).mp h).symm.trans ((shows_byId hc).mp h')
    exact Option.some.inj heq

/-- What a step does to the counters: one is new or counts on, and what it counts has moved. -/
def Evolves (p p' : Plane) (e : PlaneEvent) : Prop :=
  ∀ c id k', p'.Shows c id k' →
    k'.count = 0 ∨ ∃ k ev, p.Shows c id k ∧ k' = k.after ev ∧ ev.moved ≤ p.moves e c id

variable {e : PlaneEvent} {o : CallOutcome}

lemma Evolves.of_eq (htable : p'.table = p.table) (hcounters : p'.counters = p.counters) :
    p.Evolves p' e := by
  intro c id k' hk
  refine .inr ⟨k', .move 0, ?_, rfl, Nat.zero_le _⟩
  rwa [Shows, htable, hcounters] at hk

lemma evolves_call {k : ControlCall}
    (htable : p'.table = update p.table c (c.call d (p.table c) k o).1)
    (hcounters : p'.counters = p.counters) : p.Evolves p' e := by
  intro c' id k' hk
  cases hc : c'.byPlace with
  | false =>
    refine .inr ⟨k', .move 0, ?_, rfl, Nat.zero_le _⟩
    rw [shows_byId hc, hcounters] at hk
    rwa [shows_byId hc]
  | true =>
    obtain ⟨x, hx, rfl, rfl⟩ := (shows_byPlace hc).mp hk
    rw [htable] at hx
    by_cases heq : c' = c
    · subst heq
      rw [update_self] at hx
      rcases Control.exists_of_mem_call hx with hzero | ⟨y, hy, howner, hbytes⟩
      · exact .inl hzero
      · refine .inr ⟨⟨0, y.bytes⟩, .move 0, ?_, by rw [← hbytes]; rfl, Nat.zero_le _⟩
        exact (shows_byPlace hc).mpr ⟨y, hy, howner, rfl⟩
    · rw [update_of_ne heq] at hx
      refine .inr ⟨⟨0, x.bytes⟩, .move 0, ?_, rfl, Nat.zero_le _⟩
      exact (shows_byPlace hc).mpr ⟨x, hx, rfl, rfl⟩

lemma evolves_traffic (c : Control) (owner : String) (place : Option ℕ) (n : ℕ) :
    p.Evolves { p with table := update p.table c ((p.table c).count owner place n) }
      (.traffic c owner place n) := by
  intro c' id k' hk
  cases hc : c'.byPlace with
  | false =>
    refine .inr ⟨k', .move 0, ?_, rfl, Nat.zero_le _⟩
    rwa [shows_byId hc] at hk ⊢
  | true =>
    obtain ⟨x, hx, rfl, rfl⟩ := (shows_byPlace hc).mp hk
    by_cases heq : c' = c
    · subst heq
      simp only [update_self] at hx
      obtain ⟨y, hy, rfl⟩ := mem_map.mp hx
      have hshows : p.Shows c' y.owner ⟨0, y.bytes⟩ := (shows_byPlace hc).mpr ⟨y, hy, rfl, rfl⟩
      by_cases hmatch : y.owner = owner ∧ y.place = place
      · rw [if_pos hmatch]
        refine .inr ⟨_, .move n, hshows, rfl, ?_⟩
        -- the entry is there, so the data moves
        have hany : ((p.table c').entries.any fun x => x.owner == owner && x.place == place) = true :=
          any_eq_true.mpr ⟨y, hy, by simpa using hmatch⟩
        rw [moves, if_pos ⟨rfl, hmatch.1.symm, hc, hany⟩]
        exact Nat.le_refl n
      · rw [if_neg hmatch]
        exact .inr ⟨_, .move 0, hshows, rfl, Nat.zero_le _⟩
    · simp only [update_of_ne heq] at hx
      exact .inr ⟨_, .move 0, (shows_byPlace hc).mpr ⟨x, hx, rfl, rfl⟩, rfl, Nat.zero_le _⟩

lemma evolves_count (c : Control) (id : String) (ev : CounterEvent) :
    p.Evolves (p.count c id ev) (.count c id ev) := by
  intro c' id' k' hk
  have hsame : p.Shows c' id' k' → k'.count = 0 ∨ ∃ k ev', p.Shows c' id' k ∧ k' = k.after ev' ∧
      ev'.moved ≤ p.moves (.count c id ev) c' id' :=
    fun h => .inr ⟨k', .move 0, h, rfl, Nat.zero_le _⟩
  cases hc : c'.byPlace with
  | true =>
    rw [shows_byPlace hc] at hk
    exact hsame ((shows_byPlace hc).mpr hk)
  | false =>
    rw [shows_byId hc] at hk
    by_cases heq : c' = c ∧ id' = id
    · obtain ⟨rfl, rfl⟩ := heq
      simp only [count, update_self] at hk
      cases hcounter : p.counters c' id' with
      | some k =>
        rw [hcounter] at hk
        cases hk
        refine .inr ⟨k, ev, (shows_byId hc).mpr hcounter, rfl, ?_⟩
        rw [moves, if_pos ⟨rfl, rfl, hc, by rw [hcounter]; rfl⟩]
      | none =>
        rw [hcounter] at hk
        cases ev with
        | move n => cases hk
        | restart since =>
          cases hk
          exact .inl rfl
    · refine hsame ((shows_byId hc).mpr ?_)
      rw [← hk]
      simp only [count]
      by_cases heq' : c' = c
      · subst heq'
        rw [update_self, update_of_ne fun hid => heq ⟨rfl, hid⟩]
      · rw [update_of_ne heq']

lemma evolves_of_becomes (h : p.Becomes C cfg d e p') : p.Evolves p' e := by
  cases h with
  | call => exact evolves_call rfl rfl
  | traffic => exact evolves_traffic _ _ _ _
  | count => exact evolves_count _ _ _
  | access =>
    refine Evolves.of_eq ?_ ?_
    · unfold access
      split <;> rfl
    · unfold access
      split <;> rfl
  | _ => exact Evolves.of_eq rfl rfl

/-- What is read of an engine is the counters of listed sessions. -/
lemma of_mem_usage {engine : ℕ} {sessions : List MeteredSession} {rs : List UsageReading}
    {r : UsageReading} (h : p.usage d c engine sessions o = some rs)
    (hown : c.byPlace = true → ∀ s ∈ sessions, ∀ y ∈ (p.table c).entries,
      y.place = c.place d s.allocation.resourceSlot → y.owner = s.allocation.id) (hr : r ∈ rs) :
    r.engine = engine ∧ (∃ s ∈ sessions, s.allocation.id = r.sessionId) ∧
      ∃ k, p.Shows c r.sessionId k ∧ r.mark = k.reading := by
  cases o with
  | failed n => cases h
  | ok =>
    have hbyId : c.byPlace = false → r ∈ (sessions.map MeteredSession.allocation).filterMap
        (fun a => (p.counters c a.id).map fun k => ⟨a.id, engine, k.since, k.count⟩) →
        r.engine = engine ∧ (∃ s ∈ sessions, s.allocation.id = r.sessionId) ∧
          ∃ k, p.Shows c r.sessionId k ∧ r.mark = k.reading := by
      intro hc hr
      obtain ⟨a, ha, hr⟩ := mem_filterMap.mp hr
      obtain ⟨s, hs, rfl⟩ := mem_map.mp ha
      obtain ⟨k, hk, rfl⟩ := Option.map_eq_some_iff.mp hr
      exact ⟨rfl, ⟨s, hs, rfl⟩, k, (shows_byId hc).mpr hk, rfl⟩
    cases c with
    | shadowsocks =>
      cases h
      obtain ⟨a, ha, hr⟩ := mem_filterMap.mp hr
      obtain ⟨s, hs, rfl⟩ := mem_map.mp ha
      obtain ⟨x, hx, rfl⟩ := Option.map_eq_some_iff.mp hr
      have hmem := mem_of_find?_eq_some hx
      have hplace : x.place = some (d.portStart + s.allocation.resourceSlot) := by
        simpa using find?_some hx
      exact ⟨rfl, ⟨s, hs, rfl⟩, _,
        (shows_byPlace rfl).mpr ⟨x, hmem, hown rfl s hs x hmem hplace, rfl⟩, rfl⟩
    | wireguard =>
      simp only [usage, Control.usage] at h
      split at h
      · cases h
        obtain ⟨x, hx, hr⟩ := mem_filterMap.mp hr
        obtain ⟨a, ha, rfl⟩ := Option.map_eq_some_iff.mp hr
        obtain ⟨s, hs, rfl⟩ := mem_map.mp
          (mem_reverse.mp (mem_of_find?_eq_some ha))
        have hplace : x.place = some (s.allocation.resourceSlot + 2) := by
          simpa using find?_some ha
        exact ⟨rfl, ⟨s, hs, rfl⟩, _,
          (shows_byPlace rfl).mpr ⟨x, hx, hown rfl s hs x hx hplace, rfl⟩, rfl⟩
      · cases h
    | _ =>
      cases h
      exact hbyId rfl hr

end Plane

/-! ### The meter in a run -/

namespace Job

/-- The meter as the job leaves it with what it has read so far. -/
def view (m : UsageMeter) : Job → UsageMeter
  | .meter sessions _ readings _ => readings.foldl (UsageMeter.keepListed sessions) m
  | _ => m

/-- What the job is going to charge a session with, for what it has read so far. -/
def owed (m : UsageMeter) (id : String) : Job → ℕ
  | .meter sessions _ readings _ =>
    UsageMeter.loopDelta (fun r => r.sessionId == id) sessions m readings
  | .record moved => (moved id).getD 0
  | _ => 0

lemma view_of_not_isMeter {j : Job} (h : j.isMeter = false) (m : UsageMeter) : j.view m = m := by
  match j with
  | .startup | .reconcile .. | .kick .. | .enroll _ => rfl

@[simp] lemma isMeter_after (ok : Bool) (j : Job) : (j.after ok).isMeter = j.isMeter := by
  match j with
  | .reconcile _ (_ :: _) _ _ | .kick _ (_ :: _) | .enroll _
  | .startup | .reconcile _ [] _ _ | .kick _ [] | .meter .. | .record _ => rfl

lemma Calls.isMeter {j : Job} {c : Control} {k : ControlCall} (h : j.Calls c k) :
    j.isMeter = false := by
  cases h <;> rfl

lemma isMeter_of_resume {j : Job} {d : DataPlane} {new : List Job} (h : j.resume d = some new) :
    j.isMeter = false := by
  match j with
  | .meter .. | .record _ => cases h
  | .startup | .reconcile .. | .kick .. | .enroll _ => rfl

lemma owed_of_not_isMeter {j : Job} (h : j.isMeter = false) (m : UsageMeter) (id : String) :
    j.owed m id = 0 := by
  match j with
  | .startup | .reconcile .. | .kick .. | .enroll _ => rfl

end Job

namespace Plane

variable {p p' : Plane} {pre old new post : List Job} {j : Job}

/-- The meter with all that was read so far. -/
def view (p : Plane) : UsageMeter := p.jobs.foldl Job.view p.meter

/-- What is going to be charged for what was read so far. -/
def owed (p : Plane) (id : String) : ℕ := (p.jobs.map (Job.owed p.meter id)).sum

lemma foldl_view {jobs : List Job} (h : ∀ j ∈ jobs, j.isMeter = false) (m : UsageMeter) :
    jobs.foldl Job.view m = m := by
  induction jobs with
  | nil => rfl
  | cons j jobs ih =>
    rw [foldl_cons, Job.view_of_not_isMeter (h j mem_cons_self)]
    exact ih fun j' hj' => h j' (mem_cons_of_mem _ hj')

lemma sum_owed {jobs : List Job} (h : ∀ j ∈ jobs, j.isMeter = false) (m : UsageMeter)
    (id : String) : (jobs.map (Job.owed m id)).sum = 0 := by
  refine sum_eq_zero fun n hn => ?_
  obtain ⟨j, hj, rfl⟩ := mem_map.mp hn
  exact Job.owed_of_not_isMeter (h j hj) m id

/-- Only the job of the meter matters for these. -/
lemma view_eq (hjobs : p.jobs = pre ++ [j] ++ post)
    (hother : ∀ j' ∈ pre ++ post, j'.isMeter = false) : p.view = j.view p.meter := by
  rw [view, hjobs, foldl_append, foldl_append,
    foldl_view fun j' hj' => hother j' (mem_append_left _ hj'),
    foldl_view fun j' hj' => hother j' (mem_append_right _ hj')]
  rfl

lemma owed_eq (hjobs : p.jobs = pre ++ [j] ++ post)
    (hother : ∀ j' ∈ pre ++ post, j'.isMeter = false) (id : String) :
    p.owed id = j.owed p.meter id := by
  rw [owed, hjobs, map_append, map_append, sum_append, sum_append,
    sum_owed fun j' hj' => hother j' (mem_append_left _ hj'),
    sum_owed fun j' hj' => hother j' (mem_append_right _ hj')]
  simp

variable (hmeter : p'.meter = p.meter) (hjobs : p.jobs = pre ++ old ++ post)
  (hjobs' : p'.jobs = pre ++ new ++ post) (hold : ∀ j ∈ old, j.isMeter = false)
  (hnew : ∀ j ∈ new, j.isMeter = false)

include hmeter hjobs hjobs' hold hnew

/-- Steps of other jobs make no difference to them. -/
lemma view_replaced : p'.view = p.view := by
  simp only [view, hmeter, hjobs, hjobs', foldl_append, foldl_view hold, foldl_view hnew]

lemma owed_replaced (id : String) : p'.owed id = p.owed id := by
  simp only [owed, hmeter, hjobs, hjobs', map_append, sum_append, sum_owed hold,
    sum_owed hnew]

end Plane

/-- The invariant of runs whose readings are of what was created for the listed sessions.
`reported` is what was reported so far for each pair of an engine and a session. -/
structure Metered (C : Crypto) (cfg : Config) (d : DataPlane) (s : Plane × History)
    (reported : MeterKey → ℕ) : Prop where
  lineage : Lineage C cfg d s
  single : (s.1.jobs.filter Job.isMeter).length ≤ 1
  reading : ∀ sessions rest readings failures, .meter sessions rest readings failures ∈ s.1.jobs →
    rest <:+ d.controls ∧ failures + rest.length ≤ d.controls.length ∧
      (readings = [] ∨ failures + rest.length < d.controls.length)
  seen : ∀ k, s.1.view.last k ≠ none → k ∈ s.2.read
  reported_le : ∀ i c id, d.controls[i]? = some c → reported (i, id) ≤ s.2.moved c id
  counted : ∀ i c id, d.controls[i]? = some c →
    ((i, id) ∈ s.2.read → s.1.view.last (i, id) ≠ none) → ∀ k, s.1.Shows c id k →
      reported (i, id) + k.unreported (s.1.view.last (i, id)) ≤ s.2.moved c id
  charged : ∀ id, s.2.charged id + s.1.owed id
    ≤ ∑ i ∈ Finset.range d.controls.length, reported (i, id)

namespace Metered

variable {C : Crypto} {cfg : Config} {d : DataPlane} {p p' : Plane} {h h' : History}
  {reported : MeterKey → ℕ} {pre old new post : List Job} {j : Job}

lemma others (hm : Metered C cfg d (p, h) reported) (hjobs : p.jobs = pre ++ [j] ++ post)
    (hj : j.isMeter = true) : ∀ j' ∈ pre ++ post, j'.isMeter = false := by
  have hsingle := hm.single
  simp only [hjobs, filter_append, length_append, filter_cons, hj, if_true,
    filter_nil, length_singleton] at hsingle
  intro j' hj'
  have hnil : (pre ++ post).filter Job.isMeter = [] := by
    rw [← length_eq_zero_iff, filter_append, length_append]
    omega
  simpa using filter_eq_nil_iff.mp hnil j' hj'

lemma single_replaced (hm : Metered C cfg d (p, h) reported)
    (hjobs : p.jobs = pre ++ old ++ post) (hjobs' : p'.jobs = pre ++ new ++ post)
    (hnew : (new.filter Job.isMeter).length ≤ (old.filter Job.isMeter).length) :
    (p'.jobs.filter Job.isMeter).length ≤ 1 := by
  have hsingle := hm.single
  simp only [hjobs, hjobs', filter_append, length_append] at hsingle ⊢
  omega

variable {e : PlaneEvent} {c : Control} {rest : List Control} {i failures now : ℕ}
  {readings rs : List UsageReading} {sessions : List MeteredSession} {o : CallOutcome}
  {op : Access} {handed : Handed} {n : Node}

section

variable (hm : Metered C cfg d (p, h) reported)
include hm

/-- A step in which the meter reads nothing. -/
lemma quiet (hl : Lineage C cfg d (p', h.after C cfg d p e))
    (hbecomes : p.Becomes C cfg d e p') (hreads : p.reads d e = none)
    (hsingle : (p'.jobs.filter Job.isMeter).length ≤ 1)
    (hreading : ∀ sessions rest readings failures,
      .meter sessions rest readings failures ∈ p'.jobs →
        rest <:+ d.controls ∧ failures + rest.length ≤ d.controls.length ∧
          (readings = [] ∨ failures + rest.length < d.controls.length))
    (hview : ∀ k, p'.view.last k = p.view.last k ∨ p'.view.last k = none)
    (hcharged : ∀ id, p.charges C cfg e id + p'.owed id ≤ p.owed id) :
    Metered C cfg d (p', h.after C cfg d p e) reported := by
  have hread : (h.after C cfg d p e).read = h.read := by simp [History.after, hreads]
  have hmoved : ∀ c id, (h.after C cfg d p e).moved c id = h.moved c id + p.moves e c id :=
    fun _ _ => rfl
  refine ⟨hl, hsingle, hreading, ?_, ?_, ?_, ?_⟩
  · intro k hk
    rw [hread]
    rcases hview k with hsame | hnone
    · exact hm.seen k (hsame ▸ hk)
    · exact absurd hnone hk
  · exact fun i c id hc => (hm.reported_le i c id hc).trans (Nat.le_add_right _ _)
  · intro i c id hc hknown k' hk'
    rw [hread] at hknown
    -- a counter that was never read has no reading that could be forgotten
    have hlast : p'.view.last (i, id) = p.view.last (i, id) := by
      rcases hview (i, id) with hsame | hnone
      · exact hsame
      · have hunread : (i, id) ∉ h.read := fun hmem => hknown hmem hnone
        have hold : p.view.last (i, id) = none := by
          by_contra hne
          exact hunread (hm.seen _ hne)
        rw [hnone, hold]
    simp only [hlast] at hknown ⊢
    rw [hmoved]
    rcases Plane.evolves_of_becomes hbecomes c id k' hk' with hzero | ⟨k, ev, hk, rfl, hev⟩
    · have hle := Counter.unreported_le_count (p.view.last (i, id)) k'
      have hreported := hm.reported_le i c id hc
      simp only at hreported
      omega
    · have hle := Counter.unreported_after_le (p.view.last (i, id)) k ev
      have hcounted := hm.counted i c id hc hknown k hk
      simp only at hcounted
      omega
  · intro id
    have hle := hm.charged id
    have hcharge := hcharged id
    have heq : (h.after C cfg d p e).charged id = h.charged id + p.charges C cfg e id := rfl
    simp only at hle ⊢
    omega

lemma reading_replaced (hjobs : p.jobs = pre ++ old ++ post) (hjobs' : p'.jobs = pre ++ new ++ post)
    (hnew : ∀ sessions rest readings failures, .meter sessions rest readings failures ∈ new →
      rest <:+ d.controls ∧ failures + rest.length ≤ d.controls.length ∧
        (readings = [] ∨ failures + rest.length < d.controls.length)) :
    ∀ sessions rest readings failures, .meter sessions rest readings failures ∈ p'.jobs →
      rest <:+ d.controls ∧ failures + rest.length ≤ d.controls.length ∧
        (readings = [] ∨ failures + rest.length < d.controls.length) := by
  intro sessions rest readings failures hmem
  rw [hjobs'] at hmem
  rcases Lineage.mem_replaced hjobs hmem with hmem | hmem
  · exact hm.reading sessions rest readings failures hmem
  · exact hnew sessions rest readings failures hmem

/-- A step of other jobs. -/
lemma replace (hl : Lineage C cfg d (p', h.after C cfg d p e)) (hbecomes : p.Becomes C cfg d e p')
    (hreads : p.reads d e = none) (hcharges : ∀ id, p.charges C cfg e id = 0)
    (hmeter : p'.meter = p.meter) (hjobs : p.jobs = pre ++ old ++ post)
    (hjobs' : p'.jobs = pre ++ new ++ post) (hold : ∀ j ∈ old, j.isMeter = false)
    (hnew : ∀ j ∈ new, j.isMeter = false) : Metered C cfg d (p', h.after C cfg d p e) reported := by
  have hnone : new.filter Job.isMeter = [] := filter_eq_nil_iff.mpr fun j hj => by
    simp [hnew j hj]
  refine hm.quiet hl hbecomes hreads (hm.single_replaced hjobs hjobs' (by simp [hnone])) ?_ ?_ ?_
  · refine hm.reading_replaced hjobs hjobs' fun sessions rest readings failures hmem => ?_
    cases hnew _ hmem
  · exact fun k => .inl (by rw [Plane.view_replaced hmeter hjobs hjobs' hold hnew])
  · intro id
    rw [hcharges, Plane.owed_replaced hmeter hjobs hjobs' hold hnew, Nat.zero_add]

end

/-- The engine that the job of the meter reads next. -/
lemma controls_getElem (h : c :: rest <:+ d.controls) :
    d.controls[d.controls.length - (rest.length + 1)]? = some c := by
  obtain ⟨done, hdone⟩ := h
  have hlen : d.controls.length = done.length + (rest.length + 1) := by
    rw [← hdone, length_append, length_cons]
  rw [hlen, Nat.add_sub_cancel, ← hdone]
  simp

section

variable (hm : Metered C cfg d (p, h) reported)
include hm

/-- What is reported when the meter reads a counter of a session is at most what has moved. -/
lemma reported_reading {r : UsageReading} {k : Counter}
    (hreads : p.reads d e = some (sessions, c, rs)) (honce : p.CountsOnce d h e)
    (hview : p.view = readings.foldl (UsageMeter.keepListed sessions) p.meter)
    (hc : d.controls[i]? = some c) (hr : r ∈ rs) (hi : r.engine = i)
    (hlisted : ∃ s ∈ sessions, s.allocation.id = r.sessionId) (hshows : p.Shows c r.sessionId k)
    (hrs : ∀ r' ∈ rs, r'.key = r.key → r'.mark = k.reading) :
    reported r.key + UsageMeter.loopDelta (fun r' => r'.key == r.key) sessions p.view rs
        ≤ h.moved c r.sessionId ∧
      (rs.foldl (UsageMeter.keepListed sessions) p.view).last r.key = some k.reading := by
  obtain ⟨session, hsession⟩ : ∃ session, sessionsById sessions r.key.2 = some session := by
    obtain ⟨s, hs, hid⟩ := hlisted
    exact UsageMeter.exists_sessionsById (t := ⟨[], sessions, []⟩) ⟨s, hs, hid⟩
  have hany : rs.any (fun r' => r'.key == r.key) = true :=
    any_eq_true.mpr ⟨r, hr, by simp⟩
  have hkey : r.key = (i, r.sessionId) := by rw [← hi]; rfl
  refine ⟨?_, ?_⟩
  · rw [UsageMeter.loopDelta_eq_report hsession rs p.view hrs, if_pos hany]
    by_cases hknown : r.key ∈ h.read → p.view.last r.key ≠ none
    · have hle := Round.report_le_unreported (p.view.last r.key) k
        (p.view.countsInFull session k.since)
      rw [hkey] at hknown hle ⊢
      have hcounted := hm.counted i c r.sessionId hc hknown k hshows
      simp only at hcounted
      omega
    · obtain ⟨hmem, hnone⟩ : r.key ∈ h.read ∧ p.view.last r.key = none := by
        simpa using hknown
      have hmeter : p.meter.last r.key = none := by
        by_contra hne
        exact UsageMeter.foldl_keepListed_ne_none readings hne (hview ▸ hnone)
      have hfull : p.view.countsInFull session k.since = false := by
        have hsince : r.since = k.since := congrArg Prod.fst (hrs r hr rfl)
        have hfalse := honce _ hreads r hr hmem hmeter session hsession
        rw [hsince] at hfalse
        simpa [UsageMeter.countsInFull, hview, UsageMeter.foldl_keepListed_startedAt] using hfalse
      rw [hnone, hfull, hkey]
      exact hm.reported_le i c r.sessionId hc
  · rw [UsageMeter.foldl_keepListed_last (by rw [hsession]; rfl) rs p.view hrs, if_pos hany]

/-- What a reading of an engine does for a pair: it takes up the counter of the session, or leaves
the pair alone. -/
lemma read_cases {engine : ℕ}
    (hreads : p.reads d e = some (sessions, c, rs)) (hrs : p.usage d c engine sessions o = some rs)
    (hown : p.ReadsOwn d e) (honce : p.CountsOnce d h e)
    (hview : p.view = readings.foldl (UsageMeter.keepListed sessions) p.meter)
    (hcontrol : d.controls[engine]? = some c) (i : ℕ) (c' : Control) (id : String)
    (hc' : d.controls[i]? = some c') : (∃ k, p.Shows c' id k ∧
        reported (i, id) + UsageMeter.loopDelta (fun r => r.key == (i, id)) sessions p.view rs
          ≤ h.moved c' id ∧
        (rs.foldl (UsageMeter.keepListed sessions) p.view).last (i, id) = some k.reading) ∨
      ((i, id) ∉ rs.map UsageReading.key ∧
        UsageMeter.loopDelta (fun r => r.key == (i, id)) sessions p.view rs = 0) := by
  have hofmem : ∀ r ∈ rs, r.engine = engine ∧ (∃ s ∈ sessions, s.allocation.id = r.sessionId) ∧
      ∃ k, p.Shows c r.sessionId k ∧ r.mark = k.reading := fun r hr =>
    Plane.of_mem_usage hrs (hown _ hreads) hr
  by_cases hkey : (i, id) ∈ rs.map UsageReading.key
  · obtain ⟨r, hr, hkey⟩ := mem_map.mp hkey
    obtain ⟨hengine, hlisted, k, hk, -⟩ := hofmem r hr
    obtain ⟨rfl, rfl⟩ : r.engine = i ∧ r.sessionId = id := Prod.mk.inj hkey
    obtain rfl : c' = c := by
      rw [hengine, hcontrol] at hc'
      exact (Option.some.inj hc').symm
    -- all readings of the pair are of the one counter of the session
    have hsame : ∀ r' ∈ rs, r'.key = r.key → r'.mark = k.reading := by
      intro r' hr' hkey'
      obtain ⟨-, -, k', hk', hmark⟩ := hofmem r' hr'
      have hid : r'.sessionId = r.sessionId := congrArg Prod.snd hkey'
      rw [hid] at hk'
      rw [hmark, Plane.Shows.unique (hm.lineage.owners c') hk' hk]
    have hreported := hm.reported_reading hreads honce hview hc' hr rfl hlisted hk hsame
    exact .inl ⟨k, hk, hreported⟩
  · refine .inr ⟨hkey, UsageMeter.loopDelta_eq_zero (fun r hr => ?_) _⟩
    exact beq_eq_false_iff_ne.mpr fun heq => hkey (mem_map.mpr ⟨r, hr, heq⟩)

/-- The meter reads an engine. -/
lemma read (hjobs : p.jobs = pre ++ [.meter sessions (c :: rest) readings failures] ++ post)
    (hi : p.jobs[i]? = some (.meter sessions (c :: rest) readings failures))
    (hrs : p.usage d c (d.controls.length - (rest.length + 1)) sessions o = some rs)
    (hown : p.ReadsOwn d (.advance i o)) (honce : p.CountsOnce d h (.advance i o))
    (hp' : p' = { p with jobs := pre ++ [.meter sessions rest (readings ++ rs) failures] ++ post })
    (hl : Lineage C cfg d (p', h.after C cfg d p (.advance i o))) :
    Metered C cfg d (p', h.after C cfg d p (.advance i o)) fun k =>
      reported k + UsageMeter.loopDelta (fun r => r.key == k) sessions p.view rs := by
  have hmem : .meter sessions (c :: rest) readings failures ∈ p.jobs := mem_of_getElem? hi
  have hjobs' : p'.jobs = pre ++ [.meter sessions rest (readings ++ rs) failures] ++ post := by
    rw [hp']
  have hmeter : p'.meter = p.meter := by rw [hp']
  have hshows : ∀ c' id k, p'.Shows c' id k ↔ p.Shows c' id k := by
    intro c' id k
    rw [hp', Plane.Shows, Plane.Shows]
  have hreads : p.reads d (.advance i o) = some (sessions, c, rs) := by
    simp only [Plane.reads, hi, hrs, Option.map_some]
  have hothers := hm.others hjobs rfl
  have hview : p.view = readings.foldl (UsageMeter.keepListed sessions) p.meter :=
    Plane.view_eq hjobs hothers
  have hview' : p'.view = rs.foldl (UsageMeter.keepListed sessions) p.view := by
    rw [Plane.view_eq hjobs' hothers, Job.view, foldl_append, hmeter, hview]
  obtain ⟨hsuffix, hle, hfailures⟩ := hm.reading _ _ _ _ hmem
  have hcontrol := controls_getElem hsuffix
  have hread : (h.after C cfg d p (.advance i o)).read = h.read ++ rs.map UsageReading.key := by
    simp only [History.after, hreads, Option.elim_some]
  have hunread : ∀ k, k ∉ rs.map UsageReading.key → p'.view.last k = p.view.last k := by
    intro k hk
    rw [hview']
    exact UsageMeter.foldl_keepListed_of_ne (fun r hr hkey => hk (mem_map.mpr ⟨r, hr, hkey⟩)) _
  have hcases := hm.read_cases hreads hrs hown honce hview hcontrol
  refine ⟨hl, ?_, ?_, ?_, ?_, ?_, ?_⟩
  · exact hm.single_replaced hjobs hjobs' (Nat.le_refl 1)
  · refine hm.reading_replaced hjobs hjobs' fun sessions' rest' readings' failures' hmem' => ?_
    cases mem_singleton.mp hmem'
    rw [length_cons] at hle
    exact ⟨(suffix_cons _ _).trans hsuffix, by omega, .inr (by omega)⟩
  · intro k hk
    rw [hread, mem_append]
    by_cases hkey : k ∈ rs.map UsageReading.key
    · exact .inr hkey
    · rw [hunread k hkey] at hk
      exact .inl (hm.seen k hk)
  · intro i' c' id hc'
    rcases hcases i' c' id hc' with ⟨k, -, hle, -⟩ | ⟨-, hzero⟩
    · exact hle
    · rw [hzero]
      exact hm.reported_le i' c' id hc'
  · intro i' c' id hc' hknown k' hk'
    rw [hshows] at hk'
    rcases hcases i' c' id hc' with ⟨k, hk, hle, hlast⟩ | ⟨hkey, hzero⟩
    · rw [hview', hlast, Plane.Shows.unique (hm.lineage.owners c') hk' hk,
        Counter.unreported_reading]
      exact hle
    · rw [hunread _ hkey] at hknown ⊢
      rw [hzero]
      refine hm.counted i' c' id hc' (fun hmem => hknown ?_) k' hk'
      rw [hread]
      exact mem_append_left _ hmem
  · intro id
    have howed : p'.owed id = p.owed id +
        UsageMeter.loopDelta (fun r => r.sessionId == id) sessions p.view rs := by
      rw [Plane.owed_eq hjobs' hothers, Plane.owed_eq hjobs hothers, Job.owed, Job.owed, hmeter,
        UsageMeter.loopDelta_append, ← hview]
    have hengine : ∀ r ∈ rs, r.engine = d.controls.length - (rest.length + 1) := fun r hr =>
      (Plane.of_mem_usage hrs (hown _ hreads) hr).1
    have hsum : UsageMeter.loopDelta (fun r => r.sessionId == id) sessions p.view rs ≤ _ :=
      UsageMeter.loopDelta_le_sum hengine (List.getElem?_eq_some_iff.mp hcontrol).1 p.view id
    have hcharged := hm.charged id
    have hsame : (h.after C cfg d p (.advance i o)).charged id = h.charged id := rfl
    simp only [hsame, howed, Finset.sum_add_distrib] at hcharged ⊢
    omega

end

lemma reads_of_operation {o : StoreOutcome} (hop : p.operation e = some (op, o)) :
    p.reads d e = none := by
  cases e with
  | advance => cases hop
  | _ => rfl

lemma reads_of_not_isMeter (hi : p.jobs[i]? = some j) (hj : j.isMeter = false) :
    p.reads d (.advance i o) = none := by
  simp only [Plane.reads, hi]
  split
  · rename_i heq
    cases heq
    cases hj
  · rfl

/-- The jobs that follow from an operation are not of the meter. -/
lemma isMeter_handover (hh : Handover C cfg d p h n handed new) : ∀ j ∈ new, j.isMeter = false := by
  intro j hj
  rcases hh.jobs with rfl | rfl | ⟨_, -, _, _, rfl⟩
  · cases hj
  · rw [mem_singleton.mp hj]
    rfl
  · rw [mem_singleton.mp hj]
    rfl

section

variable (hm : Metered C cfg d (p, h) reported)
include hm

/-- What was reported is charged. -/
lemma record {moved : String → Option ℕ} {o : StoreOutcome}
    (hl : Lineage C cfg d ({ p with node := n, jobs := pre ++ new ++ post }, h.after C cfg d p e))
    (hbecomes : p.Becomes C cfg d e { p with node := n, jobs := pre ++ new ++ post })
    (hop : p.operation e = some (.recordUsage moved now, o))
    (hjobs : p.jobs = pre ++ [.record moved] ++ post) (hh : Handover C cfg d p h n handed new) :
    Metered C cfg d
      ({ p with node := n, jobs := pre ++ new ++ post }, h.after C cfg d p e) reported := by
  have hothers := hm.others hjobs rfl
  have hnew := isMeter_handover hh
  have hafter : ∀ j ∈ pre ++ new ++ post, j.isMeter = false := by
    intro j hj
    simp only [mem_append] at hj hothers
    rcases hj with (hj | hj) | hj
    · exact hothers j (.inl hj)
    · exact hnew j hj
    · exact hothers j (.inr hj)
  have hnone : (pre ++ new ++ post).filter Job.isMeter = [] :=
    filter_eq_nil_iff.mpr fun j hj => by simp [hafter j hj]
  refine hm.quiet hl hbecomes (reads_of_operation hop)
    (by simp only [hnone, length_nil, zero_le]) ?_ ?_ ?_
  · intro sessions rest readings failures hmem
    cases hafter _ hmem
  · refine fun k => .inl ?_
    rw [Plane.view_eq hjobs hothers, Plane.view, Plane.foldl_view hafter]
    rfl
  · intro id
    rw [Plane.owed_eq hjobs hothers, Plane.owed, Plane.sum_owed hafter, Nat.add_zero, Job.owed]
    simp only [Plane.charges, hop]
    split
    · split
      · exact Nat.le_refl _
      · exact Nat.zero_le _
    · exact Nat.zero_le _

/-- An operation of the service. -/
lemma access {o : StoreOutcome} {follow : Handed → List Job}
    (hl : Lineage C cfg d ({ p with node := n, jobs := pre ++ new ++ post }, h.after C cfg d p e))
    (hbecomes : p.Becomes C cfg d e { p with node := n, jobs := pre ++ new ++ post })
    (hop : p.operation e = some (op, o)) (hjobs : p.jobs = pre ++ old ++ post)
    (hfollows : Follows d old op follow) (hh : Handover C cfg d p h n handed new) :
    Metered C cfg d
      ({ p with node := n, jobs := pre ++ new ++ post }, h.after C cfg d p e) reported := by
  have hother : (∀ id, p.charges C cfg e id = 0) → (∀ j ∈ old, j.isMeter = false) →
      Metered C cfg d
        ({ p with node := n, jobs := pre ++ new ++ post }, h.after C cfg d p e) reported :=
    fun hcharges hold => hm.replace hl hbecomes (reads_of_operation hop) hcharges rfl hjobs rfl
      hold (isMeter_handover hh)
  cases hfollows with
  | record => exact hm.record hl hbecomes hop hjobs hh
  | refuse => exact hother (fun id => by simp only [Plane.charges, hop]) (by simp [Job.isMeter])
  | _ => exact hother (fun id => by simp only [Plane.charges, hop]) (forall_mem_nil _)

section

variable (hl : Lineage C cfg d (p', h.after C cfg d p (.advance i o)))
  (hbecomes : p.Becomes C cfg d (.advance i o) p') (hreads : p.reads d (.advance i o) = none)
include hl hbecomes hreads

/-- A call of the meter to an engine that does not answer. -/
lemma unread (hjobs : p.jobs = pre ++ [.meter sessions (c :: rest) readings failures] ++ post)
    (hp' : p' = { p with jobs := pre ++ [.meter sessions rest readings (failures + 1)] ++ post }) :
    Metered C cfg d (p', h.after C cfg d p (.advance i o)) reported := by
  have hjobs' : p'.jobs = pre ++ [.meter sessions rest readings (failures + 1)] ++ post := by
    rw [hp']
  have hmeter : p'.meter = p.meter := by rw [hp']
  have hothers := hm.others hjobs rfl
  obtain ⟨hsuffix, hle, hfailures⟩ := hm.reading sessions (c :: rest) readings failures
    (by simp [hjobs])
  refine hm.quiet hl hbecomes hreads (hm.single_replaced hjobs hjobs' (Nat.le_refl 1)) ?_ ?_ ?_
  · refine hm.reading_replaced hjobs hjobs' fun sessions' rest' readings' failures' hmem => ?_
    cases mem_singleton.mp hmem
    rw [length_cons] at hle hfailures
    exact ⟨(suffix_cons _ _).trans hsuffix, by omega, hfailures.imp_right (by omega)⟩
  · intro k
    rw [Plane.view_eq hjobs' hothers, Plane.view_eq hjobs hothers, hmeter]
    exact .inl rfl
  · intro id
    rw [Plane.owed_eq hjobs' hothers, Plane.owed_eq hjobs hothers, hmeter]
    exact Nat.le_of_eq (Nat.zero_add _)

/-- What was read is handed over to be charged. -/
lemma take (hjobs : p.jobs = pre ++ [.meter sessions [] readings failures] ++ post)
    (hp' : p' = { p with
      meter := (p.meter.take sessions readings).1
      jobs := pre ++ [.record (p.meter.take sessions readings).2] ++ post }) :
    Metered C cfg d (p', h.after C cfg d p (.advance i o)) reported := by
  have hjobs' : p'.jobs = pre ++ [.record (p.meter.take sessions readings).2] ++ post := by
    rw [hp']
  have hmeter : p'.meter = (p.meter.take sessions readings).1 := by rw [hp']
  have hothers := hm.others hjobs rfl
  refine hm.quiet hl hbecomes hreads (hm.single_replaced hjobs hjobs' (Nat.le_refl 1)) ?_ ?_ ?_
  · refine hm.reading_replaced hjobs hjobs' fun _ _ _ _ hmem => ?_
    cases mem_singleton.mp hmem
  · have hview : p.view = readings.foldl (UsageMeter.keepListed sessions) p.meter :=
      Plane.view_eq hjobs hothers
    have hview' : p'.view = p.view.retain sessions := by
      rw [hview, ← UsageMeter.foldl_keepListed_retain, ← UsageMeter.take_fst, ← hmeter]
      exact Plane.view_eq hjobs' hothers
    intro k
    simp only [hview', UsageMeter.retain]
    split
    · exact .inl rfl
    · exact .inr rfl
  · intro id
    rw [Plane.owed_eq hjobs' hothers, Plane.owed_eq hjobs hothers, Job.owed, Job.owed,
      UsageMeter.take_moved, UsageMeter.loopDelta_retain]
    exact (Nat.zero_add _).trans_le (min_le_left _ _)

/-- A tick of the meter ends when no engine has answered. -/
lemma unavailable (hjobs : p.jobs = pre ++ [.meter sessions [] readings failures] ++ post)
    (hall : failures = d.controls.length ∧ d.controls ≠ [])
    (hp' : p' = { p with jobs := pre ++ post }) :
    Metered C cfg d (p', h.after C cfg d p (.advance i o)) reported := by
  have hjobs' : p'.jobs = pre ++ [] ++ post := by rw [hp', append_nil]
  have hothers := hm.others hjobs rfl
  have hothers' : ∀ j ∈ p'.jobs, j.isMeter = false := by rwa [hjobs', append_nil]
  -- nothing has been read then
  obtain ⟨-, -, hreadings⟩ := hm.reading sessions [] readings failures (by simp [hjobs])
  obtain rfl : readings = [] := hreadings.resolve_right (by simp [hall.1])
  refine hm.quiet hl hbecomes hreads (hm.single_replaced hjobs hjobs' (Nat.zero_le _)) ?_ ?_ ?_
  · exact hm.reading_replaced hjobs hjobs' (by simp)
  · intro k
    rw [Plane.view_eq hjobs hothers, Plane.view, Plane.foldl_view hothers', hp']
    exact .inl rfl
  · intro id
    rw [Plane.owed, Plane.sum_owed hothers']
    exact Nat.zero_le _

end

section

variable (hl : Lineage C cfg d (p', h.after C cfg d p (.meterAllowances now)))
  (hbecomes : p.Becomes C cfg d (.meterAllowances now) p')
  (hjobs : p.jobs.all (fun j => !j.isMeter) = true)
include hl hbecomes hjobs

/-- A tick of the meter without a session to read. -/
lemma idle (hp' : p' = { p with meter := (p.meter.take [] []).1 }) :
    Metered C cfg d (p', h.after C cfg d p (.meterAllowances now)) reported := by
  have hothers : ∀ j ∈ p.jobs, j.isMeter = false := by simpa using hjobs
  have hjobs' : p'.jobs = p.jobs := by rw [hp']
  refine hm.quiet hl hbecomes rfl (hjobs' ▸ hm.single) (hjobs' ▸ hm.reading) ?_ ?_
  · intro k
    rw [Plane.view, hjobs', Plane.foldl_view hothers, hp']
    exact .inr rfl
  · intro id
    rw [Plane.owed, hjobs', Plane.sum_owed hothers]
    exact Nat.zero_le _

/-- A tick of the meter lists the sessions to read. -/
lemma list (hp' : p' = { p with jobs := p.jobs ++ [.meter sessions d.controls [] 0] }) :
    Metered C cfg d (p', h.after C cfg d p (.meterAllowances now)) reported := by
  have hothers : ∀ j ∈ p.jobs, j.isMeter = false := by simpa using hjobs
  have hjobs' : p'.jobs = p.jobs ++ [.meter sessions d.controls [] 0] ++ [] := by
    rw [hp', append_nil]
  have hothers' : ∀ j ∈ p.jobs ++ [], j.isMeter = false := by simpa using hjobs
  have hfilter : p.jobs.filter Job.isMeter = [] := filter_eq_nil_iff.mpr fun j hj => by
    simp [hothers j hj]
  refine hm.quiet hl hbecomes rfl ?_ ?_ ?_ ?_
  · rw [hjobs', append_nil, filter_append, hfilter]
    exact Nat.le_refl 1
  · refine hm.reading_replaced p.jobs_eq hjobs' fun _ _ _ _ hmem => ?_
    cases mem_singleton.mp hmem
    exact ⟨suffix_refl _, by simp, .inl rfl⟩
  · intro k
    rw [Plane.view_eq hjobs' hothers', Plane.view, Plane.foldl_view hothers, hp']
    exact .inl rfl
  · intro id
    rw [Plane.owed_eq hjobs' hothers']
    exact Nat.zero_le _

end

lemma step (hfresh : h.Fresh e) (hown : p.ReadsOwn d e)
    (honce : p.CountsOnce d h e) (hstep : p.serve C cfg d e = some p') :
    ∃ reported', Metered C cfg d (p', h.after C cfg d p e) reported' := by
  have hl := hm.lineage.step hfresh hstep
  have hbecomes := Plane.becomes_of_serve hstep
  cases hbecomes with
  | started => cases hstep
  | stopped => cases hstep
  | access hjobs hphase hop hfollows =>
    have hbecomes : Plane.Becomes C cfg d p _ _ := .access hjobs hphase hop hfollows
    obtain ⟨n, handed, new, heq, hh, -⟩ := hm.lineage.exists_handover hfresh hop hfollows _ _
    rw [heq] at hl hbecomes ⊢
    exact ⟨_, hm.access hl hbecomes hop hjobs hfollows hh⟩
  | call hjobs hi hpending =>
    have hj := (Job.calls_of_pending hpending).isMeter
    exact ⟨_, hm.replace hl (.call hjobs hi hpending) (reads_of_not_isMeter hi hj) (fun _ => rfl)
      rfl hjobs rfl (by simpa using hj) (by simpa using hj)⟩
  | resume hjobs hi hresume =>
    have hj := Job.isMeter_of_resume hresume
    refine ⟨_, hm.replace hl (.resume hjobs hi hresume) (reads_of_not_isMeter hi hj)
      (fun _ => rfl) rfl hjobs rfl (by simpa using hj) fun j' hj' => ?_⟩
    obtain ⟨_, _, -, rfl⟩ := Job.mem_resume hresume j' hj'
    rfl
  | exit hj hserves => cases (hm.lineage.serving _ hj).symm.trans hserves
  | retry hjobs | list hjobs | ready hjobs => cases hm.lineage.serving_at hjobs
  | meterIdle hjobs hempty => exact ⟨_, hm.idle hl (.meterIdle hjobs hempty) hjobs rfl⟩
  | meter hphase hjobs => exact ⟨_, hm.list hl (.meter hphase hjobs) hjobs rfl⟩
  | read hjobs hi hrs => exact ⟨_, hm.read hjobs hi hrs hown honce rfl hl⟩
  | unread hjobs hi hrs =>
    exact ⟨_, hm.unread hl (.unread hjobs hi hrs) (by simp [Plane.reads, hi, hrs]) hjobs rfl⟩
  | unavailable hjobs hi hall =>
    exact ⟨_, hm.unavailable hl (.unavailable hjobs hi hall) (by simp [Plane.reads, hi]) hjobs hall
      rfl⟩
  | take hjobs hi =>
    exact ⟨_, hm.take hl (.take hjobs hi) (by simp [Plane.reads, hi]) hjobs rfl⟩
  | traffic =>
    exact ⟨_, hm.replace hl .traffic rfl (fun _ => rfl) rfl p.jobs_eq p.jobs_eq (forall_mem_nil _)
      (forall_mem_nil _)⟩
  | count =>
    exact ⟨_, hm.replace hl .count rfl (fun _ => rfl) rfl p.jobs_eq p.jobs_eq (forall_mem_nil _)
      (forall_mem_nil _)⟩

end

lemma initial (now : ℕ) : Metered C cfg d (Plane.running now, History.none) fun _ => 0 := by
  have hjobs : (Plane.running now).jobs = [] := rfl
  refine ⟨Lineage.initial now, by simp [hjobs], by simp [hjobs], ?_, ?_, ?_, ?_⟩
  · exact fun k hk => absurd rfl hk
  · exact fun _ _ _ _ => Nat.zero_le _
  · intro i c id _ _ k hk
    cases hc : c.byPlace with
    | true =>
      obtain ⟨x, hx, -⟩ := (Plane.shows_byPlace hc).mp hk
      cases hx
    | false => cases (Plane.shows_byId hc).mp hk
  · exact fun _ => Nat.zero_le _

end Metered

/-- **A session is charged for its own data only.**  In every run in which no session ID is
generated twice, the meter reads at Shadowsocks and WireGuard only what was created for the
sessions that it lists, and counts nothing in full that it has read before, a session is charged
with no more than has moved through what the engines created for it. -/
theorem charged_le_moved {C : Crypto} {cfg : Config} {d : DataPlane} {now : ℕ} {s : Plane × History}
    (hs : (servingSystem C cfg d now).Reachable
      (fun s e => s.2.Fresh e ∧ s.1.ReadsOwn d e ∧ s.1.CountsOnce d s.2 e) s) (id : String) :
    s.2.charged id ≤ (d.controls.map fun c => s.2.moved c id).sum := by
  obtain ⟨reported, hm⟩ : ∃ reported, Metered C cfg d s reported := by
    refine hs.invariant (I := fun s => ∃ reported, Metered C cfg d s reported)
      ⟨_, Metered.initial now⟩ ?_
    rintro ⟨p, h⟩ e ⟨p', h'⟩ - ⟨reported, hm⟩ ⟨hfresh, hown, honce⟩ hstep
    obtain ⟨hstep, rfl⟩ := System.withHistory_step.mp hstep
    exact hm.step hfresh hown honce hstep
  calc s.2.charged id
      ≤ s.2.charged id + s.1.owed id := Nat.le_add_right _ _
    _ ≤ ∑ i ∈ Finset.range d.controls.length, reported (i, id) := hm.charged id
    _ ≤ (d.controls.map fun c => s.2.moved c id).sum := by
        rw [← Fin.sum_univ_eq_sum_range (fun i => reported (i, id)), ← Fin.sum_univ_fun_getElem]
        exact Finset.sum_le_sum fun i _ =>
          hm.reported_le i d.controls[i] id (getElem?_eq_getElem i.2)

namespace Sample

/-- A device of an invite with an allowance is provisioned and moves 500 bytes through
Shadowsocks. -/
def moving : List PlaneEvent :=
  [.createGrant metered 10 code "hash" .stored,
    .createSession code "phone" 11 token secret false false .stored] ++ sweep 0 ++ sweep 0 ++
      [.traffic .shadowsocks "Session00001" (some 20000) 500]

/-- A tick of the meter at 22, as the job `i`. -/
def meterTick (i : ℕ) : List PlaneEvent := .meterAllowances 22 :: sweep i ++ [.proceed i 22 .stored]

end Sample

/-- The device is charged and releases its session.  After the session is kicked another device gets
the slot and moves 300 bytes through the same port. -/
def handedOn : List PlaneEvent :=
  Sample.moving ++ Sample.meterTick 0 ++ .releaseSession Sample.token 22 .stored :: Sample.sweep 0 ++
    .createSession Sample.code "laptop" 22 Sample.token' Sample.secret false false .stored ::
      Sample.sweep 0 ++ Sample.sweep 0 ++
        .traffic .shadowsocks "Session00002" (some 20000) 300 :: Sample.meterTick 0

theorem charged_le_moved_moving :
    ∃ s, (servingSystem Sample.crypto Sample.config Sample.dataPlane 10).Reachable
        (fun s e => s.2.Fresh e ∧ s.1.ReadsOwn Sample.dataPlane e ∧
          s.1.CountsOnce Sample.dataPlane s.2 e) s ∧
      (s.2.charged "Session00001" = 500 ∧ s.2.charged "Session00002" = 300) ∧
      ∀ id, s.2.charged id ≤ (Sample.dataPlane.controls.map fun c => s.2.moved c id).sum := by
  obtain ⟨s, hs, hcharged⟩ := System.exists_reachable_of_run
    (servingSystem Sample.crypto Sample.config Sample.dataPlane 10)
    (fun s e => s.2.Fresh e ∧ s.1.ReadsOwn Sample.dataPlane e ∧
      s.1.CountsOnce Sample.dataPlane s.2 e)
    (fun s => s.2.charged "Session00001" = 500 ∧ s.2.charged "Session00002" = 300) handedOn
    (by decide +kernel)
  exact ⟨s, hs, hcharged, charged_le_moved hs⟩

/-- The device releases its session, and another one gets the slot.  The meter reads the port of
the slot before the session of the first device is kicked. -/
def inherited : List PlaneEvent :=
  Sample.moving ++
    [.releaseSession Sample.token 20 .stored,
      .createSession Sample.code "laptop" 21 Sample.token' Sample.secret false false .stored] ++
      Sample.meterTick 2

/-- A session is charged with what the session before it has moved through the port of their slot,
before anything was created for it. -/
theorem charged_for_another :
    ∃ s, (servingSystem Sample.crypto Sample.config Sample.dataPlane 10).Reachable
        (fun s e => s.2.Fresh e ∧ s.1.CountsOnce Sample.dataPlane s.2 e) s ∧
      s.2.charged "Session00002" = 500 ∧
      (Sample.dataPlane.controls.map fun c => s.2.moved c "Session00002").sum = 0 :=
  System.exists_reachable_of_run _ _ _ inherited (by decide +kernel)

end Ket.Server
