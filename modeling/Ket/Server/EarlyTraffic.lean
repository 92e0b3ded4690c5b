import Ket.Server.CountStart

/-!
# Traffic from before an allowance

The ticks of the meter and the changes of the invites, with the past of a run that the totals do not
show: which session IDs were generated, when the count of each invite was last started, which
counters a tick has read and what it took of them, and how much was added to a total that had been
moved before its count started (`CountHistory.early`).

A change that starts a count while the meter is behind lets the next tick add what was moved before
it.  Otherwise nothing early is ever added: `Clean` says of a session that the meter has covered what
it moved before the count of its invite started, and that a tick under way takes none of it.
-/

namespace Ket.Server

open Ket.Core Ket.Lib List Function

/-! ### Ticks and changes -/

namespace Access

/-- The time at which an operation sets or changes an invite. -/
def grantsAt : Access → Option ℕ
  | .createGrant _ now _ _ => some now
  | .updateGrant _ _ now => some now
  | _ => none

end Access

/-- What the totals do not show. -/
structure CountHistory where
  /-- The IDs that were generated for sessions. -/
  generated : List String
  /-- When the count of an invite was last started by a change. -/
  starts : String → ℕ
  /-- The counters as the tick has read them. -/
  seen : List (MeterKey × EngineCounter)
  /-- What the tick has taken. -/
  added : List Added
  /-- What was added to the total of an invite and had been moved before its count started. -/
  early : String → ℕ

namespace CountHistory

def none : CountHistory := ⟨[], fun _ => 0, [], [], fun _ => 0⟩

/-- What the sessions of the invite had moved before its count started, of what was taken. -/
def earlyIn (h : CountHistory) (s : PersistedState) (id : String) : ℕ :=
  ((s.sessions.filter fun x => x.grantId == id).map fun x =>
    ((h.added.filter fun a => a.sessionId == x.id).map fun a => a.before (h.starts id)).sum).sum

/-- The starts of the counts after an operation. -/
def startsAfter (C : Crypto) (cfg : Config) (h : CountHistory) (n : Node) (op : Access)
    (o : StoreOutcome) : String → ℕ :=
  match op with
  | .updateGrant id changes now =>
    if restartsCount (n.state.findGrant id)
        ((n.access C cfg (.updateGrant id changes now) o).1.state.findGrant id) then
      update h.starts id now
    else h.starts
  | _ => h.starts

/-- The history after an event. -/
def after (C : Crypto) (cfg : Config) (h : CountHistory) (s : Metering) :
    MeteringEvent → CountHistory
  | .operate op o => { h with
      generated := h.generated ++ op.generates.toList
      starts := h.startsAfter C cfg s.node op o }
  | .list _ => { h with seen := [] }
  | .read k => { h with seen := h.seen ++ [(k, s.counters k)] }
  | .take =>
    match s.phase with
    | .reading sessions _ =>
      { h with added := UsageMeter.addedBy sessions (s.meter.retain sessions) h.seen }
    | _ => h
  | .record now o =>
    match s.phase with
    | .recording moved =>
      if (s.node.recordUsage C moved now o).2.isOk then
        { h with early := fun id => h.early id + h.earlyIn s.node.state id }
      else h
    | _ => h
  | _ => h

end CountHistory

/-- The meter and the service, with the past of the counts. -/
def countingSystem (C : Crypto) (cfg : Config) (engines : ℕ) :
    System (Metering × CountHistory) MeteringEvent :=
  (meteringFrom C cfg engines .initial).withHistory CountHistory.none (CountHistory.after C cfg)

def TickPhase.isIdle : TickPhase → Bool
  | .idle => true
  | _ => false

namespace Metering

/-- What is moved is moved after the times that were read before, and for a session that was
created; the times at which invites are changed do not go back; and no session ID is generated
twice. -/
def InTime (h : CountHistory) (s : Metering) : MeteringEvent → Prop
  | .operate op _ => (∀ now ∈ op.grantsAt, s.clock ≤ now) ∧ ∀ id ∈ op.generates, id ∉ h.generated
  | .move k time _ => s.clock ≤ time ∧ (s.counters k).since ≤ time ∧ k.2 ∈ h.generated
  | _ => True

/-- No tick is under way, and the last readings of the counters of the invite's sessions, where
there are any, are what the counters show. -/
def CaughtUp (engines : ℕ) (id : String) (s : Metering) : Prop :=
  s.phase.isIdle = true ∧ ∀ x ∈ s.node.state.sessions, x.grantId = id →
    ∀ engine ∈ List.range engines,
      let c := s.counters (engine, x.id)
      s.meter.last (engine, x.id) = none ∨ s.meter.last (engine, x.id) = some (c.since, c.count)

/-- A change starts the count of an invite when the meter has caught up with its sessions. -/
def StartsCaughtUp (C : Crypto) (cfg : Config) (engines : ℕ) (s : Metering) : MeteringEvent → Prop
  | .operate (.updateGrant id changes now) o =>
    restartsCount (s.node.state.findGrant id)
      ((s.node.access C cfg (.updateGrant id changes now) o).1.state.findGrant id) = true →
    s.CaughtUp engines id
  | _ => True

instance (h : CountHistory) (s : Metering) (e : MeteringEvent) : Decidable (s.InTime h e) := by
  unfold InTime
  split <;> infer_instance

instance (engines : ℕ) (id : String) (s : Metering) : Decidable (s.CaughtUp engines id) :=
  inferInstanceAs (Decidable (_ ∧ ∀ x ∈ s.node.state.sessions, _))

instance (C : Crypto) (cfg : Config) (engines : ℕ) (s : Metering) (e : MeteringEvent) :
    Decidable (s.StartsCaughtUp C cfg engines e) := by
  unfold StartsCaughtUp
  split <;> infer_instance

end Metering

/-! ### The invariant -/

/-- The sessions of the state were issued before anything was counted for them. -/
def Issued (s : Metering) (h : CountHistory) (t : PersistedState) : Prop :=
  ∀ x ∈ t.sessions, x.id ∈ h.generated ∧ x.issuedAt ≤ s.clock ∧
    ∀ engine, ∀ m ∈ (s.counters (engine, x.id)).moves, x.issuedAt ≤ m.1

/-- What the tick has read, and what it has taken, is what the history says. -/
structure Tracks (s : Metering) (h : CountHistory) : Prop where
  listed : ∀ sessions readings, s.phase = .reading sessions readings →
    ∀ m ∈ sessions, m.allocation.id ∈ h.generated
  read : ∀ sessions readings, s.phase = .reading sessions readings →
    readings = UsageMeter.answers h.seen ∧ (h.seen.map Prod.fst).Nodup ∧
      ∀ p ∈ h.seen, p.1.2 ∈ h.generated
  taken : ∀ moved, s.phase = .recording moved →
    (∀ id, (moved id).getD 0 = min (UsageMeter.addedFor id h.added) u64Max) ∧
      ∀ a ∈ h.added, a.sessionId ∈ h.generated

/-- Nothing that the session has moved before the count of its invite started is going to be added:
the meter has covered it, and the tick takes and has taken none of it. -/
structure Clean (engines : ℕ) (s : Metering) (h : CountHistory) (x : SessionRecord) : Prop where
  covered : ∀ engine < engines,
    (s.counters (engine, x.id)).Starts (h.starts x.grantId) (s.meter.last (engine, x.id))
  listed : ∀ sessions readings, s.phase = .reading sessions readings →
    ∀ m ∈ sessions, m.allocation.id = x.id →
      m.issuedAt = x.issuedAt ∧ h.starts x.grantId ≤ m.countedSince
  seen : ∀ sessions readings, s.phase = .reading sessions readings →
    ∀ p ∈ h.seen, p.1.2 = x.id →
      p.2.Starts (h.starts x.grantId) (s.meter.last p.1) ∧
      (∀ m ∈ p.2.moves, max x.issuedAt p.2.since ≤ m.1) ∧
      (s.counters p.1).Starts (h.starts x.grantId) (some (p.2.since, p.2.count))
  added : ∀ moved, s.phase = .recording moved →
    ∀ a ∈ h.added, a.sessionId = x.id → a.before (h.starts x.grantId) = 0

structure Counting (C : Crypto) (cfg : Config) (engines : ℕ) (s : Metering) (h : CountHistory) :
    Prop where
  node : s.node.Holds (StateInv C cfg)
  since : s.node.Holds (CountsSince h.starts)
  issued : s.node.Holds (Issued s h)
  starts : ∀ id, h.starts id ≤ s.clock
  counters : ∀ k, (∀ m ∈ (s.counters k).moves, (s.counters k).since ≤ m.1) ∧
    ((s.counters k).moves ≠ [] → k.2 ∈ h.generated)
  tracks : Tracks s h
  clean : ∀ x ∈ s.node.state.sessions, Clean engines s h x
  early : ∀ id, h.early id = 0

section Steps

variable {C : Crypto} {cfg : Config} {engines : ℕ} {s s' : Metering} {h : CountHistory}
  {x y : SessionRecord}

lemma Counting.initial : Counting C cfg engines .initial CountHistory.none where
  node := ⟨stateInv_empty, stateInv_empty⟩
  since := ⟨forall_mem_nil _, forall_mem_nil _⟩
  issued := ⟨forall_mem_nil _, forall_mem_nil _⟩
  starts _ := Nat.zero_le _
  counters _ := ⟨forall_mem_nil _, fun hmoves => absurd rfl hmoves⟩
  tracks := ⟨fun _ _ h => TickPhase.noConfusion h, fun _ _ h => TickPhase.noConfusion h,
    fun _ h => TickPhase.noConfusion h⟩
  clean := forall_mem_nil _
  early _ := rfl

lemma Issued.mono {h' : CountHistory} {t : PersistedState} (ht : Issued s h t)
    (hclock : s.clock ≤ s'.clock) (hcounters : s'.counters = s.counters)
    (hgenerated : ∀ id ∈ h.generated, id ∈ h'.generated) : Issued s' h' t := by
  intro x hx
  obtain ⟨hgen, hle, hall⟩ := ht x hx
  exact ⟨hgenerated _ hgen, hle.trans hclock, hcounters ▸ hall⟩

/-- Time passes, and IDs are generated. -/
lemma Node.Holds.issued_mono {n : Node} {h' : CountHistory} (hn : n.Holds (Issued s h))
    (hclock : s.clock ≤ s'.clock) (hcounters : s'.counters = s.counters)
    (hgenerated : ∀ id ∈ h.generated, id ∈ h'.generated) : n.Holds (Issued s' h') :=
  ⟨hn.state.mono hclock hcounters hgenerated, hn.file.mono hclock hcounters hgenerated⟩

/-- What is clean does not depend on the lease. -/
lemma Clean.of_identity (hx : Clean engines s h x) (heq : x.identity = y.identity) :
    Clean engines s h y := by
  have hid := SessionRecord.id_eq_of_identity_eq heq
  have hgrant := SessionRecord.grantId_eq_of_identity_eq heq
  have hissued := SessionRecord.issuedAt_eq_of_identity_eq heq
  obtain ⟨hcovered, hlisted, hseen, hadded⟩ := hx
  rw [hid, hgrant] at hcovered hadded
  rw [hid, hgrant, hissued] at hlisted hseen
  exact ⟨hcovered, hlisted, hseen, hadded⟩

/-- Nothing was counted for a session whose ID has just been generated. -/
lemma clean_of_fresh (hcounters : ∀ k, (s.counters k).moves ≠ [] → k.2 ∈ h.generated)
    (htracks : Tracks s h) (hfresh : x.id ∉ h.generated) : Clean engines s h x where
  covered engine _ := by
    have hmoves : (s.counters (engine, x.id)).moves = [] := by
      by_contra hmoves
      exact hfresh (hcounters (engine, x.id) hmoves)
    refine EngineCounter.starts_of_before_eq_zero (EngineCounter.before_eq_zero ?_) _
    rw [hmoves]
    exact nofun
  listed sessions readings hphase m hm hid :=
    absurd (hid ▸ htracks.listed sessions readings hphase m hm) hfresh
  seen sessions readings hphase p hp hid :=
    absurd (hid ▸ (htracks.read sessions readings hphase).2.2 p hp) hfresh
  added moved hphase a ha hid := absurd (hid ▸ (htracks.taken moved hphase).2 a ha) hfresh

lemma Clean.of_counters (hx : Clean engines s h x) (hmeter : s'.meter = s.meter)
    (hphase : s'.phase = s.phase)
    (hstarts : ∀ k last, (s.counters k).Starts (h.starts x.grantId) last →
      (s'.counters k).Starts (h.starts x.grantId) last) : Clean engines s' h x := by
  obtain ⟨hcovered, hlisted, hseen, hadded⟩ := hx
  rw [← hphase] at hlisted hseen hadded
  rw [← hmeter] at hcovered hseen
  refine ⟨fun engine he => hstarts _ _ (hcovered engine he), hlisted, ?_, hadded⟩
  intro sessions readings hreading p hp hid
  obtain ⟨hp₁, hp₂, hp₃⟩ := hseen sessions readings hreading p hp hid
  exact ⟨hp₁, hp₂, hstarts _ _ hp₃⟩

/-- Between two ticks it is the meter that counts. -/
lemma clean_of_idle (hphase : s.phase = .idle)
    (hcovered : ∀ engine < engines,
      (s.counters (engine, x.id)).Starts (h.starts x.grantId) (s.meter.last (engine, x.id))) :
    Clean engines s h x := by
  refine ⟨hcovered, ?_, ?_, ?_⟩ <;> simp [hphase]

lemma tracks_of_idle (hphase : s.phase = .idle) : Tracks s h := by
  refine ⟨?_, ?_, ?_⟩ <;> simp [hphase]

/-! #### The engines count -/

variable {k : MeterKey} {now clock : ℕ} {t : PersistedState} {readings : List UsageReading}
  {sessions : List MeteredSession} {generated : List String} {node n : Node} {m : Mutation}
  {op : Access} {handed : Handed} {o : StoreOutcome} {id : String}

lemma Counting.move (hs : Counting C cfg engines s h) {time bytes : ℕ} (hclock : s.clock ≤ time)
    (hsince : (s.counters k).since ≤ time) (hk : k.2 ∈ h.generated) :
    Counting C cfg engines { s with
      counters := update s.counters k ((s.counters k).moved time bytes)
      clock := max s.clock time } h := by
  have hmoves : ∀ k', ∀ m ∈ (update s.counters k
      ((s.counters k).moved time bytes) k').moves, m ∈ (s.counters k').moves ∨ k' = k ∧ m.1 = time := by
    intro k' m hm
    by_cases hkk : k' = k
    · subst hkk
      rw [update_self] at hm
      rcases mem_append.mp hm with hm | hm
      · exact .inl hm
      · rw [mem_singleton.mp hm]
        exact .inr ⟨rfl, rfl⟩
    · rw [update_of_ne hkk] at hm
      exact .inl hm
  have hissued : ∀ t, Issued s h t → Issued { s with
      counters := update s.counters k ((s.counters k).moved time bytes)
      clock := max s.clock time } h t := by
    intro t ht x hx
    obtain ⟨hgen, hle, hall⟩ := ht x hx
    refine ⟨hgen, hle.trans (le_max_left _ _), fun engine m hm => ?_⟩
    rcases hmoves (engine, x.id) m hm with hm | ⟨-, hm⟩
    · exact hall engine m hm
    · rw [hm]
      exact hle.trans hclock
  refine ⟨hs.node, hs.since, ⟨hissued _ hs.issued.state, hissued _ hs.issued.file⟩,
    fun id => (hs.starts id).trans (le_max_left _ _), ?_,
    ⟨hs.tracks.listed, hs.tracks.read, hs.tracks.taken⟩, ?_, hs.early⟩
  · intro k'
    by_cases hkk : k' = k
    · subst hkk
      simp only [update_self]
      refine ⟨fun m hm => ?_, fun _ => hk⟩
      rcases mem_append.mp hm with hm | hm
      · exact (hs.counters k').1 m hm
      · rw [mem_singleton.mp hm]
        exact hsince
    · simp only [update_of_ne hkk]
      exact hs.counters k'
  · intro x hx
    refine (hs.clean x hx).of_counters rfl rfl fun k' last hlast => ?_
    by_cases hkk : k' = k
    · subst hkk
      simp only [update_self]
      exact hlast.moved ((hs.starts _).trans hclock) bytes
    · simp only [update_of_ne hkk]
      exact hlast

lemma Counting.reset (hs : Counting C cfg engines s h) (k : MeterKey) (since : ℕ) :
    Counting C cfg engines { s with counters := update s.counters k ⟨since, []⟩ } h := by
  have hmoves : ∀ k', (update s.counters k ⟨since, []⟩ k').moves = [] ∨
      update s.counters k ⟨since, []⟩ k' = s.counters k' := by
    intro k'
    by_cases hkk : k' = k
    · subst hkk
      exact .inl (by rw [update_self])
    · exact .inr (update_of_ne hkk _ _)
  have hissued : ∀ t, Issued s h t → Issued { s with
      counters := update s.counters k ⟨since, []⟩ } h t := by
    intro t ht x hx
    obtain ⟨hgen, hle, hall⟩ := ht x hx
    refine ⟨hgen, hle, fun engine m hm => ?_⟩
    rcases hmoves (engine, x.id) with hnil | heq
    · simp only [hnil] at hm
      cases hm
    · simp only [heq] at hm
      exact hall engine m hm
  refine ⟨hs.node, hs.since, ⟨hissued _ hs.issued.state, hissued _ hs.issued.file⟩, hs.starts, ?_,
    ⟨hs.tracks.listed, hs.tracks.read, hs.tracks.taken⟩, ?_, hs.early⟩
  · intro k'
    rcases hmoves k' with hnil | heq
    · simp [hnil]
    · simp only [heq]
      exact hs.counters k'
  · intro x hx
    refine (hs.clean x hx).of_counters rfl rfl fun k' last hlast => ?_
    rcases hmoves k' with hnil | heq
    · refine EngineCounter.starts_of_before_eq_zero (EngineCounter.before_eq_zero ?_) _
      simp [hnil]
    · simp only [heq]
      exact hlast

/-! #### The tick -/

/-- What is listed of a session. -/
lemma mem_meteredSessions {m : MeteredSession} (hm : m ∈ meteredSessions t now) :
    ∃ x ∈ t.sessions, m.allocation.id = x.id ∧ m.issuedAt = x.issuedAt ∧
      ∃ g ∈ t.grants, g.id = x.grantId ∧ g.allowance.isSome = true ∧
        m.countedSince = g.allowanceSince.getD 0 := by
  obtain ⟨x, hx, hm⟩ := mem_filterMap.mp hm
  refine ⟨x, mem_of_mem_filter hx, ?_⟩
  split at hm
  · rename_i g slot hg _
    cases hm
    have hfound := find?_some hg
    simp only [Bool.and_eq_true, beq_iff_eq] at hfound
    exact ⟨rfl, rfl, g, mem_of_find?_eq_some hg, hfound.1, hfound.2, rfl⟩
  · cases hm

section

variable (hs : Counting C cfg engines s h)
include hs

/-- A tick lists each session with the start of the count of its invite. -/
lemma Counting.list (now : ℕ) :
    Counting C cfg engines { s with
      phase := .reading (meteredSessions s.node.state now) [], clock := max s.clock now }
      { h with seen := [] } := by
  refine ⟨hs.node, hs.since, hs.issued.issued_mono (le_max_left _ _) rfl fun _ => id,
    fun id => (hs.starts id).trans (le_max_left _ _), hs.counters, ⟨?_, ?_, nofun⟩, ?_, hs.early⟩
  · rintro _ _ ⟨⟩ m hm
    obtain ⟨x, hx, hid, -⟩ := mem_meteredSessions hm
    rw [hid]
    exact (hs.issued.state x hx).1
  · rintro _ _ ⟨⟩
    exact ⟨rfl, nodup_nil, nofun⟩
  · intro x hx
    refine ⟨(hs.clean x hx).covered, ?_, fun _ _ _ => nofun, nofun⟩
    rintro _ _ ⟨⟩ m hm hid
    obtain ⟨y, hy, hmid, hissued, g, hg, hgid, ha, hsince⟩ := mem_meteredSessions hm
    have heq : y = x := inj_on_of_nodup_map hs.node.state.valid.sessionIds hy hx
      (hmid.symm.trans hid)
    subst heq
    refine ⟨hissued, ?_⟩
    rw [hsince, ← hgid]
    exact hs.since.state g hg ha

/-- With no session to meter the meter forgets all counters. -/
lemma Counting.listNothing (hphase : s.phase = .idle) (now : ℕ) :
    Counting C cfg engines { s with meter := (s.meter.take [] []).1, clock := max s.clock now }
      { h with seen := [] } := by
  refine ⟨hs.node, hs.since, hs.issued.issued_mono (le_max_left _ _) rfl fun _ => id,
    fun id => (hs.starts id).trans (le_max_left _ _), hs.counters, tracks_of_idle hphase, ?_,
    hs.early⟩
  exact fun x _ => clean_of_idle hphase fun engine _ => EngineCounter.starts_none _ _

lemma Counting.read
    (hphase : s.phase = .reading sessions readings) (hengine : k.1 < engines)
    (hlisted : (sessionsById sessions k.2).isSome = true) (honce : ∀ r ∈ readings, r.key ≠ k) :
    Counting C cfg engines
      { s with phase := .reading sessions (readings ++ [(s.counters k).reading k]) }
      { h with seen := h.seen ++ [(k, s.counters k)] } := by
  obtain ⟨hanswers, hkeys, hgenerated⟩ := hs.tracks.read sessions readings hphase
  refine ⟨hs.node, hs.since, ⟨hs.issued.state, hs.issued.file⟩, hs.starts, hs.counters,
    ⟨?_, ?_, nofun⟩, ?_, hs.early⟩
  · rintro _ _ ⟨⟩
    exact hs.tracks.listed sessions readings hphase
  · rintro _ _ ⟨⟩
    refine ⟨by rw [hanswers]; simp [UsageMeter.answers], ?_, ?_⟩
    · rw [map_append, nodup_append]
      refine ⟨hkeys, nodup_singleton _, ?_⟩
      intro k₁ hk₁ k₂ hk₂ heq
      obtain ⟨p, hp, rfl⟩ := mem_map.mp hk₁
      refine honce (p.2.reading p.1) ?_ (heq.trans (mem_singleton.mp hk₂))
      rw [hanswers]
      exact mem_map_of_mem (f := fun p : MeterKey × EngineCounter => p.2.reading p.1) hp
    · intro p hp
      rcases mem_append.mp hp with hp | hp
      · exact hgenerated p hp
      · rw [mem_singleton.mp hp]
        obtain ⟨m, hm⟩ := Option.isSome_iff_exists.mp hlisted
        have hid : m.allocation.id = k.2 := by simpa using find?_some hm
        rw [← hid]
        exact hs.tracks.listed sessions readings hphase m
          (mem_reverse.mp (mem_of_find?_eq_some hm))
  · intro x hx
    have hclean := hs.clean x hx
    refine ⟨hclean.covered, ?_, ?_, nofun⟩
    · rintro _ _ ⟨⟩
      exact hclean.listed sessions readings hphase
    · rintro _ _ ⟨⟩ p hp hid
      rcases mem_append.mp hp with hp | hp
      · exact hclean.seen sessions readings hphase p hp hid
      · -- the counter that is read now
        rw [mem_singleton.mp hp] at hid ⊢
        have hk : k = (k.1, x.id) := Prod.ext rfl hid
        refine ⟨?_, fun m hm => max_le ?_ ((hs.counters k).1 m hm), EngineCounter.starts_self _ _⟩
        · rw [hk]
          exact hclean.covered k.1 hengine
        · refine (hs.issued.state x hx).2.2 k.1 m ?_
          rwa [← hk]

lemma Counting.unavailable :
    Counting C cfg engines { s with phase := .idle } h :=
  ⟨hs.node, hs.since, ⟨hs.issued.state, hs.issued.file⟩, hs.starts, hs.counters,
    tracks_of_idle rfl, fun x hx => clean_of_idle rfl (hs.clean x hx).covered, hs.early⟩

end

/-- What the meter holds of a counter after the loop is what it held before, or the reading. -/
lemma UsageMeter.last_foldl_keepListed (sessions : List MeteredSession) (k : MeterKey)
    (seen : List (MeterKey × EngineCounter)) (m : UsageMeter) :
    ((answers seen).foldl (keepListed sessions) m).last k = m.last k ∨
      ∃ p ∈ seen, p.1 = k ∧
        ((answers seen).foldl (keepListed sessions) m).last k = some (p.2.since, p.2.count) := by
  induction seen generalizing m with
  | nil => exact .inl rfl
  | cons p seen ih =>
    have hcons : (answers (p :: seen)).foldl (keepListed sessions) m
        = (answers seen).foldl (keepListed sessions) (keepListed sessions m (p.2.reading p.1)) := rfl
    rw [hcons]
    rcases ih (keepListed sessions m (p.2.reading p.1)) with heq | ⟨q, hq, hk, heq⟩
    · rw [heq, keepListed]
      split
      · by_cases hk : p.1 = k
        · refine .inr ⟨p, mem_cons_self, hk, ?_⟩
          subst hk
          exact update_self ..
        · exact .inl (keep_last_of_ne m hk)
      · exact .inl rfl
    · exact .inr ⟨q, mem_cons_of_mem _ hq, hk, heq⟩

section

variable (hs : Counting C cfg engines s h)
include hs

/-- What is taken was moved after the count started, and the meter has covered the rest. -/
lemma Counting.take
    (hphase : s.phase = .reading sessions readings) :
    Counting C cfg engines
      { s with
        meter := (s.meter.take sessions readings).1
        phase := .recording (s.meter.take sessions readings).2 }
      { h with added := UsageMeter.addedBy sessions (s.meter.retain sessions) h.seen } := by
  obtain ⟨hanswers, hkeys, hgenerated⟩ := hs.tracks.read sessions readings hphase
  refine ⟨hs.node, hs.since, ⟨hs.issued.state, hs.issued.file⟩, hs.starts, hs.counters,
    ⟨nofun, nofun, ?_⟩, ?_, hs.early⟩
  · rintro _ ⟨⟩
    refine ⟨fun id => ?_, fun a ha => ?_⟩
    · rw [hanswers]
      exact UsageMeter.take_added _ _ _ id
    · obtain ⟨p, hp, -, -, rfl⟩ := UsageMeter.mem_addedBy hkeys ha
      exact hgenerated p hp
  · intro x hx
    have hclean := hs.clean x hx
    refine ⟨?_, nofun, nofun, ?_⟩
    · intro engine hengine
      have hretained : (s.counters (engine, x.id)).Starts (h.starts x.grantId)
          ((s.meter.retain sessions).last (engine, x.id)) := by
        simp only [UsageMeter.retain]
        split
        · exact hclean.covered engine hengine
        · exact EngineCounter.starts_none _ _
      simp only [UsageMeter.take_fst, hanswers]
      rcases UsageMeter.last_foldl_keepListed sessions (engine, x.id) h.seen
        (s.meter.retain sessions) with heq | ⟨p, hp, hk, heq⟩
      · rw [heq]
        exact hretained
      · rw [heq, ← hk]
        exact (hclean.seen sessions readings hphase p hp (by rw [hk])).2.2
    · rintro _ ⟨⟩ a ha hid
      obtain ⟨p, hp, session, hsession, rfl⟩ := UsageMeter.mem_addedBy hkeys ha
      obtain ⟨hstarts, hmoves, -⟩ := hclean.seen sessions readings hphase p hp hid
      have hmem : session ∈ sessions := mem_reverse.mp (mem_of_find?_eq_some hsession)
      have hsid : session.allocation.id = p.1.2 := by simpa using find?_some hsession
      obtain ⟨hissued, hsince⟩ := hclean.listed sessions readings hphase session hmem
        (hsid.trans hid)
      refine UsageMeter.before_added_eq_zero ?_ hsince (hissued ▸ hmoves)
      simpa only [UsageMeter.retain, hsession, Option.isSome_some, if_true] using hstarts

/-- Nothing of what is taken is early. -/
lemma Counting.earlyIn_eq_zero {moved : String → Option ℕ}
    (hphase : s.phase = .recording moved) (id : String) : h.earlyIn s.node.state id = 0 := by
  refine sum_eq_zero fun n hn => ?_
  obtain ⟨x, hx, rfl⟩ := mem_map.mp hn
  obtain ⟨hx, hgrant⟩ := List.mem_filter.mp hx
  refine sum_eq_zero fun n hn => ?_
  obtain ⟨a, ha, rfl⟩ := mem_map.mp hn
  obtain ⟨ha, hsession⟩ := List.mem_filter.mp ha
  rw [← beq_iff_eq.mp hgrant]
  exact (hs.clean x hx).added moved hphase a ha (beq_iff_eq.mp hsession)

/-- A step of the service that leaves the counts as they are: the sessions after it are those from
before, or new. -/
lemma Counting.of_node (hclock : s.clock ≤ clock)
    (hnode : node.Holds (StateInv C cfg)) (hsince : node.Holds (CountsSince h.starts))
    (hissued : node.Holds (Issued { s with node, clock } { h with generated }))
    (hgenerated : ∀ id ∈ h.generated, id ∈ generated) (hsessions : ∀ y ∈ node.state.sessions,
      (∃ x ∈ s.node.state.sessions, x.identity = y.identity) ∨ y.id ∉ h.generated) :
    Counting C cfg engines { s with node, clock } { h with generated } where
  node := hnode
  since := hsince
  issued := hissued
  starts id := (hs.starts id).trans hclock
  counters k := ⟨(hs.counters k).1, fun hmoves => hgenerated _ ((hs.counters k).2 hmoves)⟩
  tracks :=
    ⟨fun sessions readings hphase m hm => hgenerated _ (hs.tracks.listed sessions readings hphase m hm),
      fun sessions readings hphase =>
        have hread := hs.tracks.read sessions readings hphase
        ⟨hread.1, hread.2.1, fun p hp => hgenerated _ (hread.2.2 p hp)⟩,
      fun moved hphase =>
        have htaken := hs.tracks.taken moved hphase
        ⟨htaken.1, fun a ha => hgenerated _ (htaken.2 a ha)⟩⟩
  clean y hy := by
    have hclean : Clean engines s h y := by
      rcases hsessions y hy with ⟨x, hx, heq⟩ | hfresh
      · exact (hs.clean x hx).of_identity heq
      · exact clean_of_fresh (fun k => (hs.counters k).2) hs.tracks hfresh
    exact ⟨hclean.covered, hclean.listed, hclean.seen, hclean.added⟩
  early := hs.early

end

/-- The records of a state that have not changed but for their leases. -/
lemma Issued.of_sessions {t' : PersistedState} (ht : Issued s h t)
    (hsessions : ∀ y ∈ t'.sessions, ∃ x ∈ t.sessions, x.identity = y.identity) : Issued s h t' := by
  intro y hy
  obtain ⟨x, hx, heq⟩ := hsessions y hy
  rw [← SessionRecord.id_eq_of_identity_eq heq, ← SessionRecord.issuedAt_eq_of_identity_eq heq]
  exact ht x hx

lemma Counting.record (hs : Counting C cfg engines s h) (moved : String → Option ℕ) (now : ℕ)
    (o : StoreOutcome) :
    Counting C cfg engines { s with
      node := (s.node.recordUsage C moved now o).1, phase := .idle, clock := max s.clock now } h := by
  have hgen : ∀ id ∈ h.generated, id ∈ h.generated := fun _ hid => hid
  have hcomputes : ∀ u, recordUsage s.node.state moved now = .ok u →
      Computes C cfg s.node.state (.recordUsage moved now) u.next := fun _ hu => .recordUsage hu
  have hstep : Counting C cfg engines { s with
      node := (s.node.recordUsage C moved now o).1, clock := max s.clock now } h := by
    refine hs.of_node (le_max_left _ _) ?_ ?_ ?_ hgen ?_
    · exact hs.node.recordUsage moved now o fun u hu => stateInv_recordUsage hs.node.state hu
    · refine hs.since.recordUsage moved now o fun u hu => ?_
      exact hs.since.state.of_computes (hcomputes u hu) nofun
    · have hissued := hs.issued.recordUsage (C := C) moved now o fun u hu =>
        hs.issued.state.of_sessions (shrinks_recordUsage hu).sessions
      exact hissued.issued_mono (le_max_left _ _) rfl hgen
    · intro y hy
      refine .inl ?_
      rcases s.node.recordUsage_cases C moved now o with ⟨u, hu, -, hstate⟩ | ⟨-, -, hstate⟩
      · exact (shrinks_recordUsage hu).sessions y (hstate ▸ hy)
      · exact ⟨y, hstate ▸ hy, rfl⟩
  exact hstep.unavailable

/-! #### The service -/

lemma Access.grantsAt_of_mutation (hm : op.mutation C t = some m) : m.grantsAt = op.grantsAt := by
  cases op with
  | createSession | renewSession | endSession =>
    obtain ⟨ticket, -, rfl⟩ := Option.map_eq_some_iff.mp hm
    rfl
  | _ =>
    cases hm
    rfl

lemma Access.time_of_mutation (hm : op.mutation C t = some m) (hnow : m.now = some now) :
    op.time = now := by
  cases op with
  | createSession | renewSession =>
    obtain ⟨ticket, -, rfl⟩ := Option.map_eq_some_iff.mp hm
    exact Option.some.inj hnow
  | endSession =>
    obtain ⟨ticket, -, rfl⟩ := Option.map_eq_some_iff.mp hm
    cases hnow
  | revokeGrant =>
    cases hm
    cases hnow
  | _ =>
    cases hm
    exact Option.some.inj hnow

/-- The sessions after an operation that succeeds were there before, or it has generated their
IDs. -/
lemma session_of_performs {next : PersistedState} (hop : Performs C cfg t op next handed)
    (hy : y ∈ next.sessions) :
    (∃ x ∈ t.sessions, x.identity = y.identity) ∨ y.id ∈ op.generates := by
  have hnew : ∀ {m}, Computes C cfg t m next →
      (∃ x ∈ t.sessions, x.identity = y.identity) ∨ y.id ∈ m.generates :=
    fun hm => (session_of_computes hm hy).imp_right And.left
  cases hop with
  | createGrant hr => exact hnew (.createGrant hr)
  | updateGrant hr => exact hnew (.updateGrant hr)
  | revokeGrant hr => exact hnew (.revokeGrant hr)
  | createSession hr => exact hnew (.admitSession hr)
  | renewSession hr => exact hnew (.renewSession hr)
  | endSession _ hr => exact hnew (.endSession hr)
  | expireNothing => exact .inl ⟨y, hy, rfl⟩
  | expireSessions hr => exact hnew (.expireSessions hr)
  | recordUsage hr => exact hnew (.recordUsage hr)

lemma Node.session_of_access (hn : n.Holds (StateInv C cfg))
    (hy : y ∈ (n.access C cfg op o).1.state.sessions) :
    (∃ x ∈ n.state.sessions, x.identity = y.identity) ∨ y.id ∈ op.generates := by
  cases hresult : (n.access C cfg op o).2 with
  | error e =>
    rw [(lands_access hn op).error e hresult] at hy
    exact .inl ⟨y, hy, rfl⟩
  | ok handed => exact session_of_performs (performs_of_access hresult) hy

/-- An operation before its change of the starts. -/
lemma Counting.access (hs : Counting C cfg engines s h) (hnow : ∀ now ∈ op.grantsAt, s.clock ≤ now)
    (hfresh : ∀ id ∈ op.generates, id ∉ h.generated) :
    Counting C cfg engines
      { s with node := (s.node.access C cfg op o).1, clock := max s.clock op.time }
      { h with generated := h.generated ++ op.generates.toList } := by
  have hgen : ∀ id ∈ h.generated, id ∈ h.generated ++ op.generates.toList := fun _ hid =>
    mem_append_left _ hid
  refine hs.of_node (le_max_left _ _) (Node.lands_access hs.node op).holds ?_ ?_ hgen ?_
  · refine hs.since.access fun m next hm hcomputes _ => hs.since.state.of_computes hcomputes ?_
    intro now hat id
    rw [Access.grantsAt_of_mutation hm] at hat
    exact (hs.starts id).trans (hnow now hat)
  · have hissued : s.node.Holds (Issued
        { s with node := (s.node.access C cfg op o).1, clock := max s.clock op.time }
        { h with generated := h.generated ++ op.generates.toList }) :=
      hs.issued.issued_mono (le_max_left _ _) rfl hgen
    refine hissued.access ?_
    intro m next hm hcomputes _ y hy
    rcases session_of_computes hcomputes hy with ⟨x, hx, heq⟩ | ⟨hid, hat⟩
    · rw [← SessionRecord.id_eq_of_identity_eq heq, ← SessionRecord.issuedAt_eq_of_identity_eq heq]
      exact hissued.state x hx
    · rw [Access.generates_of_mutation hm] at hid
      refine ⟨mem_append_right _ (Option.mem_toList.mpr hid), ?_, fun engine move hmove => ?_⟩
      · rw [← Access.time_of_mutation hm hat]
        exact le_max_right _ _
      · exact absurd ((hs.counters (engine, y.id)).2 (ne_nil_of_mem hmove)) (hfresh _ hid)
  · intro y hy
    exact (Node.session_of_access hs.node hy).imp_right fun hid => hfresh _ hid

/-- The count of an invite starts, with the meter having covered what its sessions have moved. -/
lemma Counting.startCount (hs : Counting C cfg engines s h) {g : AccessGrantRecord}
    (hnow : now ≤ s.clock) (hphase : s.phase = .idle) (hfile : s.node.file = s.node.state)
    (hfind : s.node.state.findGrant id = some g) (hsince : g.allowanceSince = some now)
    (hcovered : ∀ x ∈ s.node.state.sessions, x.grantId = id → ∀ engine < engines,
      (s.counters (engine, x.id)).Starts now (s.meter.last (engine, x.id))) :
    Counting C cfg engines s { h with starts := update h.starts id now } := by
  have hcounts := hs.since.state.update hs.node.state hfind hsince
  refine ⟨hs.node, ⟨hcounts, hfile ▸ hcounts⟩, ⟨hs.issued.state, hs.issued.file⟩, ?_, hs.counters,
    tracks_of_idle hphase, ?_, hs.early⟩
  · intro id'
    by_cases hid : id' = id
    · simp only [hid, update_self]
      exact hnow
    · simp only [update_of_ne hid]
      exact hs.starts id'
  · intro x hx
    refine clean_of_idle hphase fun engine hengine => ?_
    by_cases hid : x.grantId = id
    · simp only [hid, update_self]
      exact hcovered x hx hid engine hengine
    · simp only [update_of_ne hid]
      exact (hs.clean x hx).covered engine hengine

/-- A change that succeeds is in the file. -/
lemma Node.file_updateGrant {changes : UpdateAccessGrantRequest}
    (hok : (n.access C cfg (.updateGrant id changes now) o).2 = .ok handed) :
    (n.access C cfg (.updateGrant id changes now) o).1.file
      = (n.access C cfg (.updateGrant id changes now) o).1.state := by
  obtain ⟨a, ha, -⟩ := hand_snd_eq_ok.mp hok
  change (n.transact C _ o).1.file = (n.transact C _ o).1.state
  change (n.transact C _ o).2 = .ok a at ha
  unfold transact at ha ⊢
  split at ha
  · cases ha
  · split at ha
    · rename_i hstores
      rw [if_pos hstores]
    · cases ha

section

variable (hs : Counting C cfg engines s h)
include hs

lemma Counting.operate (htime : s.InTime h (.operate op o))
    (hcaught : s.StartsCaughtUp C cfg engines (.operate op o)) :
    Counting C cfg engines
      { s with node := (s.node.access C cfg op o).1, clock := max s.clock op.time }
      (h.after C cfg s (.operate op o)) := by
  have hop := hs.access (o := o) htime.1 htime.2
  by_cases hstarts : h.startsAfter C cfg s.node op o = h.starts
  · simp only [CountHistory.after, hstarts]
    exact hop
  · -- only a change that starts a count moves the starts
    unfold CountHistory.startsAfter at hstarts
    split at hstarts
    · rename_i id changes now
      split at hstarts
      · rename_i hrestarts
        obtain ⟨hidle, hlast⟩ := hcaught hrestarts
        have hphase : s.phase = .idle := by
          cases hp : s.phase <;> simp [hp, TickPhase.isIdle] at hidle
          rfl
        cases hresult : (s.node.access C cfg (.updateGrant id changes now) o).2 with
        | error e =>
          rw [(Node.lands_access hs.node _).error e hresult, restartsCount_self] at hrestarts
          cases hrestarts
        | ok handed =>
          have hperforms := Node.performs_of_access hresult
          have hfile := Node.file_updateGrant hresult
          have hsessions : ∀ y ∈ (s.node.access C cfg (.updateGrant id changes now) o).1.state.sessions,
              (∃ x ∈ s.node.state.sessions, x.identity = y.identity) ∨ y.id ∈ none :=
            fun y hy => Node.session_of_access hs.node hy
          simp only [CountHistory.after, CountHistory.startsAfter, hrestarts, if_true]
          cases hperforms with
          | updateGrant hr =>
            obtain ⟨g, hfind, hsince⟩ := since_of_restartsCount hs.node.state hr hrestarts
            refine hop.startCount (le_max_right _ _) hphase hfile hfind hsince ?_
            intro y hy hid engine hengine
            rcases hsessions y hy with ⟨x, hx, heq⟩ | hnew
            · rw [← SessionRecord.id_eq_of_identity_eq heq]
              rw [← SessionRecord.grantId_eq_of_identity_eq heq] at hid
              rcases hlast x hx hid engine (mem_range.mpr hengine) with hnone | hsome
              · simp only [hnone]
                exact EngineCounter.starts_none _ _
              · simp only [hsome]
                exact EngineCounter.starts_self _ _
            · cases hnew
      · exact absurd rfl hstarts
    · exact absurd rfl hstarts

/-- A meter that starts has covered nothing and adds nothing from before. -/
lemma Counting.restart (now startedAt : ℕ) (o : StoreOutcome) :
    Counting C cfg engines { s with
      node := (s.node.load C cfg now o).1
      meter := UsageMeter.new startedAt
      phase := .idle
      clock := max s.clock (max now startedAt) } h := by
  have hnode : (s.node.load C cfg now o).1.Holds (StateInv C cfg) :=
    hs.node.load now o fun _ _ _ hload hprepare => (hs.node.file.prepared hload hprepare).2
  have hsince : (s.node.load C cfg now o).1.Holds (CountsSince h.starts) := by
    refine hs.since.load now o fun _ _ _ hload hprepare => ?_
    rw [(hs.node.file.prepared hload hprepare).1]
    exact hs.since.file
  have hissued : (s.node.load C cfg now o).1.Holds (Issued s h) := by
    refine hs.issued.load now o fun _ _ _ hload hprepare => ?_
    rw [(hs.node.file.prepared hload hprepare).1]
    exact hs.issued.file.of_sessions fun y hy => ⟨y, mem_of_mem_filter hy, rfl⟩
  exact ⟨hnode, hsince, hissued.issued_mono (le_max_left _ _) rfl fun _ => id,
    fun id => (hs.starts id).trans (le_max_left _ _), hs.counters, tracks_of_idle rfl,
    fun x _ => clean_of_idle rfl fun engine _ => EngineCounter.starts_none _ _, hs.early⟩

lemma Counting.step {e : MeteringEvent} (htime : s.InTime h e)
    (hcaught : s.StartsCaughtUp C cfg engines e) (hstep : s.step C cfg engines e = some s') :
    Counting C cfg engines s' (h.after C cfg s e) := by
  cases e with
  | restart now startedAt o =>
    simp only [Metering.step] at hstep
    split at hstep
    · cases hstep
    · rename_i node hload
      cases hstep
      have hrestart := hs.restart now startedAt o
      rwa [hload] at hrestart
  | operate op o =>
    have hs' : s' = { s with
        node := (s.node.access C cfg op o).1, clock := max s.clock op.time } := by
      exact Metering.eq_of_operate hstep
    rw [hs']
    exact hs.operate htime hcaught
  | move k time bytes =>
    cases hstep
    exact hs.move htime.1 htime.2.1 htime.2.2
  | reset k since =>
    cases hstep
    exact hs.reset k since
  | list now =>
    simp only [Metering.step] at hstep
    split at hstep
    · rename_i hphase
      split at hstep
      · cases hstep
        exact hs.listNothing hphase now
      · cases hstep
        exact hs.list now
    · cases hstep
  | read k =>
    simp only [Metering.step] at hstep
    split at hstep
    · rename_i sessions readings hphase
      split at hstep
      · rename_i hguard
        cases hstep
        exact hs.read hphase hguard.1 hguard.2.1 hguard.2.2
      · cases hstep
    · cases hstep
  | unavailable =>
    simp only [Metering.step] at hstep
    split at hstep
    · cases hstep
      exact hs.unavailable
    · cases hstep
  | take =>
    simp only [Metering.step] at hstep
    split at hstep
    · rename_i sessions readings hphase
      cases hstep
      simp only [CountHistory.after, hphase]
      exact hs.take hphase
    · cases hstep
  | record now o =>
    simp only [Metering.step] at hstep
    split at hstep
    · rename_i moved hphase
      cases hstep
      have hrecord := hs.record moved now o
      simp only [CountHistory.after, hphase]
      split
      · exact ⟨hrecord.node, hrecord.since, ⟨hrecord.issued.state, hrecord.issued.file⟩,
          hrecord.starts, hrecord.counters, tracks_of_idle rfl,
          fun x hx => clean_of_idle rfl (hrecord.clean x hx).covered,
          fun id => by simp only [hs.early id, hs.earlyIn_eq_zero hphase id, Nat.add_zero]⟩
      · exact hrecord
    · cases hstep

end

end Steps

/-- **Traffic from before an allowance does not count.**  In every run of the meter and the service,
with store failures and restarts, in which a change starts the count of an invite only when the
meter has caught up with its sessions, no byte that a session moved before the last start of the
count of its invite is ever added to the total of the invite; what a tick records for a session is
what its readings have added. -/
theorem counts_from_start {C : Crypto} {cfg : Config} {engines : ℕ} {s : Metering × CountHistory}
    (hs : (countingSystem C cfg engines).Reachable
      (fun s e => s.1.InTime s.2 e ∧ s.1.StartsCaughtUp C cfg engines e) s) :
    (∀ id, s.2.early id = 0) ∧
      ∀ moved, s.1.phase = .recording moved →
        ∀ id, (moved id).getD 0 = min (UsageMeter.addedFor id s.2.added) u64Max := by
  have hcounting : Counting C cfg engines s.1 s.2 := by
    refine hs.invariant (I := fun s => Counting C cfg engines s.1 s.2) Counting.initial ?_
    rintro ⟨s, h⟩ e ⟨s', h'⟩ - hs ⟨htime, hcaught⟩ hstep
    obtain ⟨hstep, rfl⟩ := System.withHistory_step.mp hstep
    exact hs.step htime hcaught hstep
  exact ⟨hcounting.early, fun moved hphase => (hcounting.tracks.taken moved hphase).1⟩

namespace Sample

/-- The allowance is by the day from now on. -/
def byDay : UpdateAccessGrantRequest :=
  { UpdateAccessGrantRequest.unchanged with allowance := some (some ⟨2 ^ 20, .day⟩) }

end Sample

/-- The period of the allowance is changed right after a tick, and the session goes on. -/
theorem counts_from_start_byDay :
    ∃ s, (countingSystem Sample.crypto Sample.config 1).Reachable
        (fun s e => s.1.InTime s.2 e ∧
          s.1.StartsCaughtUp Sample.crypto Sample.config 1 e) s ∧
      s.2.starts "Grant00001" = 30 ∧
      (s.1.node.state.findGrant "Grant00001").map (fun g => g.used 65) = some 7 ∧
      s.2.early "Grant00001" = 0 := by
  obtain ⟨s, hs, hstart, hused⟩ := System.exists_reachable_of_run
    (countingSystem Sample.crypto Sample.config 1)
    (fun s e => s.1.InTime s.2 e ∧ s.1.StartsCaughtUp Sample.crypto Sample.config 1 e)
    (fun s => s.2.starts "Grant00001" = 30 ∧
      (s.1.node.state.findGrant "Grant00001").map (fun g => g.used 65) = some 7)
    (Sample.metering ++ Sample.tick 500 20 .stored ++
      [.operate (.updateGrant "Grant00001" Sample.byDay 30) .stored] ++
      Sample.tick 7 65 .stored) (by decide +kernel)
  exact ⟨s, hs, hstart, hused, (counts_from_start hs).1 _⟩

/-- The session moves 400 bytes after a tick, then the period of the allowance is changed, and the
next tick adds them to the new count. -/
theorem early_bytes_count :
    ∃ s, (countingSystem Sample.crypto Sample.config 1).Reachable
        (fun s e => s.1.InTime s.2 e) s ∧
      s.2.starts "Grant00001" = 30 ∧ s.2.early "Grant00001" = 400 ∧
      (s.1.node.state.findGrant "Grant00001").map (fun g => g.used 40) = some 400 :=
  System.exists_reachable_of_run (countingSystem Sample.crypto Sample.config 1)
    (fun s e => s.1.InTime s.2 e) _
    (Sample.metering ++ Sample.tick 100 20 .stored ++
      [.move (0, "Session00001") 25 400,
        .operate (.updateGrant "Grant00001" Sample.byDay 30) .stored] ++
      [.list 40, .read (0, "Session00001"), .take, .record 40 .stored]) (by decide +kernel)

end Ket.Server
