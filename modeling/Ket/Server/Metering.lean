import Ket.Server.Access

/-!
# The meter and the totals of the invites

`meter_allowances` (`ket-server/src/api/mod.rs`) between its awaits: it lists the sessions to
meter, asks the engines for their counters one after the other, takes what has moved since the
last time out of the meter, and has the service record it.  In between the other operations of the
service run and the engines go on counting.  What an engine has counted for a session is kept
here with the time of each move, which no step looks at.

A tick whose record fails has lost what it took: the meter has moved on, and the next tick takes
only what has moved since.
-/

namespace Ket.Server

open Ket.Core Ket.Lib List

/-- What an engine has counted for a session since `since`, with the time of each move. -/
structure EngineCounter where
  since : ℕ
  moves : List (ℕ × ℕ)
deriving DecidableEq

namespace EngineCounter

def count (c : EngineCounter) : ℕ := (c.moves.map Prod.snd).sum

/-- What was moved before `t`. -/
def before (c : EngineCounter) (t : ℕ) : ℕ :=
  ((c.moves.filter fun m => decide (m.1 < t)).map Prod.snd).sum

/-- What the engine answers for the session. -/
def reading (c : EngineCounter) (k : MeterKey) : UsageReading := ⟨k.2, k.1, c.since, c.count⟩

end EngineCounter

/-- Where a tick of the meter is. -/
inductive TickPhase where
  | idle
  /-- It asks the engines. -/
  | reading (sessions : List MeteredSession) (readings : List UsageReading)
  /-- It has the service record what was moved. -/
  | recording (moved : String → Option ℕ)

structure Metering where
  node : Node
  meter : UsageMeter
  phase : TickPhase
  counters : MeterKey → EngineCounter
  /-- The latest time that was read. -/
  clock : ℕ

inductive MeteringEvent where
  /-- The process starts again: the service loads the state file, and the meter starts. -/
  | restart (now startedAt : ℕ) (o : StoreOutcome)
  /-- Another operation of the service. -/
  | operate (op : Access) (o : StoreOutcome)
  /-- An engine counts for a session. -/
  | move (k : MeterKey) (time bytes : ℕ)
  /-- A counter of an engine starts again from zero. -/
  | reset (k : MeterKey) (since : ℕ)
  | list (now : ℕ)
  | read (k : MeterKey)
  /-- The engines cannot be read. -/
  | unavailable
  | take
  | record (now : ℕ) (o : StoreOutcome)

/-- The time an operation has read. -/
def Access.time : Access → ℕ
  | .createGrant _ now _ _ => now
  | .updateGrant _ _ now => now
  | .revokeGrant _ => 0
  | .createSession _ _ now _ _ => now
  | .renewSession _ now => now
  | .endSession _ now => now
  | .expireSessions now => now
  | .recordUsage _ now => now

namespace Metering

variable (C : Crypto) (cfg : Config) (engines : ℕ)

/-- Before the first start there is no state file, and no engine has counted anything. -/
def initial : Metering :=
  ⟨Node.initial, UsageMeter.new 0, .idle, fun _ => ⟨0, []⟩, 0⟩

def step (s : Metering) : MeteringEvent → Option Metering
  | .restart now startedAt o =>
    match s.node.load C cfg now o with
    | (_, false) => none
    | (node, true) => some { s with
        node
        meter := UsageMeter.new startedAt
        phase := .idle
        clock := max s.clock (max now startedAt) }
  -- the service records usage for the meter only
  | .operate (.recordUsage _ _) _ => none
  | .operate op o =>
    some { s with node := (s.node.access C cfg op o).1, clock := max s.clock op.time }
  | .move k time bytes =>
    some { s with
      counters := Function.update s.counters k
        { s.counters k with moves := (s.counters k).moves ++ [(time, bytes)] }
      clock := max s.clock time }
  | .reset k since => some { s with counters := Function.update s.counters k ⟨since, []⟩ }
  | .list now =>
    match s.phase with
    | .idle =>
      match meteredSessions s.node.state now with
      | [] => some { s with meter := (s.meter.take [] []).1, clock := max s.clock now }
      | sessions => some { s with phase := .reading sessions [], clock := max s.clock now }
    | _ => none
  | .read k =>
    match s.phase with
    | .reading sessions readings =>
      -- an engine answers once, for the sessions it is asked for
      if k.1 < engines ∧ (sessionsById sessions k.2).isSome ∧ ∀ r ∈ readings, r.key ≠ k then
        some { s with phase := .reading sessions (readings ++ [(s.counters k).reading k]) }
      else none
    | _ => none
  | .unavailable =>
    match s.phase with
    | .reading _ _ => some { s with phase := .idle }
    | _ => none
  | .take =>
    match s.phase with
    | .reading sessions readings =>
      let taken := s.meter.take sessions readings
      some { s with meter := taken.1, phase := .recording taken.2 }
    | _ => none
  | .record now o =>
    match s.phase with
    | .recording moved => some { s with
        node := (s.node.recordUsage C moved now o).1
        phase := .idle
        clock := max s.clock now }
    | _ => none

end Metering

/-- The meter and the service from the state `s` on. -/
def meteringFrom (C : Crypto) (cfg : Config) (engines : ℕ) (s : Metering) :
    System Metering MeteringEvent :=
  ⟨s, Metering.step C cfg engines⟩

/-! ### The total of an invite -/

/-- What the sessions of an invite have moved. -/
def chargeOf (s : PersistedState) (moved : String → Option ℕ) (grantId : String) : ℕ :=
  ((s.sessions.filter fun x => x.grantId == grantId).map fun x => (moved x.id).getD 0).sum

/-- The loop over the sessions adds up what those of the invite have moved. -/
lemma getD_movedByGrant (moved : String → Option ℕ) (grantId : String) (xs : List SessionRecord)
    {total : Option ℕ} (htotal : total.getD 0 ≤ u64Max) :
    (movedByGrant moved grantId xs total).getD 0 = saturatingAdd (total.getD 0)
      ((xs.filter fun x => x.grantId == grantId).map fun x => (moved x.id).getD 0).sum := by
  induction xs generalizing total with
  | nil => exact (min_eq_left htotal).symm
  | cons x xs ih =>
    unfold movedByGrant
    split
    · rename_i hx
      have hnext : (some (saturatingAdd (total.getD 0) ((moved x.id).getD 0))).getD 0 ≤ u64Max :=
        saturatingAdd_le_max _ _
      rw [ih hnext, Option.getD_some, saturatingAdd_assoc,
        filter_cons_of_pos (by simpa using hx.1), map_cons, sum_cons]
    · rename_i hx
      rw [ih htotal]
      congr 1
      by_cases hid : x.grantId = grantId
      · have hzero : (moved x.id).getD 0 = 0 := by
          by_contra hne
          exact hx ⟨hid, Nat.pos_of_ne_zero hne⟩
        rw [filter_cons_of_pos (by simpa using hid), map_cons, sum_cons, hzero,
          Nat.zero_add]
      · rw [filter_cons_of_neg (by simpa using hid)]

namespace AccessGrantRecord

variable {g : AccessGrantRecord} {a : DataAllowance}

lemma le_used_add (ha : g.allowance = some a) (bytes now : ℕ) :
    min (g.used now + bytes) u64Max ≤ (g.add bytes now).used now := by
  unfold add
  rw [ha]
  simp only
  split
  · rename_i hzero
    rw [hzero]
    exact min_le_left _ _
  · simp [used, ha, saturatingAdd]

lemma used_congr (ha : g.allowance = some a) {now now' : ℕ}
    (h : a.period.start now = a.period.start now') : g.used now = g.used now' := by
  cases hu : g.usage with
  | none => simp [used, ha, hu]
  | some usage => simp [used, ha, hu, h]

@[simp] lemma add_zero (g : AccessGrantRecord) (now : ℕ) : g.add 0 now = g := by
  unfold add
  cases g.allowance <;> rfl

@[simp] lemma id_add (g : AccessGrantRecord) (bytes now : ℕ) : (g.add bytes now).id = g.id := by
  obtain ⟨usage, heq, -⟩ := g.add_eq bytes now
  rw [heq]

@[simp] lemma allowance_add (g : AccessGrantRecord) (bytes now : ℕ) :
    (g.add bytes now).allowance = g.allowance := by
  obtain ⟨usage, heq, -⟩ := g.add_eq bytes now
  rw [heq]

lemma usedUpUntil_isSome (ha : g.allowance = some a) {now : ℕ} (h : a.bytes ≤ g.used now) :
    (g.usedUpUntil now).isSome = true := by
  simp [usedUpUntil, status, ha, AllowanceStatus.isUsedUp, h]

end AccessGrantRecord

section Record

variable {s : PersistedState} {moved : String → Option ℕ} {now : ℕ} {u : UsageRecorded}
  {id : String} {g : AccessGrantRecord}

/-- Each invite gets what its sessions have moved. -/
lemma chargeGrants_eq_add (s : PersistedState) (moved : String → Option ℕ) (now : ℕ) :
    chargeGrants s moved now =
      s.grants.map fun g => g.add (min (chargeOf s moved g.id) u64Max) now := by
  refine map_congr_left fun g _ => ?_
  have hmoved : (movedByGrant moved g.id s.sessions none).getD 0
      = min (chargeOf s moved g.id) u64Max := by
    have hnone : (none : Option ℕ).getD 0 ≤ u64Max := Nat.zero_le _
    simpa [saturatingAdd, chargeOf] using getD_movedByGrant moved g.id s.sessions hnone
  rw [← hmoved]
  cases movedByGrant moved g.id s.sessions none with
  | none => simp
  | some bytes => rfl

lemma findGrant_recordUsage (h : recordUsage s moved now = .ok u) (id : String) :
    u.next.findGrant id
      = (s.findGrant id).map fun g => g.add (min (chargeOf s moved id) u64Max) now := by
  obtain ⟨-, hnext⟩ := recordUsage_spec h
  rw [hnext, PersistedState.findGrant, chargeGrants_eq_add, find?_map]
  simp only [Function.comp_def, AccessGrantRecord.id_add]
  change (s.findGrant id).map _ = _
  refine Option.map_congr fun g hg => ?_
  have hid : g.id = id := by simpa using find?_some hg
  rw [hid]

/-- When an invite has used up its allowance, none of its sessions is left. -/
lemma grantId_ne_of_usedUp (h : recordUsage s moved now = .ok u) (hg : u.next.findGrant id = some g)
    (hused : (g.usedUpUntil now).isSome = true) : ∀ x ∈ u.next.sessions, x.grantId ≠ id := by
  obtain ⟨-, hnext⟩ := recordUsage_spec h
  intro x hx hid
  have hmem : g ∈ chargeGrants s moved now := by
    have := mem_of_find?_eq_some hg
    rwa [hnext] at this
  have hgid : g.id = id := by simpa using find?_some hg
  rw [hnext] at hx
  have hkept := of_mem_filter hx
  rw [Bool.not_eq_true', isUsedUp, any_eq_false] at hkept
  exact hkept g hmem (by simp [hused, hgid, hid])

/-- A record that succeeds makes current what it computes, and one that fails changes nothing in
memory. -/
lemma Node.recordUsage_cases (C : Crypto) (n : Node) (moved : String → Option ℕ) (now : ℕ)
    (o : StoreOutcome) : (∃ u, Server.recordUsage n.state moved now = .ok u ∧
      (n.recordUsage C moved now o).2 = .ok u.ended ∧ (n.recordUsage C moved now o).1.state = u.next) ∨
    ∃ e, (n.recordUsage C moved now o).2 = .error e ∧
      (n.recordUsage C moved now o).1.state = n.state := by
  unfold Node.recordUsage
  split
  · rename_i e _
    exact .inr ⟨e, rfl, rfl⟩
  · rename_i u hu
    by_cases hstores : u.stores n.usageStoredAt now = true
    · rw [if_pos hstores]
      by_cases hstored : stores C u.next o = true
      · have heq : n.transact C (.ok (u.next, u.ended)) o
            = ({ n with state := u.next, file := u.next }, .ok u.ended) := if_pos hstored
        exact .inl ⟨u, hu, by rw [heq], by rw [heq]⟩
      · have heq : n.transact C (.ok (u.next, u.ended)) o
            = ({ n with file := n.fileAfter C u.next o }, .error .persistence) := if_neg hstored
        exact .inr ⟨.persistence, by rw [heq], by rw [heq]⟩
    · rw [if_neg hstores]
      exact .inl ⟨u, hu, rfl, rfl⟩

end Record

/-! ### Ticks whose record fails -/

namespace Metering

variable (C : Crypto) (cfg : Config)

/-- What the meter has taken so far for the sessions of each invite, after an event. -/
def takenAfter (taken : String → ℕ) (s : Metering) (e : MeteringEvent) : String → ℕ :=
  match e, s.phase with
  | .record _ _, .recording moved => fun id => taken id + chargeOf s.node.state moved id
  | _, _ => taken

/-- One process, in the period of the allowance that holds `t`, in which nobody changes the
invite. -/
def Undisturbed (id : String) (a : DataAllowance) (t : ℕ) (s : Metering) : MeteringEvent → Prop
  | .restart _ _ _ => False
  | .operate op o => (s.node.access C cfg op o).1.state.findGrant id = s.node.state.findGrant id
  | .record now _ => a.period.start now = a.period.start t
  | _ => True

/-- A record fails only when the sessions of the invite have moved nothing since the tick before. -/
def LosesNothing (id : String) (s : Metering) (e : MeteringEvent) : Prop :=
  match e, s.phase with
  | .record now o, .recording moved =>
    (s.node.recordUsage C moved now o).2.isOk = true ∨ chargeOf s.node.state moved id = 0
  | _, _ => True

instance (id : String) (a : DataAllowance) (t : ℕ) (s : Metering) (e : MeteringEvent) :
    Decidable (s.Undisturbed C cfg id a t e) :=
  match e with
  | .restart _ _ _ => inferInstanceAs (Decidable False)
  | .operate _ _ => inferInstanceAs (Decidable (_ = _))
  | .record _ _ => inferInstanceAs (Decidable (_ = _))
  | .move .. | .reset .. | .list .. | .read .. | .unavailable | .take =>
    inferInstanceAs (Decidable True)

instance (id : String) (s : Metering) (e : MeteringEvent) : Decidable (s.LosesNothing C id e) := by
  unfold LosesNothing
  split <;> infer_instance

end Metering

/-- The meter and the service from the state `s` on, with what the meter takes. -/
def takingFrom (C : Crypto) (cfg : Config) (engines : ℕ) (s : Metering) :
    System (Metering × (String → ℕ)) MeteringEvent :=
  (meteringFrom C cfg engines s).withHistory (fun _ => 0) Metering.takenAfter

/-- The total of the invite includes what was taken for its sessions. -/
def Includes (id : String) (a : DataAllowance) (t before : ℕ) (s : Metering × (String → ℕ)) : Prop :=
  ∃ g, s.1.node.state.findGrant id = some g ∧ g.allowance = some a ∧
    min (before + s.2 id) u64Max ≤ g.used t

section

variable {C : Crypto} {cfg : Config} {engines : ℕ} {id : String} {a : DataAllowance} {t before : ℕ}

variable {s s' : Metering} {taken : String → ℕ}

lemma Includes.congr (h : Includes id a t before (s, taken))
    (hfind : s'.node.state.findGrant id = s.node.state.findGrant id) :
    Includes id a t before (s', taken) := by
  obtain ⟨g, hg, ha, hle⟩ := h
  exact ⟨g, hfind.trans hg, ha, hle⟩

/-- A record that succeeds adds what was taken. -/
lemma Includes.record {moved : String → Option ℕ} {now : ℕ} {u : UsageRecorded}
    (h : Includes id a t before (s, taken)) (hu : recordUsage s.node.state moved now = .ok u)
    (hstate : s'.node.state = u.next) (hperiod : a.period.start now = a.period.start t) :
    Includes id a t before (s', fun id => taken id + chargeOf s.node.state moved id) := by
  obtain ⟨g, hg, ha, hle⟩ := h
  refine ⟨g.add (min (chargeOf s.node.state moved id) u64Max) now, ?_, by simpa using ha, ?_⟩
  · rw [hstate, findGrant_recordUsage hu, hg, Option.map_some]
  · have hadd := AccessGrantRecord.le_used_add ha (min (chargeOf s.node.state moved id) u64Max) now
    rw [AccessGrantRecord.used_congr (g := g.add _ now) (by simpa using ha) hperiod,
      AccessGrantRecord.used_congr ha hperiod] at hadd
    simp only at hle ⊢
    omega

lemma Metering.eq_of_operate {op : Access} {o : StoreOutcome}
    (h : s.step C cfg engines (.operate op o) = some s') :
    s' = { s with node := (s.node.access C cfg op o).1, clock := max s.clock op.time } := by
  cases op with
  | recordUsage => cases h
  | _ => exact (Option.some.inj h).symm

lemma Includes.step {e : MeteringEvent} (h : Includes id a t before (s, taken))
    (hone : s.Undisturbed C cfg id a t e) (hlose : s.LosesNothing C id e)
    (hstep : s.step C cfg engines e = some s') :
    Includes id a t before (s', s.takenAfter taken e) := by
  cases e with
  | restart => exact hone.elim
  | operate op o =>
    have hnode : s'.node = (s.node.access C cfg op o).1 := by
      rw [Metering.eq_of_operate hstep]
    exact h.congr (by rw [hnode]; exact hone)
  | record now o =>
    simp only [Metering.step] at hstep
    split at hstep
    · rename_i moved hphase
      cases hstep
      simp only [Metering.takenAfter, hphase]
      rcases s.node.recordUsage_cases C moved now o with ⟨u, hu, -, hstate⟩ | ⟨e, herror, hstate⟩
      · exact h.record hu hstate hone
      · have hzero : chargeOf s.node.state moved id = 0 := by
          simp only [Metering.LosesNothing, hphase, herror] at hlose
          exact hlose.resolve_left nofun
        obtain ⟨g, hg, ha, hle⟩ := h
        refine ⟨g, by rw [hstate]; exact hg, ha, ?_⟩
        simpa only [hzero, Nat.add_zero] using hle
    · cases hstep
  | move | reset =>
    cases hstep
    exact h
  | list | read =>
    refine h.congr ?_
    simp only [Metering.step] at hstep
    split at hstep
    · split at hstep <;> cases hstep <;> rfl
    · cases hstep
  | unavailable | take =>
    refine h.congr ?_
    simp only [Metering.step] at hstep
    split at hstep <;> cases hstep
    rfl

end

/-- **Counted data survives failed stores.**  From any state on, over the ticks of one process in
one period of an invite's allowance, in which a record fails only when the sessions of the invite
have moved nothing since the tick before: after a tick that succeeds the total of the invite
includes all that was taken for its sessions, and when that is the allowance no session of the
invite is left. -/
theorem counted_survives {C : Crypto} {cfg : Config} {engines : ℕ} {s₀ : Metering} {id : String}
    {g₀ : AccessGrantRecord} {a : DataAllowance} {t : ℕ}
    (hg₀ : s₀.node.state.findGrant id = some g₀) (ha : g₀.allowance = some a)
    {s s' : Metering × (String → ℕ)} (hs : (takingFrom C cfg engines s₀).Reachable
      (fun s e => s.1.Undisturbed C cfg id a t e ∧ s.1.LosesNothing C id e) s)
    {moved : String → Option ℕ} {now : ℕ} {o : StoreOutcome} {ended : List SessionAllocation}
    (hphase : s.1.phase = .recording moved) (hperiod : a.period.start now = a.period.start t)
    (hok : (s.1.node.recordUsage C moved now o).2 = .ok ended)
    (hstep : (takingFrom C cfg engines s₀).step s (.record now o) = some s') :
    ∃ g, s'.1.node.state.findGrant id = some g ∧ min (g₀.used t + s'.2 id) u64Max ≤ g.used now ∧
      (a.bytes ≤ min (g₀.used t + s'.2 id) u64Max →
        ∀ x ∈ s'.1.node.state.sessions, x.grantId ≠ id) := by
  have hinv : Includes id a t (g₀.used t) s := by
    refine hs.invariant ⟨g₀, hg₀, ha, min_le_left _ _⟩ ?_
    rintro ⟨s, taken⟩ e ⟨s', taken'⟩ - h ⟨hone, hlose⟩ hstep
    obtain ⟨hstep, rfl⟩ := System.withHistory_step.mp hstep
    exact h.step hone hlose hstep
  obtain ⟨s, taken⟩ := s
  obtain ⟨s', taken'⟩ := s'
  obtain ⟨hstep, rfl⟩ := System.withHistory_step.mp hstep
  replace hphase : s.phase = .recording moved := hphase
  simp only [meteringFrom, Metering.step, hphase, Option.some.injEq] at hstep
  rcases s.node.recordUsage_cases C moved now o with ⟨u, hu, -, hstate⟩ | ⟨e, herror, -⟩
  · have hstate' : s'.node.state = u.next := by rw [← hstep]; exact hstate
    obtain ⟨g, hg, hga, hle⟩ := hinv.record hu hstate' hperiod
    rw [← AccessGrantRecord.used_congr hga hperiod] at hle
    simp only [Metering.takenAfter, hphase] at hle ⊢
    refine ⟨g, hg, hle, fun hbytes => ?_⟩
    rw [hstate'] at hg ⊢
    exact grantId_ne_of_usedUp hu hg (AccessGrantRecord.usedUpUntil_isSome hga (hbytes.trans hle))
  · cases herror.symm.trans hok

namespace Sample

/-- The allowance of `metered`: 1 MiB a month. -/
def allowance : DataAllowance := ⟨2 ^ 20, .month⟩

/-- The server starts, an invite with the allowance is created, and a device enrolls. -/
def metering : List MeteringEvent :=
  [.restart 5 5 .stored, .operate (.createGrant metered 10 code "hash") .stored,
    .operate (.createSession code "phone" 11 token secret) .stored]

/-- The device moves data through the one engine, and a tick of the meter records it. -/
def tick (bytes now : ℕ) (o : StoreOutcome) : List MeteringEvent :=
  [.move (0, "Session00001") now bytes, .list now, .read (0, "Session00001"), .take, .record now o]

/-- The state that these events lead to. -/
def meteringStart : Metering :=
  ((meteringFrom crypto config 1 .initial).runWith (fun _ _ => True) .initial metering).getD .initial

/-- A device of another invite enrolls.  The first device moves 500 bytes, which are recorded, then
the other one moves data in a tick whose store fails, and then the first moves 7 bytes more. -/
def failedTick : List MeteringEvent :=
  [.operate (.createGrant metered 12 code' "hash") .stored,
    .operate (.createSession code' "laptop" 13 token' secret) .stored] ++ tick 500 20 .stored ++
    [.move (0, "Session00002") 65 5, .list 65, .read (0, "Session00001"), .read (0, "Session00002"),
      .take, .record 65 .failed] ++ (tick 7 66 .stored).dropLast

end Sample

theorem counted_survives_failedTick :
    ∃ s', (∃ s, (takingFrom Sample.crypto Sample.config 1 Sample.meteringStart).Reachable
        (fun s e => s.1.Undisturbed Sample.crypto Sample.config "Grant00001" Sample.allowance 20 e ∧
          s.1.LosesNothing Sample.crypto "Grant00001" e) s ∧
        (takingFrom Sample.crypto Sample.config 1 Sample.meteringStart).step s (.record 66 .stored)
          = some s') ∧ s'.2 "Grant00001" = 507 ∧
      ∃ g, s'.1.node.state.findGrant "Grant00001" = some g ∧ 507 ≤ g.used 66 := by
  obtain ⟨g₀, hg₀, hg⟩ := (Option.any_eq_true
    (fun g : AccessGrantRecord => decide (g.allowance = some Sample.allowance))
    (Sample.meteringStart.node.state.findGrant "Grant00001")).mp (by decide +kernel)
  obtain ⟨s, hs, hready⟩ := System.exists_reachable_of_run
    (takingFrom Sample.crypto Sample.config 1 Sample.meteringStart)
    (fun s e => s.1.Undisturbed Sample.crypto Sample.config "Grant00001" Sample.allowance 20 e ∧
      s.1.LosesNothing Sample.crypto "Grant00001" e)
    (fun s => (match s.1.phase with
      | .recording moved => (s.1.node.recordUsage Sample.crypto moved 66 .stored).2.isOk &&
          decide (s.2 "Grant00001" + chargeOf s.1.node.state moved "Grant00001" = 507)
      | _ => false) = true)
    Sample.failedTick (by decide +kernel)
  split at hready
  · rename_i moved hphase
    obtain ⟨hok, htaken⟩ := Bool.and_eq_true_iff.mp hready
    have htaken := of_decide_eq_true htaken
    cases hrecord : (s.1.node.recordUsage Sample.crypto moved 66 .stored).2 with
    | error e =>
      rw [hrecord] at hok
      cases hok
    | ok ended =>
      obtain ⟨s', hstep⟩ : ∃ s', (takingFrom Sample.crypto Sample.config 1
          Sample.meteringStart).step s (.record 66 .stored) = some s' := by
        simp [takingFrom, System.withHistory, meteringFrom, Metering.step, hphase]
      have hafter : s'.2 "Grant00001" = 507 := by
        rw [(System.withHistory_step.mp hstep).2]
        simpa only [Metering.takenAfter, hphase] using htaken
      obtain ⟨g, hfind, hle, -⟩ := counted_survives hg₀ (of_decide_eq_true hg) hs hphase
        (by decide +kernel) hrecord hstep
      refine ⟨s', ⟨s, hs, hstep⟩, hafter, g, hfind, ?_⟩
      rw [hafter] at hle
      have hmax : (507 : ℕ) ≤ u64Max := by decide
      omega
  · cases hready

/-- The allowance is used up in a tick whose store fails; then a byte more is moved, and a tick is
stored. -/
theorem failed_store_loses_count :
    ∃ s₀ s, (takingFrom Sample.crypto Sample.config 1 Metering.initial).Reachable
        (fun _ _ => True) s₀ ∧ (takingFrom Sample.crypto Sample.config 1 Metering.initial).runWith
        (fun s e => s.1.Undisturbed Sample.crypto Sample.config "Grant00001" Sample.allowance 20 e)
        s₀ (Sample.tick (2 ^ 20) 20 .failed ++ Sample.tick 1 65 .stored) = some s ∧
      s.2 "Grant00001" = 2 ^ 20 + 1 ∧
      (s.1.node.state.findGrant "Grant00001").map (fun g => g.used 65) = some 1 ∧
      s.1.node.state.sessions.map SessionRecord.grantId = ["Grant00001"] :=
  System.exists_reachable_of_runs _ _ _ _ Sample.metering
    (Sample.tick (2 ^ 20) 20 .failed ++ Sample.tick 1 65 .stored) (by decide +kernel)

end Ket.Server
