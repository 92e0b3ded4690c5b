import Ket.Lib.Counter
import Ket.Lib.Word
import Ket.Server.Model

/-!
# The usage meter (`ket-server/src/meter.rs`)

`UsageMeter.take` turns the running byte counters of the engines into what each session moved
since the call before.  Besides what `take` returns, `deltaOf` follows what one call reports for
one pair of engine and session; `take_moved` says that the total `take` returns for a session is
the saturated sum of what it reports for the pairs of that session.

A pair's counter is a `Lib.Counter`; a `Tick` is what the counter did before a call and the call.
Over ticks that list the session, the meter is a reader of the pair's counter in the sense of
`Lib.Counter` (`deltasOf_eq_reported`), so what it reports for the pair is bounded by what the
counter moved.
-/

namespace Ket.Server

open Ket.Lib List

/-- A live session of a grant with an allowance. -/
structure MeteredSession where
  allocation : SessionAllocation
  issuedAt : ℕ
  /-- When the grant's allowance began to apply. -/
  countedSince : ℕ
deriving DecidableEq, Repr

/-- What one engine has counted for one session since `since`. -/
structure UsageReading where
  sessionId : String
  engine : ℕ
  since : ℕ
  bytes : ℕ
deriving DecidableEq, Repr

/-- An engine and a session. -/
abbrev MeterKey : Type := ℕ × String

namespace UsageReading

def key (r : UsageReading) : MeterKey := (r.engine, r.sessionId)

/-- The reading as the meter keeps it. -/
def mark (r : UsageReading) : ℕ × ℕ := (r.since, r.bytes)

end UsageReading

structure UsageMeter where
  startedAt : ℕ
  /-- The last reading of each counter. -/
  last : MeterKey → Option (ℕ × ℕ)

/-- The sessions collected into a map by ID, where a later entry replaces an earlier one. -/
def sessionsById (sessions : List MeteredSession) (id : String) : Option MeteredSession :=
  sessions.reverse.find? fun session => session.allocation.id == id

namespace UsageMeter

/-- `UsageMeter::new`. -/
def new (startedAt : ℕ) : UsageMeter := ⟨startedAt, fun _ => none⟩

/-- The counters of sessions that are no longer listed are forgotten. -/
def retain (m : UsageMeter) (sessions : List MeteredSession) : UsageMeter :=
  { m with last := fun k => if (sessionsById sessions k.2).isSome then m.last k else none }

/-- A counter seen for the first time counts in full when it began after both the meter started
and the allowance began to apply. -/
def countsInFull (m : UsageMeter) (session : MeteredSession) (since : ℕ) : Bool :=
  decide (max m.startedAt session.countedSince ≤ max session.issuedAt since)

/-- What one reading adds. -/
def delta (m : UsageMeter) (session : MeteredSession) (r : UsageReading) : ℕ :=
  match m.last r.key with
  | some (since, bytes) =>
    if since = r.since ∧ bytes ≤ r.bytes then r.bytes - bytes else r.bytes
  | none => if m.countsInFull session r.since then r.bytes else 0

/-- The meter keeps a reading as the last one of its counter. -/
def keep (m : UsageMeter) (r : UsageReading) : UsageMeter :=
  { m with last := Function.update m.last r.key (some r.mark) }

/-- The body of the loop over the readings; the second component is the map `take` returns. -/
def takeReading (sessions : List MeteredSession) (acc : UsageMeter × (String → Option ℕ))
    (r : UsageReading) : UsageMeter × (String → Option ℕ) :=
  match sessionsById sessions r.sessionId with
  | none => acc
  | some session =>
    (acc.1.keep r,
      Function.update acc.2 r.sessionId
        (some (saturatingAdd ((acc.2 r.sessionId).getD 0) (acc.1.delta session r))))

/-- `UsageMeter::take`. -/
def take (m : UsageMeter) (sessions : List MeteredSession) (readings : List UsageReading) :
    UsageMeter × (String → Option ℕ) :=
  readings.foldl (takeReading sessions) (m.retain sessions, fun _ => none)

/-! ### What a call reports for one pair -/

/-- What the loop over the readings adds on account of the readings with `p`. -/
def loopDelta (p : UsageReading → Bool) (sessions : List MeteredSession) (m : UsageMeter) :
    List UsageReading → ℕ
  | [] => 0
  | r :: rs =>
    match sessionsById sessions r.sessionId with
    | none => loopDelta p sessions m rs
    | some session =>
      (if p r then m.delta session r else 0) + loopDelta p sessions (m.keep r) rs

/-- What one call reports for the pair `k`. -/
def deltaOf (k : MeterKey) (m : UsageMeter) (sessions : List MeteredSession)
    (readings : List UsageReading) : ℕ :=
  loopDelta (fun r => r.key == k) sessions (m.retain sessions) readings

/-- The meter after one reading. -/
def keepListed (sessions : List MeteredSession) (m : UsageMeter) (r : UsageReading) :
    UsageMeter :=
  if (sessionsById sessions r.sessionId).isSome then m.keep r else m

lemma takeReading_fst (sessions : List MeteredSession) (acc : UsageMeter × (String → Option ℕ))
    (r : UsageReading) : (takeReading sessions acc r).1 = keepListed sessions acc.1 r := by
  unfold takeReading keepListed
  cases sessionsById sessions r.sessionId <;> rfl

lemma foldl_takeReading_fst (sessions : List MeteredSession) (readings : List UsageReading)
    (acc : UsageMeter × (String → Option ℕ)) : (readings.foldl (takeReading sessions) acc).1
      = readings.foldl (keepListed sessions) acc.1 := by
  induction readings generalizing acc with
  | nil => rfl
  | cons r rs ih => rw [foldl_cons, foldl_cons, ih, takeReading_fst]

/-- What `take` leaves of the meter does not depend on what it returns. -/
lemma take_fst (m : UsageMeter) (sessions : List MeteredSession) (readings : List UsageReading) :
    (m.take sessions readings).1 = readings.foldl (keepListed sessions) (m.retain sessions) :=
  foldl_takeReading_fst sessions readings _

lemma loopDelta_cons (p : UsageReading → Bool) (sessions : List MeteredSession) (m : UsageMeter)
    (r : UsageReading) (rs : List UsageReading) : loopDelta p sessions m (r :: rs) =
      ((sessionsById sessions r.sessionId).elim 0 fun session =>
        if p r then m.delta session r else 0) + loopDelta p sessions (keepListed sessions m r) rs := by
  unfold keepListed
  cases h : sessionsById sessions r.sessionId with
  | _ => simp [loopDelta, h]

lemma loopDelta_append (p : UsageReading → Bool) (sessions : List MeteredSession)
    (rs rs' : List UsageReading) (m : UsageMeter) : loopDelta p sessions m (rs ++ rs') =
      loopDelta p sessions m rs + loopDelta p sessions (rs.foldl (keepListed sessions) m) rs' := by
  induction rs generalizing m with
  | nil => simp [loopDelta]
  | cons r rs ih =>
    rw [cons_append, loopDelta_cons, loopDelta_cons, ih, foldl_cons]
    omega

variable {p : UsageReading → Bool} {rs : List UsageReading} {sessions : List MeteredSession}
  {k : MeterKey} {r : UsageReading} {c : Counter}

lemma loopDelta_congr {q : UsageReading → Bool} (h : ∀ r ∈ rs, p r = q r) (m : UsageMeter) :
    loopDelta p sessions m rs = loopDelta q sessions m rs := by
  induction rs generalizing m with
  | nil => rfl
  | cons r rs ih =>
    rw [loopDelta_cons, loopDelta_cons, ih (fun r' hr' => h r' (mem_cons_of_mem _ hr')),
      h r mem_cons_self]

lemma loopDelta_eq_zero (h : ∀ r ∈ rs, p r = false) (m : UsageMeter) :
    loopDelta p sessions m rs = 0 := by
  induction rs generalizing m with
  | nil => rfl
  | cons r rs ih =>
    rw [loopDelta_cons, ih (fun r' hr' => h r' (mem_cons_of_mem _ hr')),
      h r mem_cons_self]
    cases sessionsById sessions r.sessionId <;> simp

/-- What is added for a session by the readings of one engine is added for its pair. -/
lemma loopDelta_le_sum {engine n : ℕ} (hengine : ∀ r ∈ rs, r.engine = engine) (hn : engine < n)
    (m : UsageMeter) (id : String) : loopDelta (fun r => r.sessionId == id) sessions m rs
      ≤ ∑ i ∈ Finset.range n, loopDelta (fun r => r.key == (i, id)) sessions m rs := by
  have hpair : loopDelta (fun r => r.sessionId == id) sessions m rs
      = loopDelta (fun r => r.key == (engine, id)) sessions m rs := by
    refine loopDelta_congr (fun r hr => ?_) m
    rw [Bool.eq_iff_iff, beq_iff_eq, beq_iff_eq, UsageReading.key, hengine r hr, Prod.mk.injEq]
    exact (and_iff_right rfl).symm
  rw [hpair]
  exact Finset.single_le_sum (f := fun i => loopDelta (fun r => r.key == (i, id)) sessions m rs)
    (fun _ _ => Nat.zero_le _) (Finset.mem_range.mpr hn)

/-- Forgetting the sessions that are not listed makes no difference to the readings of those that
are. -/
lemma keepListed_retain (sessions : List MeteredSession) (m : UsageMeter) (r : UsageReading) :
    keepListed sessions (m.retain sessions) r = (keepListed sessions m r).retain sessions := by
  unfold keepListed
  split
  · rename_i hlisted
    simp only [keep, retain, mk.injEq, true_and]
    funext k
    by_cases hk : k = r.key
    · subst hk
      have hlisted : (sessionsById sessions r.key.2).isSome := hlisted
      simp [hlisted]
    · simp [Function.update_of_ne hk]
  · rfl

lemma foldl_keepListed_retain (sessions : List MeteredSession) (rs : List UsageReading)
    (m : UsageMeter) : rs.foldl (keepListed sessions) (m.retain sessions)
      = (rs.foldl (keepListed sessions) m).retain sessions := by
  induction rs generalizing m with
  | nil => rfl
  | cons r rs ih => rw [foldl_cons, keepListed_retain, ih, foldl_cons]

lemma loopDelta_retain (p : UsageReading → Bool) (sessions : List MeteredSession)
    (rs : List UsageReading) (m : UsageMeter) :
    loopDelta p sessions (m.retain sessions) rs = loopDelta p sessions m rs := by
  induction rs generalizing m with
  | nil => rfl
  | cons r rs ih =>
    rw [loopDelta_cons, loopDelta_cons, keepListed_retain, ih]
    cases hsession : sessionsById sessions r.sessionId with
    | none => rfl
    | some session =>
      have hlast : (m.retain sessions).last r.key = m.last r.key := by
        have hlisted : sessionsById sessions r.key.2 = some session := hsession
        simp [retain, hlisted]
      have hdelta : (m.retain sessions).delta session r = m.delta session r := by
        simp only [delta, hlast]
        rfl
      rw [Option.elim_some, Option.elim_some, hdelta]

/-- The total of a session in the map is capped where its machine word ends. -/
lemma foldl_takeReading_snd (sessions : List MeteredSession) (id : String)
    (readings : List UsageReading) (acc : UsageMeter × (String → Option ℕ))
    (hacc : (acc.2 id).getD 0 ≤ u64Max) :
    ((readings.foldl (takeReading sessions) acc).2 id).getD 0 = saturatingAdd ((acc.2 id).getD 0)
        (loopDelta (fun r => r.sessionId == id) sessions acc.1 readings) := by
  induction readings generalizing acc with
  | nil => exact (min_eq_left hacc).symm
  | cons r rs ih =>
    have hstep : ((takeReading sessions acc r).2 id).getD 0 = saturatingAdd ((acc.2 id).getD 0)
        ((sessionsById sessions r.sessionId).elim 0 fun session =>
          if r.sessionId == id then acc.1.delta session r else 0) := by
      unfold takeReading
      cases sessionsById sessions r.sessionId with
      | none => exact (min_eq_left hacc).symm
      | some session =>
        by_cases hid : r.sessionId = id
        · subst hid
          simp
        · have hne : (r.sessionId == id) = false := by simpa using hid
          simp only [hne, Option.elim_some, Function.update_of_ne (Ne.symm hid)]
          exact (min_eq_left hacc).symm
    rw [foldl_cons, ih _ (by rw [hstep]; exact saturatingAdd_le_max _ _), hstep,
      takeReading_fst, loopDelta_cons, saturatingAdd_assoc]

/-- `take` returns for each session the saturated sum of what it reports for its pairs. -/
theorem take_moved (m : UsageMeter) (sessions : List MeteredSession)
    (readings : List UsageReading) (id : String) : ((m.take sessions readings).2 id).getD 0 =
      min (loopDelta (fun r => r.sessionId == id) sessions (m.retain sessions) readings) u64Max := by
  have h := foldl_takeReading_snd sessions id readings (m.retain sessions, fun _ => none)
    (Nat.zero_le _)
  simpa [saturatingAdd, take] using h

/-! ### The meter as a reader of one counter -/

@[simp] lemma keep_last_self (m : UsageMeter) (r : UsageReading) :
    (m.keep r).last r.key = some r.mark := Function.update_self _ _ _

lemma keep_last_of_ne (m : UsageMeter) (h : r.key ≠ k) :
    (m.keep r).last k = m.last k := Function.update_of_ne (Ne.symm h) _ _

/-- A reading of a counter adds what a reader of the counter reports. -/
lemma delta_eq_report (m : UsageMeter) (session : MeteredSession) (h : r.mark = c.reading) :
    m.delta session r = Round.report (m.last r.key) c (m.countsInFull session c.since) := by
  obtain ⟨hsince, hbytes⟩ : r.since = c.since ∧ r.bytes = c.count := Prod.mk.injEq .. ▸ h
  unfold delta Round.report
  cases m.last r.key with
  | none => simp [hsince, hbytes]
  | some l => simp [Counter.gain, hsince, hbytes]

lemma keepListed_startedAt (sessions : List MeteredSession) (m : UsageMeter) (r : UsageReading) :
    (keepListed sessions m r).startedAt = m.startedAt := by
  unfold keepListed
  split <;> rfl

lemma keepListed_last (m : UsageMeter) (hk : (sessionsById sessions k.2).isSome)
    (hr : r.key = k → r.mark = c.reading) :
    (keepListed sessions m r).last k = if r.key = k then some c.reading else m.last k := by
  by_cases hkey : r.key = k
  · have hlisted : (sessionsById sessions r.sessionId).isSome := by
      rw [← hkey] at hk
      exact hk
    subst hkey
    simp [keepListed, hlisted, ← hr rfl]
  · rw [if_neg hkey]
    unfold keepListed
    split
    · exact keep_last_of_ne m hkey
    · rfl

lemma foldl_keepListed_of_ne (h : ∀ r ∈ rs, r.key ≠ k) (m : UsageMeter) :
    (rs.foldl (keepListed sessions) m).last k = m.last k := by
  induction rs generalizing m with
  | nil => rfl
  | cons r rs ih =>
    rw [foldl_cons, ih fun r' hr' => h r' (mem_cons_of_mem _ hr')]
    unfold keepListed
    split
    · exact keep_last_of_ne m (h r mem_cons_self)
    · rfl

/-- The loop does not forget a counter. -/
lemma foldl_keepListed_ne_none (rs : List UsageReading) {m : UsageMeter} (h : m.last k ≠ none) :
    (rs.foldl (keepListed sessions) m).last k ≠ none := by
  induction rs generalizing m with
  | nil => exact h
  | cons r rs ih =>
    refine ih ?_
    unfold keepListed
    split
    · by_cases hkey : r.key = k
      · subst hkey
        simp
      · rwa [keep_last_of_ne m hkey]
    · exact h

lemma foldl_keepListed_startedAt (sessions : List MeteredSession) (rs : List UsageReading)
    (m : UsageMeter) : (rs.foldl (keepListed sessions) m).startedAt = m.startedAt := by
  induction rs generalizing m with
  | nil => rfl
  | cons r rs ih => rw [foldl_cons, ih, keepListed_startedAt]

/-- After the loop the meter holds the counter of a listed pair that was read. -/
lemma foldl_keepListed_last (hk : (sessionsById sessions k.2).isSome) (rs : List UsageReading)
    (m : UsageMeter) (hrs : ∀ r ∈ rs, r.key = k → r.mark = c.reading) :
    (rs.foldl (keepListed sessions) m).last k =
      if rs.any (fun r => r.key == k) then some c.reading else m.last k := by
  induction rs generalizing m with
  | nil => rfl
  | cons r rs ih =>
    rw [foldl_cons, ih _ fun r' hr' => hrs r' (mem_cons_of_mem _ hr'),
      keepListed_last m hk (hrs r mem_cons_self)]
    by_cases hkey : r.key = k <;> simp [hkey]

/-- What the loop adds for a listed pair is what a reader of its counter reports.  Only the
first reading adds something: the meter holds the counter when it comes to the second. -/
lemma loopDelta_eq_report {session : MeteredSession} (hk : sessionsById sessions k.2 = some session)
    (rs : List UsageReading) (m : UsageMeter) (hrs : ∀ r ∈ rs, r.key = k → r.mark = c.reading) :
    loopDelta (fun r => r.key == k) sessions m rs = if rs.any (fun r => r.key == k) then
        Round.report (m.last k) c (m.countsInFull session c.since) else 0 := by
  induction rs generalizing m with
  | nil => rfl
  | cons r rs ih =>
    have hr := hrs r mem_cons_self
    have hlast := keepListed_last m (by rw [hk]; rfl) hr
    have hfull : (keepListed sessions m r).countsInFull session c.since
        = m.countsInFull session c.since := by
      simp only [countsInFull, keepListed_startedAt]
    rw [loopDelta_cons, ih _ fun r' hr' => hrs r' (mem_cons_of_mem _ hr'), hlast, hfull]
    by_cases hkey : r.key = k
    · have hid : sessionsById sessions r.sessionId = some session := by
        rw [← hkey] at hk
        exact hk
      have hdelta := delta_eq_report m session (hr hkey)
      rw [hkey] at hdelta
      simp [hkey, hid, hdelta, Round.report]
    · have hbeq : (r.key == k) = false := by simpa using hkey
      cases sessionsById sessions r.sessionId <;> simp [hkey, hbeq]

end UsageMeter

/-! ### Sequences of calls -/

/-- What the counter of a pair does, and then a call of `take`. -/
structure Tick where
  events : List CounterEvent
  sessions : List MeteredSession
  readings : List UsageReading
deriving DecidableEq

namespace Tick

/-- The call lists the session of the pair. -/
def Lists (k : MeterKey) (t : Tick) : Prop := ∃ s ∈ t.sessions, s.allocation.id = k.2

/-- The call reads the counter of the pair. -/
def Reads (k : MeterKey) (t : Tick) : Prop := ∃ r ∈ t.readings, r.key = k

/-- What the call reads of the pair is its counter, which stood at `c` at the call before. -/
def Shows (k : MeterKey) (c : Counter) (t : Tick) : Prop :=
  ∀ r ∈ t.readings, r.key = k → r.mark = (c.run t.events).reading

instance (k : MeterKey) (t : Tick) : Decidable (t.Lists k) :=
  inferInstanceAs (Decidable (∃ s ∈ t.sessions, s.allocation.id = k.2))

instance (k : MeterKey) (t : Tick) : Decidable (t.Reads k) :=
  inferInstanceAs (Decidable (∃ r ∈ t.readings, r.key = k))

instance (k : MeterKey) (c : Counter) (t : Tick) : Decidable (t.Shows k c) :=
  inferInstanceAs (Decidable (∀ r ∈ t.readings, r.key = k → r.mark = (c.run t.events).reading))

end Tick

/-- What the counter of the pair does over a list of calls. -/
def tickEvents (ts : List Tick) : List CounterEvent := ts.flatMap Tick.events

/-- Every call of a list reads the pair's counter, which stood at `c` before them. -/
def ShowsAll (k : MeterKey) (c : Counter) : List Tick → Prop
  | [] => True
  | t :: ts => t.Shows k c ∧ ShowsAll k (c.run t.events) ts

namespace UsageMeter

/-- The meter after a call. -/
def afterTick (m : UsageMeter) (t : Tick) : UsageMeter := (m.take t.sessions t.readings).1

/-- What the calls of a list report for the pair, together. -/
def deltasOf (k : MeterKey) (m : UsageMeter) : List Tick → ℕ
  | [] => 0
  | t :: ts => m.deltaOf k t.sessions t.readings + (m.afterTick t).deltasOf k ts

/-- The call as a round of a reader of the pair's counter. -/
def roundOf (k : MeterKey) (m : UsageMeter) (c : Counter) (t : Tick) : Round where
  events := t.events
  seen := t.readings.any fun r => r.key == k
  inFull := (sessionsById t.sessions k.2).any fun s => m.countsInFull s (c.run t.events).since

/-- The calls of a list as rounds of a reader. -/
def roundsOf (k : MeterKey) (m : UsageMeter) (c : Counter) : List Tick → List Round
  | [] => []
  | t :: ts => m.roundOf k c t :: (m.afterTick t).roundsOf k (c.run t.events) ts

lemma events_roundsOf (k : MeterKey) (m : UsageMeter) (c : Counter) (ts : List Tick) :
    events (m.roundsOf k c ts) = tickEvents ts := by
  induction ts generalizing m c with
  | nil => rfl
  | cons t ts ih =>
    rw [roundsOf, events_cons, ih]
    rfl

variable {k : MeterKey} {t final : Tick} {c : Counter} {ts : List Tick}

lemma exists_sessionsById (h : t.Lists k) :
    ∃ session, sessionsById t.sessions k.2 = some session := by
  obtain ⟨s, hs, hid⟩ := h
  rw [← Option.isSome_iff_exists, sessionsById, find?_isSome]
  exact ⟨s, mem_reverse.mpr hs, by simpa using hid⟩

lemma retain_last (m : UsageMeter) (h : t.Lists k) : (m.retain t.sessions).last k = m.last k := by
  obtain ⟨session, hs⟩ := exists_sessionsById h
  exact if_pos (by rw [hs]; rfl)

/-- A call that lists the session is a round of a reader: the last reading it leaves. -/
lemma afterTick_last (m : UsageMeter) (hl : t.Lists k) (hs : t.Shows k c) :
    (m.afterTick t).last k = (m.roundOf k c t).lastAfter (m.last k) c := by
  obtain ⟨session, hsession⟩ := exists_sessionsById hl
  rw [afterTick, take_fst, foldl_keepListed_last (by rw [hsession]; rfl) _ _ hs,
    retain_last m hl]
  rfl

/-- A call that lists the session is a round of a reader: what it reports. -/
lemma deltaOf_eq_reported (m : UsageMeter) (hl : t.Lists k) (hs : t.Shows k c) :
    m.deltaOf k t.sessions t.readings = (m.roundOf k c t).reported (m.last k) c := by
  obtain ⟨session, hsession⟩ := exists_sessionsById hl
  rw [deltaOf, loopDelta_eq_report hsession _ _ hs, retain_last m hl]
  simp only [Round.reported, roundOf, hsession, Option.any_some]
  rfl

/-- Over calls that list the session throughout, the meter is a reader of the pair's counter. -/
theorem deltasOf_eq_reported (m : UsageMeter) (hl : ∀ t ∈ ts, t.Lists k) (hs : ShowsAll k c ts) :
    m.deltasOf k ts = reported (m.last k) c (m.roundsOf k c ts) := by
  induction ts generalizing m c with
  | nil => rfl
  | cons t ts ih =>
    have ht := hl t mem_cons_self
    rw [deltasOf, roundsOf, reported, deltaOf_eq_reported m ht hs.1,
      ih _ (fun t' ht' => hl t' (mem_cons_of_mem _ ht')) hs.2, afterTick_last m ht hs.1]
    rfl

lemma any_of_reads (h : t.Reads k) : t.readings.any (fun r => r.key == k) = true := by
  obtain ⟨r, hr, hk⟩ := h
  exact any_eq_true.mpr ⟨r, hr, by simpa using hk⟩

/-- After a call that reads the pair the meter holds its counter. -/
lemma afterTick_last_of_reads (m : UsageMeter) (hl : t.Lists k) (hs : t.Shows k c) (hr : t.Reads k)
    : (m.afterTick t).last k = some (c.run t.events).reading := by
  rw [afterTick_last m hl hs]
  exact if_pos (any_of_reads hr)

lemma roundsOf_concat (k : MeterKey) (m : UsageMeter) (c : Counter) (ts : List Tick) (t : Tick) :
    ∃ rs r, m.roundsOf k c (ts ++ [t]) = rs ++ [r] ∧
      r.seen = t.readings.any fun r => r.key == k := by
  induction ts generalizing m c with
  | nil => exact ⟨[], m.roundOf k c t, rfl, rfl⟩
  | cons t' ts ih =>
    obtain ⟨rs, r, hrs, hr⟩ := ih (m.afterTick t') (c.run t'.events)
    exact ⟨m.roundOf k c t' :: rs, r, by rw [cons_append, roundsOf, hrs]; rfl, hr⟩

/-- Between a reading of a pair and a later one, the meter reports exactly what its counter
moved while it did not restart. -/
lemma deltasOf_eq (m : UsageMeter) (hl : ∀ t ∈ ts ++ [final], t.Lists k)
    (hs : ShowsAll k c (ts ++ [final])) (hm : m.last k = some c.reading) (hfinal : final.Reads k)
    (hrun : ∀ e ∈ tickEvents (ts ++ [final]), e.isRestart = false) :
    m.deltasOf k (ts ++ [final]) = Counter.moved (tickEvents (ts ++ [final])) := by
  obtain ⟨rs, r, hrounds, hseen⟩ := m.roundsOf_concat k c ts final
  rw [any_of_reads hfinal] at hseen
  have hevents := events_roundsOf k m c (ts ++ [final])
  have hrestart : ∀ e ∈ events (rs ++ [r]), e.isRestart = false := by
    rw [← hrounds, hevents]
    exact hrun
  have h := reported_add_unreported_eq (l := c.reading) rfl (Nat.le_refl _) hrestart
  rw [lastAfter_concat _ _ _ hseen, Counter.unreported_reading, Counter.unreported_reading,
    ← hrounds, hevents] at h
  rw [deltasOf_eq_reported m hl hs, hm]
  omega

lemma mark_of_showsAll_concat (hs : ShowsAll k c (ts ++ [final])) {r : UsageReading}
    (hr : r ∈ final.readings) (hk : r.key = k) :
    r.mark = (c.run (tickEvents (ts ++ [final]))).reading := by
  induction ts generalizing c with
  | nil => simpa [tickEvents] using hs.1 r hr hk
  | cons t ts ih =>
    rw [ih hs.2, tickEvents, tickEvents, cons_append, flatMap_cons,
      Counter.run_append]

/-- **The meter never counts a byte twice.**  Over calls that all list the session of a pair, the
meter reports for the pair at most what its counter moved, over all its incarnations, and what was
unreported of it before.  If the counter did not restart from a call that reads it on, then up to
any later call that reads it the meter reports the difference of the two readings. -/
theorem deltas_le_moved {k : MeterKey} {m : UsageMeter} {c : Counter} {span : List Tick}
    (hlists : ∀ t ∈ span, t.Lists k) (hshows : ShowsAll k c span) :
    m.deltasOf k span ≤ c.unreported (m.last k) + Counter.moved (tickEvents span) ∧
      ∀ first ts final, span = first :: (ts ++ [final]) →
        (∀ e ∈ tickEvents (ts ++ [final]), e.isRestart = false) →
        ∀ r ∈ first.readings, r.key = k → ∀ r' ∈ final.readings, r'.key = k →
          r.bytes + (m.afterTick first).deltasOf k (ts ++ [final]) = r'.bytes := by
  constructor
  · have h := reported_add_unreported_le (m.last k) c (m.roundsOf k c span)
    rw [events_roundsOf] at h
    rw [deltasOf_eq_reported m hlists hshows]
    omega
  rintro first ts final rfl hrun r hr hk r' hr' hk'
  have hlast := afterTick_last_of_reads m (hlists first mem_cons_self) hshows.1 ⟨r, hr, hk⟩
  have hspan : ∀ t ∈ ts ++ [final], t.Lists k := fun t ht => hlists t (mem_cons_of_mem _ ht)
  have hmark := hshows.1 r hr hk
  have hmark' := mark_of_showsAll_concat hshows.2 hr' hk'
  rw [Counter.run_of_no_restart _ hrun] at hmark'
  rw [deltasOf_eq _ hspan hshows.2 hlast ⟨r', hr', hk'⟩ hrun]
  have hbytes : r.bytes = (c.run first.events).count := congrArg Prod.snd hmark
  have hbytes' : r'.bytes = (c.run first.events).count + _ := congrArg Prod.snd hmark'
  omega

/-- A session that was issued at 10, of a grant that always had its allowance. -/
def phone : MeteredSession := ⟨⟨"phone", 0⟩, 10, 0⟩

/-- A call that lists `phone`, which has moved `n` bytes since the call before; engine 0 shows
`reads`, if it answers. -/
def phoneTick (n : ℕ) (reads : Option ℕ) : Tick :=
  ⟨[.move n], [phone], reads.toList.map fun bytes => ⟨"phone", 0, 0, bytes⟩⟩

/-- `phone` has moved 30 bytes when it is first listed. -/
def phoneTicks : List Tick :=
  [phoneTick 70 (some 100), phoneTick 50 none, phoneTick 7 (some 157)]

/-- Readings of 100 and 157 with a missed one between them: 157 bytes are reported, 57 of them
after the first. -/
theorem deltas_le_moved_phone : (new 0).deltasOf (0, "phone") phoneTicks
        ≤ Counter.unreported none ⟨0, 30⟩ + Counter.moved (tickEvents phoneTicks) ∧
      100 + ((new 0).afterTick (phoneTick 70 (some 100))).deltasOf (0, "phone")
        [phoneTick 50 none, phoneTick 7 (some 157)] = 157 := by
  have h := @deltas_le_moved (0, "phone") (new 0) ⟨0, 30⟩ phoneTicks (by decide)
    ⟨by decide, by decide, by decide, trivial⟩
  exact ⟨h.1, h.2 _ [phoneTick 50 none] (phoneTick 7 (some 157)) rfl (by decide)
    ⟨"phone", 0, 0, 100⟩ (by decide) rfl ⟨"phone", 0, 0, 157⟩ (by decide) rfl⟩

/-- What was unreported before cannot be left out of the bound: a session that is listed while its
engine does not answer, and has moved 500 bytes by then, is charged with them at the next call,
between which and the first it moved nothing. -/
theorem unread_first_call_exceeds :
    ¬ ∀ (k : MeterKey) (startedAt : ℕ) (c : Counter) (first : Tick) (span : List Tick),
      (∀ t ∈ first :: span, t.Lists k) →
      (∀ t ∈ first :: span, (t.readings.filter fun r => r.key == k).length ≤ 1) →
      ShowsAll k c (first :: span) →
      ((new startedAt).afterTick first).deltasOf k span ≤ Counter.moved (tickEvents span) := by
  intro h
  have h' := h (0, "phone") 0 ⟨0, 0⟩ (phoneTick 500 none) [phoneTick 0 (some 500)]
    (by decide) (by decide) ⟨by decide, by decide, trivial⟩
  exact absurd h' (by decide)

end UsageMeter

end Ket.Server
