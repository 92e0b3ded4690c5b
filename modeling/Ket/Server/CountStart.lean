import Ket.Server.Metering
import Ket.Server.Removal

/-!
# Where the count of an invite starts

An allowance counts from the time at which it was set, or at which its period was changed.  What
one reading adds to a total are the last bytes of the counter that was read (`Added`), and
`Added.before` says how many of them were moved before a given time.

The start of the count is enforced for counters that the meter has not read before only.  Where it
has, the next reading adds all that was moved since the last one, whatever has become of the
allowance in between.  `Starts` is what keeps earlier bytes out of a total: what the meter holds of
a counter covers all that it moved before the count began.  `CountsSince` says the same of the state:
no allowance counts from before the start of its count.
-/

namespace Ket.Server

open Ket.Core Ket.Lib List

/-! ### Counters and times -/

namespace EngineCounter

variable {c : EngineCounter} {t : ℕ}

lemma before_le_count (c : EngineCounter) (t : ℕ) : c.before t ≤ c.count := by
  unfold before count
  exact (List.filter_sublist.map _).sum_le_sum fun _ _ => Nat.zero_le _

lemma before_eq_zero (h : ∀ m ∈ c.moves, t ≤ m.1) : c.before t = 0 := by
  have hnone : c.moves.filter (fun m => decide (m.1 < t)) = [] :=
    filter_eq_nil_iff.mpr fun m hm => by simpa using h m hm
  simp [before, hnone]

/-- The counter after a move. -/
def moved (c : EngineCounter) (time bytes : ℕ) : EngineCounter :=
  { c with moves := c.moves ++ [(time, bytes)] }

@[simp] lemma count_moved (c : EngineCounter) (time bytes : ℕ) :
    (c.moved time bytes).count = c.count + bytes := by
  simp [moved, count]

lemma before_moved {time : ℕ} (h : t ≤ time) (bytes : ℕ) :
    (c.moved time bytes).before t = c.before t := by
  have hnot : ¬ time < t := not_lt.mpr h
  simp [moved, before, filter_append, hnot]

/-- The reading `last` of the counter covers what it moved before `t`: all of that is among the
bytes that `last` has shown, or the counter has started again since. -/
def Starts (c : EngineCounter) (t : ℕ) (last : Option (ℕ × ℕ)) : Prop :=
  ∀ l ∈ last, if l.1 = c.since ∧ l.2 ≤ c.count then c.before t ≤ l.2 else c.before t = 0

lemma starts_of_before_eq_zero (h : c.before t = 0) (last : Option (ℕ × ℕ)) : c.Starts t last := by
  intro l _
  split
  · rw [h]
    exact Nat.zero_le _
  · exact h

lemma starts_none (c : EngineCounter) (t : ℕ) : c.Starts t none := nofun

lemma starts_self (c : EngineCounter) (t : ℕ) : c.Starts t (some (c.since, c.count)) := by
  rintro l ⟨⟩
  rw [if_pos ⟨rfl, Nat.le_refl _⟩]
  exact c.before_le_count t

lemma Starts.moved {last : Option (ℕ × ℕ)} {time : ℕ} (h : c.Starts t last) (ht : t ≤ time)
    (bytes : ℕ) : (c.moved time bytes).Starts t last := by
  intro l hl
  have hc := h l hl
  rw [before_moved ht]
  by_cases hsame : l.1 = c.since ∧ l.2 ≤ c.count
  · rw [if_pos hsame] at hc
    rwa [if_pos ⟨hsame.1, by rw [count_moved]; omega⟩]
  · rw [if_neg hsame] at hc
    rw [hc]
    split <;> omega

end EngineCounter

/-- What one reading adds for its session: the last `bytes` bytes of the counter. -/
structure Added where
  sessionId : String
  bytes : ℕ
  counter : EngineCounter

/-- How many of the bytes were moved before `t`.  Counters list their moves in the order of time, so
these are the bytes between those that are not added and those that were moved later. -/
def Added.before (a : Added) (t : ℕ) : ℕ := a.counter.before t + a.bytes - a.counter.count

namespace UsageMeter

/-- What the loop over the readings adds, reading by reading. -/
def addedBy (sessions : List MeteredSession) :
    UsageMeter → List (MeterKey × EngineCounter) → List Added
  | _, [] => []
  | m, (k, c) :: rest =>
    match sessionsById sessions k.2 with
    | none => addedBy sessions m rest
    | some session =>
      ⟨k.2, m.delta session (c.reading k), c⟩ :: addedBy sessions (m.keep (c.reading k)) rest

/-- What the engines answer. -/
def answers (seen : List (MeterKey × EngineCounter)) : List UsageReading :=
  seen.map fun p => p.2.reading p.1

/-- What is added for a session, over the readings. -/
def addedFor (id : String) (added : List Added) : ℕ :=
  ((added.filter fun a => a.sessionId == id).map Added.bytes).sum

lemma addedFor_addedBy (sessions : List MeteredSession) (id : String)
    (seen : List (MeterKey × EngineCounter)) (m : UsageMeter) :
    addedFor id (addedBy sessions m seen)
      = loopDelta (fun r => r.sessionId == id) sessions m (answers seen) := by
  induction seen generalizing m with
  | nil => rfl
  | cons p seen ih =>
    obtain ⟨k, c⟩ := p
    have hanswers : answers ((k, c) :: seen) = c.reading k :: answers seen := rfl
    have hid : (c.reading k).sessionId = k.2 := rfl
    rw [hanswers, loopDelta, hid, addedBy]
    cases sessionsById sessions k.2 with
    | none => exact ih m
    | some session =>
      have ih := ih (m.keep (c.reading k))
      unfold addedFor at ih ⊢
      by_cases heq : k.2 = id
      · simp only [heq, beq_self_eq_true, filter_cons_of_pos, map_cons,
          sum_cons, if_true] at ih ⊢
        rw [ih]
      · have hne : (k.2 == id) = false := by simpa using heq
        simp only [hne, Bool.false_eq_true, not_false_eq_true, filter_cons_of_neg,
          if_false, Nat.zero_add]
        exact ih

/-- What is taken for a session is what its readings add. -/
lemma take_added (m : UsageMeter) (sessions : List MeteredSession)
    (seen : List (MeterKey × EngineCounter)) (id : String) :
    ((m.take sessions (answers seen)).2 id).getD 0
      = min (addedFor id (addedBy sessions (m.retain sessions) seen)) u64Max := by
  rw [take_moved, addedFor_addedBy]

/-- Each reading adds what the meter makes of it as it was before the loop, since no counter is read
twice. -/
lemma mem_addedBy {sessions : List MeteredSession} {seen : List (MeterKey × EngineCounter)}
    {m : UsageMeter} (hkeys : (seen.map Prod.fst).Nodup) {a : Added}
    (ha : a ∈ addedBy sessions m seen) :
    ∃ p ∈ seen, ∃ session, sessionsById sessions p.1.2 = some session ∧
      a = ⟨p.1.2, m.delta session (p.2.reading p.1), p.2⟩ := by
  induction seen generalizing m with
  | nil => cases ha
  | cons p seen ih =>
    obtain ⟨k, c⟩ := p
    obtain ⟨hk, hkeys⟩ := nodup_cons.mp hkeys
    unfold addedBy at ha
    cases hsession : sessionsById sessions k.2 with
    | none =>
      rw [hsession] at ha
      obtain ⟨p, hp, h⟩ := ih hkeys ha
      exact ⟨p, mem_cons_of_mem _ hp, h⟩
    | some session =>
      rw [hsession] at ha
      rcases mem_cons.mp ha with rfl | ha
      · exact ⟨(k, c), mem_cons_self, session, hsession, rfl⟩
      · obtain ⟨p, hp, session', hsession', rfl⟩ := ih hkeys ha
        refine ⟨p, mem_cons_of_mem _ hp, session', hsession', ?_⟩
        have hne : (c.reading k).key ≠ (p.2.reading p.1).key := by
          intro heq
          have heq : k = p.1 := heq
          have hmem : p.1 ∈ seen.map Prod.fst := mem_map_of_mem hp
          rw [← heq] at hmem
          exact hk hmem
        simp only [delta, keep_last_of_ne m hne]
        rfl

section Delta

variable {m : UsageMeter} {session : MeteredSession} {c : EngineCounter} {k : MeterKey} {t : ℕ}

lemma delta_of_none (h : m.last k = none) :
    m.delta session (c.reading k) = if m.countsInFull session c.since then c.count else 0 := by
  have hlast : m.last (c.reading k).key = none := h
  unfold delta
  rw [hlast]
  rfl

lemma delta_of_some {since bytes : ℕ} (h : m.last k = some (since, bytes)) :
    m.delta session (c.reading k)
      = if since = c.since ∧ bytes ≤ c.count then c.count - bytes else c.count := by
  have hlast : m.last (c.reading k).key = some (since, bytes) := h
  unfold delta
  rw [hlast]
  rfl

/-- What the last reading of a counter covers is not added again, and a counter that is read for the
first time is added only when it began after the count. -/
lemma before_added_eq_zero (hstarts : c.Starts t (m.last k)) (ht : t ≤ session.countedSince)
    (hmoves : ∀ x ∈ c.moves, max session.issuedAt c.since ≤ x.1) :
    (⟨k.2, m.delta session (c.reading k), c⟩ : Added).before t = 0 := by
  have hle := c.before_le_count t
  change c.before t + m.delta session (c.reading k) - c.count = 0
  cases hlast : m.last k with
  | none =>
    rw [delta_of_none hlast]
    by_cases hfull : m.countsInFull session c.since = true
    · have hzero : c.before t = 0 := by
        refine EngineCounter.before_eq_zero fun x hx => ?_
        have hfull := of_decide_eq_true hfull
        have hx := hmoves x hx
        omega
      rw [if_pos hfull]
      omega
    · rw [if_neg hfull]
      omega
  | some l =>
    obtain ⟨since, bytes⟩ := l
    have hl := hstarts (since, bytes) hlast
    rw [delta_of_some hlast]
    by_cases hsame : since = c.since ∧ bytes ≤ c.count
    · rw [if_pos hsame] at hl ⊢
      simp only at hl
      omega
    · rw [if_neg hsame] at hl ⊢
      omega

end Delta

end UsageMeter

/-! ### The start of a count -/

section Grants

variable {C : Crypto} {cfg : Config} {s next : PersistedState}

/-- The time at which a mutation sets or changes an invite. -/
def Mutation.grantsAt : Mutation → Option ℕ
  | .createGrant _ now _ _ => some now
  | .updateGrant _ _ now => some now
  | _ => none

/-- What is counted of an invite in the state is counted from `starts` on, or later. -/
def CountsSince (starts : String → ℕ) (s : PersistedState) : Prop :=
  ∀ g ∈ s.grants, g.allowance.isSome = true → starts g.id ≤ g.allowanceSince.getD 0

variable {now : ℕ} {changes : UpdateAccessGrantRequest} {g : AccessGrantRecord} {m : Mutation}
  {starts : String → ℕ} {id : String}

lemma since_of_newGrant {request : CreateAccessGrantRequest} {code secretHash : String}
    {record : AccessGrantRecord} (h : newGrant cfg request now code secretHash = .ok record) :
    record.allowanceSince = record.allowance.map fun _ => now := by
  unfold newGrant at h
  obtain ⟨label, -, h⟩ := bind_eq_ok.mp h
  obtain ⟨_, -, h⟩ := bind_eq_ok.mp h
  obtain ⟨-, h⟩ := require_bind_eq_ok.mp h
  obtain ⟨_, -, h⟩ := bind_eq_ok.mp h
  obtain ⟨_, -, h⟩ := bind_eq_ok.mp h
  split at h
  · cases h
  · cases h
    rfl

/-- A change of an invite that has an allowance after it starts the count, or leaves it and the
period as they were. -/
lemma GrantAdmin.since_changeGrant (ha : (changeGrant g changes now).allowance.isSome = true) :
    (changeGrant g changes now).allowanceSince = some now ∨
      (changeGrant g changes now).allowanceSince = g.allowanceSince ∧
        (changeGrant g changes now).allowance.map DataAllowance.period
          = g.allowance.map DataAllowance.period := by
  unfold changeGrant at ha ⊢
  cases hallowance : changes.allowance with
  | none => exact .inr ⟨by simp, by simp⟩
  | some new =>
    by_cases hperiod : new.map DataAllowance.period = g.allowance.map DataAllowance.period
    · exact .inr ⟨by simp [hperiod], by simpa using hperiod⟩
    · have hnew : new.isSome = true := by simpa [hallowance] using ha
      obtain ⟨a, rfl⟩ := Option.isSome_iff_exists.mp hnew
      have hperiod : ¬ some a.period = g.allowance.map DataAllowance.period := hperiod
      exact .inl (by simp [hperiod])

/-- An allowance that is counted in a computed state was counted before, or its count starts. -/
lemma since_of_computes (h : Computes C cfg s m next) {g' : AccessGrantRecord}
    (hg' : g' ∈ next.grants) (ha : g'.allowance.isSome = true) :
    (∃ g ∈ s.grants, g.id = g'.id ∧ g.allowance.isSome = true ∧
      g.allowanceSince = g'.allowanceSince) ∨ ∃ now ∈ m.grantsAt, g'.allowanceSince = some now := by
  cases h with
  | createGrant h =>
    obtain ⟨record, hrecord, h⟩ := bind_eq_ok.mp h
    obtain ⟨next', hinsert, h⟩ := bind_eq_ok.mp h
    cases h
    obtain ⟨-, h⟩ := require_bind_eq_ok.mp hinsert
    cases h
    rcases mem_append.mp hg' with hg' | hg'
    · exact .inl ⟨g', hg', rfl, ha, rfl⟩
    · rw [mem_singleton.mp hg'] at ha ⊢
      obtain ⟨a, ha⟩ := Option.isSome_iff_exists.mp ha
      exact .inr ⟨_, rfl, by rw [since_of_newGrant hrecord, ha]; rfl⟩
  | updateGrant h =>
    obtain ⟨changes', happly⟩ := updateGrant_spec h
    obtain ⟨grant, hfind, rfl, -⟩ := GrantAdmin.apply_spec happly
    rcases GrantAdmin.mem_replaceGrant hg' with rfl | ⟨hg', -⟩
    · rcases GrantAdmin.since_changeGrant ha with hnow | ⟨hsince, hperiod⟩
      · exact .inr ⟨_, rfl, hnow⟩
      · refine .inl ⟨grant, mem_of_find?_eq_some hfind, rfl, ?_, hsince.symm⟩
        have hisSome := congrArg Option.isSome hperiod
        rwa [Option.isSome_map, Option.isSome_map, ha, eq_comm] at hisSome
    · exact .inl ⟨g', hg', rfl, ha, rfl⟩
  | revokeGrant h =>
    obtain ⟨-, rfl⟩ := revokeGrant_spec h
    exact .inl ⟨g', mem_of_mem_filter hg', rfl, ha, rfl⟩
  | admitSession h =>
    obtain ⟨_, _, _, _, -, -, -, -, -, -, -, -, -, -, rfl⟩ := admitSession_spec h
    exact .inl ⟨g', hg', rfl, ha, rfl⟩
  | renewSession h =>
    obtain ⟨_, _, _, -, -, rfl⟩ := renewSession_spec h
    exact .inl ⟨g', hg', rfl, ha, rfl⟩
  | endSession h =>
    obtain ⟨-, -, rfl⟩ := endSession_spec h
    exact .inl ⟨g', hg', rfl, ha, rfl⟩
  | expireSessions h =>
    obtain ⟨-, ⟨h, -⟩ | h⟩ := expireSessions_spec h
    · cases h
    · cases h
      exact .inl ⟨g', mem_of_mem_filter hg', rfl, ha, rfl⟩
  | recordUsage h =>
    obtain ⟨-, hnext⟩ := recordUsage_spec h
    rw [hnext, chargeGrants_eq_add] at hg'
    obtain ⟨g, hg, rfl⟩ := mem_map.mp hg'
    refine .inl ⟨g, hg, by simp, by simpa using ha, ?_⟩
    obtain ⟨usage, heq, -⟩ := g.add_eq _ _
    rw [heq]

lemma CountsSince.of_computes (hs : CountsSince starts s) (h : Computes C cfg s m next)
    (hnow : ∀ now ∈ m.grantsAt, ∀ id, starts id ≤ now) : CountsSince starts next := by
  intro g' hg' ha
  rcases since_of_computes h hg' ha with ⟨g, hg, hid, hga, hsince⟩ | ⟨now, hm, hsince⟩
  · rw [← hid, ← hsince]
    exact hs g hg hga
  · rw [hsince]
    exact hnow now hm _

/-- A change sets an allowance on an invite that had none, or changes its period. -/
def restartsCount (before after : Option AccessGrantRecord) : Bool :=
  before.any fun g => after.any fun g' =>
    g'.allowance.isSome && decide (g'.allowance.map DataAllowance.period
      ≠ g.allowance.map DataAllowance.period)

@[simp] lemma restartsCount_self (g : Option AccessGrantRecord) : restartsCount g g = false := by
  cases g <;> simp [restartsCount]

/-- Such a change starts the count. -/
lemma since_of_restartsCount {summary : AccessGrantSummary} {ended : List SessionAllocation}
    (hs : StateInv C cfg s) (h : updateGrant cfg s id changes now = .ok (next, summary, ended))
    (hrestarts : restartsCount (s.findGrant id) (next.findGrant id) = true) :
    ∃ g', next.findGrant id = some g' ∧ g'.allowanceSince = some now := by
  obtain ⟨changes', happly⟩ := updateGrant_spec h
  obtain ⟨grant, hfind, rfl, -⟩ := GrantAdmin.apply_spec happly
  rw [hfind, restartsCount, Option.any_some] at hrestarts
  obtain ⟨g', hfind', hg'⟩ := (Option.any_eq_true _ _).mp hrestarts
  obtain ⟨ha, hperiod⟩ := Bool.and_eq_true_iff.mp hg'
  have hperiod := of_decide_eq_true hperiod
  refine ⟨g', hfind', ?_⟩
  have hid : g'.id = id := by simpa using find?_some hfind'
  rcases GrantAdmin.mem_replaceGrant (mem_of_find?_eq_some hfind') with rfl | ⟨-, hne⟩
  · exact (GrantAdmin.since_changeGrant ha).resolve_right fun h => hperiod h.2
  · exact absurd hid (hne hs.valid.grantIds)

/-- The start of the count of one invite is put forward. -/
lemma CountsSince.update (hs : CountsSince starts s) (hinv : StateInv C cfg s)
    (hfind : s.findGrant id = some g) (hsince : g.allowanceSince = some now) :
    CountsSince (Function.update starts id now) s := by
  intro g' hg' ha
  by_cases hid : g'.id = id
  · have hgid : g.id = id := by simpa using find?_some hfind
    have heq : g' = g := inj_on_of_nodup_map hinv.valid.grantIds hg'
      (mem_of_find?_eq_some hfind) (hid.trans hgid.symm)
    rw [hid, Function.update_self, heq, hsince]
    exact Nat.le_refl _
  · rw [Function.update_of_ne hid]
    exact hs g' hg' ha

end Grants

end Ket.Server
