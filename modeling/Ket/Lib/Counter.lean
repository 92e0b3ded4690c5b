import Mathlib.Algebra.BigOperators.Group.List.Basic
import Mathlib.Tactic

/-!
# Running counters and their readers

A counter counts up from zero and may start again from zero at any time; with every start it
names a time, which may or may not differ from the one before.  A reader looks at the counter
now and then and reports what it has gained since its last look: the difference when the
counter looks like the one it saw, everything it holds otherwise.

The reader cannot see a restart that happened between two looks when the counter has already
outgrown its old value, so it may report too little.  It never reports too much: what it has
reported, together with what it would report now (`unreported`), is bounded by what it had not
reported at the start and by what the counter really moved (`reported_add_unreported_le`).
-/

namespace Ket.Lib

/-- A counter: the start it names and what it has counted since. -/
structure Counter where
  since : ℕ
  count : ℕ
deriving DecidableEq, Repr

/-- What happens to a counter: it counts `n` more, or it starts again from zero. -/
inductive CounterEvent where
  | move (n : ℕ)
  | restart (since : ℕ)
deriving DecidableEq, Repr

namespace CounterEvent

/-- What one event really moved. -/
def moved : CounterEvent → ℕ
  | move n => n
  | restart _ => 0

/-- The event starts a new incarnation of the counter. -/
def isRestart : CounterEvent → Bool
  | move _ => false
  | restart _ => true

end CounterEvent

namespace Counter

/-- The counter after one event. -/
def after (c : Counter) : CounterEvent → Counter
  | .move n => { c with count := c.count + n }
  | .restart since => ⟨since, 0⟩

/-- The counter after a list of events. -/
def run (c : Counter) (evs : List CounterEvent) : Counter := evs.foldl after c

/-- What a list of events really moved, over all incarnations. -/
def moved (evs : List CounterEvent) : ℕ := (evs.map CounterEvent.moved).sum

@[simp] lemma run_nil (c : Counter) : c.run [] = c := rfl

@[simp] lemma run_cons (c : Counter) (e : CounterEvent) (evs : List CounterEvent) :
    c.run (e :: evs) = (c.after e).run evs := rfl

lemma run_append (c : Counter) (evs evs' : List CounterEvent) :
    c.run (evs ++ evs') = (c.run evs).run evs' := List.foldl_append

@[simp] lemma moved_nil : moved [] = 0 := rfl

@[simp] lemma moved_cons (e : CounterEvent) (evs : List CounterEvent) :
    moved (e :: evs) = e.moved + moved evs := by
  simp [moved]

@[simp] lemma moved_append (evs evs' : List CounterEvent) :
    moved (evs ++ evs') = moved evs + moved evs' := by
  simp [moved]

/-- The reading a reader takes of the counter. -/
def reading (c : Counter) : ℕ × ℕ := (c.since, c.count)

/-- What the counter has gained since the reading `l`, as far as a reader can tell: a counter
that names another start, or has gone down, is taken to be a new one. -/
def gain (l : ℕ × ℕ) (c : Counter) : ℕ :=
  if l.1 = c.since ∧ l.2 ≤ c.count then c.count - l.2 else c.count

/-- The most a reader could report if it looked now: its gain since the last reading, or all
of it when it holds none. -/
def unreported (last : Option (ℕ × ℕ)) (c : Counter) : ℕ :=
  match last with
  | some l => c.gain l
  | none => c.count

@[simp] lemma gain_reading (c : Counter) : c.gain c.reading = 0 := by
  simp [gain, reading]

@[simp] lemma unreported_reading (c : Counter) : c.unreported (some c.reading) = 0 :=
  gain_reading c

variable {c : Counter} {l : ℕ × ℕ} {evs : List CounterEvent}

lemma gain_of_same (h : l.1 = c.since ∧ l.2 ≤ c.count) : c.gain l = c.count - l.2 := if_pos h

lemma gain_of_new (h : ¬(l.1 = c.since ∧ l.2 ≤ c.count)) : c.gain l = c.count := if_neg h

lemma gain_le_count (l : ℕ × ℕ) (c : Counter) : c.gain l ≤ c.count := by
  unfold gain
  split <;> omega

lemma unreported_le_count (last : Option (ℕ × ℕ)) (c : Counter) : c.unreported last ≤ c.count := by
  cases last with
  | none => exact le_rfl
  | some l => exact gain_le_count l c

lemma gain_after_move_le (l : ℕ × ℕ) (c : Counter) (n : ℕ) :
    (c.after (.move n)).gain l ≤ c.gain l + n := by
  have hcount : (c.after (.move n)).count = c.count + n := rfl
  by_cases h : l.1 = c.since ∧ l.2 ≤ c.count
  · have h' : l.1 = (c.after (.move n)).since ∧ l.2 ≤ (c.after (.move n)).count :=
      ⟨h.1, by omega⟩
    rw [gain_of_same h, gain_of_same h']
    omega
  · have := gain_le_count l (c.after (.move n))
    rw [gain_of_new h]
    omega

lemma unreported_after_le (last : Option (ℕ × ℕ)) (c : Counter) (e : CounterEvent) :
    (c.after e).unreported last ≤ c.unreported last + e.moved := by
  cases e with
  | move n =>
    cases last with
    | none => exact le_rfl
    | some l => exact gain_after_move_le l c n
  | restart since =>
    have h : (c.after (.restart since)).unreported last ≤ 0 := unreported_le_count last _
    omega

/-- A counter can only gain what it moves. -/
lemma unreported_run_le (last : Option (ℕ × ℕ)) (c : Counter) (evs : List CounterEvent) :
    (c.run evs).unreported last ≤ c.unreported last + moved evs := by
  induction evs generalizing c with
  | nil => simp
  | cons e evs ih =>
    have h₁ := unreported_after_le last c e
    have h₂ := ih (c.after e)
    rw [run_cons, moved_cons]
    omega

lemma run_of_no_restart (c : Counter) (h : ∀ e ∈ evs, e.isRestart = false) :
    c.run evs = ⟨c.since, c.count + moved evs⟩ := by
  induction evs generalizing c with
  | nil => simp
  | cons e evs ih =>
    cases e with
    | move n =>
      rw [run_cons, ih _ fun e he => h e (List.mem_cons_of_mem _ he)]
      simp [after, CounterEvent.moved, Nat.add_assoc]
    | restart since => exact absurd (h _ List.mem_cons_self) (by simp [CounterEvent.isRestart])

/-- Without a restart nothing a counter moves escapes a reader that holds a reading of this
incarnation. -/
lemma unreported_run_of_no_restart (hs : l.1 = c.since) (hl : l.2 ≤ c.count)
    (h : ∀ e ∈ evs, e.isRestart = false) :
    (c.run evs).unreported (some l) = c.unreported (some l) + moved evs := by
  have hrun : (c.run evs).since = c.since ∧ (c.run evs).count = c.count + moved evs := by
    rw [run_of_no_restart c h]
    exact ⟨rfl, rfl⟩
  have hgain : (c.run evs).gain l = (c.run evs).count - l.2 :=
    gain_of_same ⟨by rw [hrun.1, hs], by omega⟩
  have hgain₀ : c.gain l = c.count - l.2 := gain_of_same ⟨hs, hl⟩
  simp only [unreported]
  omega

end Counter

/-! ### Readers -/

/-- One round of a reader: what the counter did since the round before, whether the reader
sees it this time, and whether it counts in full a counter that it sees for the first time. -/
structure Round where
  events : List CounterEvent
  seen : Bool
  inFull : Bool
deriving DecidableEq, Repr

namespace Round

/-- What a reader that holds `last` reports when it sees the counter. -/
def report (last : Option (ℕ × ℕ)) (c : Counter) (inFull : Bool) : ℕ :=
  match last with
  | some l => c.gain l
  | none => if inFull then c.count else 0

/-- What the reader reports in this round. -/
def reported (last : Option (ℕ × ℕ)) (c : Counter) (r : Round) : ℕ :=
  if r.seen then report last (c.run r.events) r.inFull else 0

/-- The reading the reader holds after this round. -/
def lastAfter (last : Option (ℕ × ℕ)) (c : Counter) (r : Round) : Option (ℕ × ℕ) :=
  if r.seen then some (c.run r.events).reading else last

lemma report_le_unreported (last : Option (ℕ × ℕ)) (c : Counter) (inFull : Bool) :
    report last c inFull ≤ c.unreported last := by
  cases last with
  | none =>
    simp only [report, Counter.unreported]
    split <;> omega
  | some l => exact le_rfl

/-- One round reports at most what it takes off the unreported part. -/
lemma reported_add_unreported_le (last : Option (ℕ × ℕ)) (c : Counter) (r : Round) :
    r.reported last c + (c.run r.events).unreported (r.lastAfter last c)
      ≤ c.unreported last + Counter.moved r.events := by
  have hrun := Counter.unreported_run_le last c r.events
  have hrep := report_le_unreported last (c.run r.events) r.inFull
  unfold reported lastAfter
  split
  · rw [Counter.unreported_reading]
    omega
  · omega

end Round

/-- What a reader reports over a list of rounds. -/
def reported (last : Option (ℕ × ℕ)) (c : Counter) : List Round → ℕ
  | [] => 0
  | r :: rs => r.reported last c + reported (r.lastAfter last c) (c.run r.events) rs

/-- The reading a reader holds after a list of rounds. -/
def lastAfter (last : Option (ℕ × ℕ)) (c : Counter) : List Round → Option (ℕ × ℕ)
  | [] => last
  | r :: rs => lastAfter (r.lastAfter last c) (c.run r.events) rs

/-- Everything the counter did over a list of rounds. -/
def events (rs : List Round) : List CounterEvent := rs.flatMap Round.events

@[simp] lemma events_cons (r : Round) (rs : List Round) :
    events (r :: rs) = r.events ++ events rs := rfl

/-- After a round that sees the counter the reader holds its reading. -/
lemma lastAfter_concat (last : Option (ℕ × ℕ)) (c : Counter) (rs : List Round) {r : Round}
    (h : r.seen = true) :
    lastAfter last c (rs ++ [r]) = some (c.run (events (rs ++ [r]))).reading := by
  induction rs generalizing last c with
  | nil => simp [lastAfter, Round.lastAfter, h, events]
  | cons r' rs ih =>
    rw [List.cons_append, lastAfter, ih, events_cons, Counter.run_append]

/-- **Nothing is reported twice.**  What a reader reports over any rounds, and what it could
still report after them, is at most what it had not reported before them and what the counter
moved in them. -/
theorem reported_add_unreported_le (last : Option (ℕ × ℕ)) (c : Counter) (rs : List Round) :
    reported last c rs + (c.run (events rs)).unreported (lastAfter last c rs)
      ≤ c.unreported last + Counter.moved (events rs) := by
  induction rs generalizing last c with
  | nil => simp [reported, lastAfter, events]
  | cons r rs ih =>
    have h₁ := r.reported_add_unreported_le last c
    have h₂ := ih (r.lastAfter last c) (c.run r.events)
    simp only [reported, lastAfter, events_cons, Counter.run_append, Counter.moved_append]
    omega

/-- **Nothing is lost within an incarnation.**  While the counter does not restart, what a
reader that holds a reading of it reports, and what it could still report, is exactly what it
had not reported and what the counter moved. -/
theorem reported_add_unreported_eq {l : ℕ × ℕ} {c : Counter} {rs : List Round}
    (hs : l.1 = c.since) (hl : l.2 ≤ c.count) (h : ∀ e ∈ events rs, e.isRestart = false) :
    reported (some l) c rs + (c.run (events rs)).unreported (lastAfter (some l) c rs)
      = c.unreported (some l) + Counter.moved (events rs) := by
  induction rs generalizing l c with
  | nil => simp [reported, lastAfter, events]
  | cons r rs ih =>
    have hr : ∀ e ∈ r.events, e.isRestart = false := fun e he =>
      h e (List.mem_append_left _ he)
    have hrs : ∀ e ∈ events rs, e.isRestart = false := fun e he =>
      h e (List.mem_append_right _ he)
    have hgain := Counter.unreported_run_of_no_restart hs hl hr
    have hrun := Counter.run_of_no_restart c hr
    simp only [reported, lastAfter, events_cons, Counter.run_append, Counter.moved_append]
    by_cases hseen : r.seen
    · have hlast : r.lastAfter (some l) c = some (c.run r.events).reading := if_pos hseen
      have hrep : r.reported (some l) c = (c.run r.events).unreported (some l) := if_pos hseen
      have hrest := ih (l := (c.run r.events).reading) (c := c.run r.events) rfl (Nat.le_refl _) hrs
      rw [Counter.unreported_reading] at hrest
      rw [hlast, hrep]
      omega
    · have hlast : r.lastAfter (some l) c = some l := if_neg hseen
      have hrep : r.reported (some l) c = 0 := if_neg hseen
      have hrest := ih (l := l) (c := c.run r.events) (by rw [hrun]; exact hs)
        (by rw [hrun]; exact Nat.le_add_right_of_le hl) hrs
      rw [hlast, hrep]
      omega

end Ket.Lib
