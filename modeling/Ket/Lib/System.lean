import Mathlib.Tactic

/-!
# Transition systems

A system is a start state and a partial step function on events.  `Reachable cond` are the
states of the runs whose steps all meet `cond`; what the start state has and each such step
preserves holds in all of them (`Reachable.invariant`).  A run that is given as a list of
events can be evaluated (`runWith`), which shows that its last state is reachable.  A property of
the past of a run is one of its states when they carry a history (`withHistory`).
-/

namespace Ket.Lib

structure System (σ ε : Type) where
  start : σ
  step : σ → ε → Option σ

namespace System

variable {σ ε : Type} {M : System σ ε} {cond cond' : σ → ε → Prop}

/-- The states of the runs whose steps all meet `cond`. -/
inductive Reachable (M : System σ ε) (cond : σ → ε → Prop) : σ → Prop where
  | start : Reachable M cond M.start
  | step {s s' : σ} {e : ε} (hs : Reachable M cond s) (hc : cond s e)
      (he : M.step s e = some s') : Reachable M cond s'

/-- What holds at the start and is preserved by every step from a reachable state. -/
theorem Reachable.invariant {I : σ → Prop} (hstart : I M.start)
    (hstep : ∀ s e s', M.Reachable cond s → I s → cond s e → M.step s e = some s' → I s')
    {s : σ} (h : M.Reachable cond s) : I s := by
  induction h with
  | start => exact hstart
  | step hs hc he ih => exact hstep _ _ _ hs ih hc he

/-- Runs under a stronger condition are runs under a weaker one. -/
theorem Reachable.mono (hcond : ∀ s e, cond s e → cond' s e) {s : σ} (h : M.Reachable cond s) :
    M.Reachable cond' s := by
  induction h with
  | start => exact .start
  | step hs hc he ih => exact .step ih (hcond _ _ hc) he

/-- Evaluates a run, checking `cond` at each step. -/
def runWith (M : System σ ε) (cond : σ → ε → Prop) [∀ s e, Decidable (cond s e)] :
    σ → List ε → Option σ
  | s, [] => some s
  | s, e :: es => if cond s e then (M.step s e).bind fun s' => M.runWith cond s' es else none

/-- The last state of a run that can be evaluated is reachable. -/
theorem reachable_of_runWith [∀ s e, Decidable (cond s e)] {es : List ε} {s s' : σ}
    (hs : M.Reachable cond s) (h : M.runWith cond s es = some s') : M.Reachable cond s' := by
  induction es generalizing s with
  | nil =>
    cases h
    exact hs
  | cons e es ih =>
    by_cases hc : cond s e
    · rw [runWith, if_pos hc] at h
      obtain ⟨s₁, hstep, hrun⟩ := Option.bind_eq_some_iff.mp h
      exact ih (.step hs hc hstep) hrun
    · rw [runWith, if_neg hc] at h
      cases h

/-- A run that can be evaluated, and whose last state passes a test, reaches such a state. -/
theorem exists_reachable_of_run (M : System σ ε) (cond : σ → ε → Prop)
    [∀ s e, Decidable (cond s e)] (P : σ → Prop) [DecidablePred P] (es : List ε)
    (h : (M.runWith cond M.start es).any (fun s => decide (P s)) = true) :
    ∃ s, M.Reachable cond s ∧ P s := by
  obtain ⟨s, hrun, hs⟩ := (Option.any_eq_true _ _).mp h
  exact ⟨s, reachable_of_runWith .start hrun, of_decide_eq_true hs⟩

/-- The same for a run of which the last part meets another condition. -/
theorem exists_reachable_of_runs (M : System σ ε) (cond cond' : σ → ε → Prop)
    [∀ s e, Decidable (cond s e)] [∀ s e, Decidable (cond' s e)] (P : σ → σ → Prop)
    [∀ s s', Decidable (P s s')] (es es' : List ε) (h : (M.runWith cond M.start es).any (fun s =>
      (M.runWith cond' s es').any fun s' => decide (P s s')) = true) :
    ∃ s s', M.Reachable cond s ∧ M.runWith cond' s es' = some s' ∧ P s s' := by
  obtain ⟨s, hrun, hs⟩ := (Option.any_eq_true _ _).mp h
  obtain ⟨s', hrun', hs'⟩ := (Option.any_eq_true _ _).mp hs
  exact ⟨s, s', reachable_of_runWith .start hrun, hrun', of_decide_eq_true hs'⟩

/-- Evaluates a run whose events are chosen in the states that it comes to; `none` is no event. -/
def drive (M : System σ ε) (cond : σ → ε → Prop) [∀ s e, Decidable (cond s e)] :
    σ → List (σ → Option ε) → Option σ
  | s, [] => some s
  | s, choose :: rest =>
    match choose s with
    | none => M.drive cond s rest
    | some e => if cond s e then (M.step s e).bind fun s' => M.drive cond s' rest else none

theorem reachable_of_drive [∀ s e, Decidable (cond s e)] {choices : List (σ → Option ε)} {s s' : σ}
    (hs : M.Reachable cond s) (h : M.drive cond s choices = some s') : M.Reachable cond s' := by
  induction choices generalizing s with
  | nil =>
    cases h
    exact hs
  | cons choose rest ih =>
    rw [drive] at h
    split at h
    · exact ih hs h
    · split at h
      · rename_i e _ hc
        obtain ⟨s₁, hstep, hrun⟩ := Option.bind_eq_some_iff.mp h
        exact ih (.step hs hc hstep) hrun
      · cases h

/-- A run whose events are chosen, and whose last state passes a test, reaches such a state. -/
theorem exists_reachable_of_drive (M : System σ ε) (cond : σ → ε → Prop)
    [∀ s e, Decidable (cond s e)] (P : σ → Prop) [DecidablePred P] (choices : List (σ → Option ε))
    (h : (M.drive cond M.start choices).any (fun s => decide (P s)) = true) :
    ∃ s, M.Reachable cond s ∧ P s := by
  obtain ⟨s, hrun, hs⟩ := (Option.any_eq_true _ _).mp h
  exact ⟨s, reachable_of_drive .start hrun, of_decide_eq_true hs⟩

/-! ### History -/

/-- The system with a history: a value that the steps change, and that does not change them. -/
def withHistory {η : Type} (M : System σ ε) (h : η) (f : η → σ → ε → η) : System (σ × η) ε where
  start := (M.start, h)
  step s e := (M.step s.1 e).map fun s' => (s', f s.2 s.1 e)

lemma withHistory_step {η : Type} {h : η} {f : η → σ → ε → η} {s s' : σ × η} {e : ε} :
    (M.withHistory h f).step s e = some s' ↔ M.step s.1 e = some s'.1 ∧ s'.2 = f s.2 s.1 e := by
  obtain ⟨s₁, h'⟩ := s'
  simp only [withHistory, Option.map_eq_some_iff, Prod.mk.injEq]
  constructor
  · rintro ⟨_, hstep, rfl, rfl⟩
    exact ⟨hstep, rfl⟩
  · rintro ⟨hstep, rfl⟩
    exact ⟨_, hstep, rfl, rfl⟩

end System

end Ket.Lib
