import Mathlib.Tactic

/-!
# Checks that stop a computation

`require b e` stops with the error `e` unless `b` holds.  The lemmas turn an accepted chain of
checks into the facts that were checked, one `bind` at a time.
-/

namespace Ket.Lib

variable {ε α β : Type}

/-- Stops with `e` unless `b` holds. -/
def require (b : Bool) (e : ε) : Except ε Unit := if b then .ok () else .error e

@[simp] lemma require_true (e : ε) : require true e = .ok () := rfl

@[simp] lemma require_false (e : ε) : require false e = .error e := rfl

@[simp] lemma require_eq_ok {b : Bool} {e : ε} {u : Unit} : require b e = .ok u ↔ b = true := by
  cases b <;> simp [require]

/-- `Option::ok_or`. -/
def okOr (x : Option α) (e : ε) : Except ε α := x.elim (.error e) .ok

@[simp] lemma okOr_some (a : α) (e : ε) : okOr (some a) e = .ok a := rfl

@[simp] lemma okOr_none (e : ε) : okOr (none : Option α) e = .error e := rfl

lemma okOr_eq_ok {x : Option α} {e : ε} {a : α} : okOr x e = .ok a ↔ x = some a := by
  cases x <;> simp [okOr]

/-- A chain of two computations succeeds when both do. -/
lemma bind_eq_ok {x : Except ε α} {f : α → Except ε β} {b : β} :
    (x >>= f) = .ok b ↔ ∃ a, x = .ok a ∧ f a = .ok b := by
  constructor
  · intro h
    cases x with
    | error e => cases h
    | ok a => exact ⟨a, rfl, h⟩
  · rintro ⟨a, rfl, h⟩
    exact h

/-- What a computation over a list returns was computed from its members. -/
lemma mem_of_mapM_eq_ok {f : α → Except ε β} {as : List α} {bs : List β} (h : as.mapM f = .ok bs) :
    ∀ b ∈ bs, ∃ a ∈ as, f a = .ok b := by
  induction as generalizing bs with
  | nil =>
    cases h
    simp
  | cons a as ih =>
    rw [List.mapM_cons] at h
    obtain ⟨b, hb, h⟩ := bind_eq_ok.mp h
    obtain ⟨rest, hrest, h⟩ := bind_eq_ok.mp h
    cases h
    intro c hc
    rcases List.mem_cons.mp hc with rfl | hc
    · exact ⟨a, List.mem_cons_self, hb⟩
    · obtain ⟨a', ha', hc'⟩ := ih hrest c hc
      exact ⟨a', List.mem_cons_of_mem _ ha', hc'⟩

/-- A check in front of a computation that succeeds has passed. -/
lemma require_bind_eq_ok {b : Bool} {e : ε} {f : Unit → Except ε β} {r : β} :
    (require b e >>= f) = .ok r ↔ b = true ∧ f () = .ok r := by
  constructor
  · intro h
    obtain ⟨_, hb, hf⟩ := bind_eq_ok.mp h
    exact ⟨require_eq_ok.mp hb, hf⟩
  · rintro ⟨rfl, h⟩
    exact h

/-! ### Computations with one error -/

/-- The computation fails with no other error. -/
def OnlyFails (e : ε) (x : Except ε α) : Prop := ∀ e', x = .error e' → e' = e

namespace OnlyFails

lemma ok (e : ε) (a : α) : OnlyFails e (.ok a) := nofun

lemma error (e : ε) : OnlyFails e (.error e : Except ε α) := by
  intro e' h
  cases h
  rfl

lemma bind {e : ε} {x : Except ε α} {f : α → Except ε β} (hx : OnlyFails e x)
    (hf : ∀ a, OnlyFails e (f a)) : OnlyFails e (x >>= f) := by
  intro e' h
  cases x with
  | error e'' =>
    cases h
    exact hx _ rfl
  | ok a => exact hf a e' h

lemma require (b : Bool) (e : ε) : OnlyFails e (require b e) := by
  cases b with
  | true => exact ok e ()
  | false => exact error e

lemma okOr (x : Option α) (e : ε) : OnlyFails e (okOr x e) := by
  cases x with
  | none => exact error e
  | some a => exact ok e a

end OnlyFails

/-- What is computed under a condition. -/
lemma of_guard {α : Type*} {p : Prop} [Decidable p] {a b : α}
    (h : (if p then some a else none) = some b) : p ∧ a = b := by
  obtain ⟨hp, heq⟩ := Option.ite_none_right_eq_some.mp h
  exact ⟨hp, Option.some.inj heq⟩

end Ket.Lib
