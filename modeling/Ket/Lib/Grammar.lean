import Ket.Lib.Parser

/-!
# Parsers and grammars

A grammar relates values to their byte strings.  `Accepts p G` says that `p` accepts exactly the byte
strings of `G`: it takes one of them from the front of its input, and leaves what stands behind it.
Grammars compose as parsers do (`Accepts.bind`), and no byte string of the grammar of a parser is the
start of another one (`Accepts.refuses`).
-/

namespace Ket.Lib.Parser

variable {ε α β : Type} {p : Parser ε α} {G : α → List UInt8 → Prop}

def Accepts (p : Parser ε α) (G : α → List UInt8 → Prop) : Prop :=
  ∀ input a rest, p.run input = .ok (a, rest) ↔ ∃ bytes, G a bytes ∧ input = bytes ++ rest

namespace Accepts

protected lemma pure (a : α) :
    Accepts (Pure.pure a : Parser ε α) fun b bytes => b = a ∧ bytes = [] := by
  intro input b rest
  rw [run_pure_eq_ok]
  constructor
  · rintro ⟨rfl, rfl⟩
    exact ⟨[], ⟨rfl, rfl⟩, rfl⟩
  · rintro ⟨_, ⟨rfl, rfl⟩, rfl⟩
    exact ⟨rfl, rfl⟩

protected lemma lift (x : Except ε α) :
    Accepts (Parser.lift x) fun a bytes => x = .ok a ∧ bytes = [] := by
  intro input a rest
  rw [run_lift_eq_ok]
  constructor
  · rintro ⟨hx, rfl⟩
    exact ⟨[], ⟨hx, rfl⟩, rfl⟩
  · rintro ⟨_, ⟨hx, rfl⟩, rfl⟩
    exact ⟨hx, rfl⟩

/-- One after the other. -/
protected lemma bind {f : α → Parser ε β} {H : α → β → List UInt8 → Prop} (hp : Accepts p G)
    (hf : ∀ a, Accepts (f a) (H a)) : Accepts (p >>= f) fun b bytes =>
      ∃ a front back, G a front ∧ H a b back ∧ bytes = front ++ back := by
  intro input b rest
  rw [run_bind_eq_ok]
  constructor
  · rintro ⟨a, mid, hrun, hnext⟩
    obtain ⟨front, hfront, rfl⟩ := (hp _ _ _).mp hrun
    obtain ⟨back, hback, rfl⟩ := (hf a _ _ _).mp hnext
    exact ⟨front ++ back, ⟨a, front, back, hfront, hback, rfl⟩, (List.append_assoc _ _ _).symm⟩
  · rintro ⟨_, ⟨a, front, back, hfront, hback, rfl⟩, rfl⟩
    exact ⟨a, back ++ rest, (hp _ _ _).mpr ⟨front, hfront, List.append_assoc _ _ _⟩,
      (hf a _ _ _).mpr ⟨back, hback, rfl⟩⟩

/-- The same grammar in other words. -/
protected lemma congr {H : α → List UInt8 → Prop} (hp : Accepts p G)
    (h : ∀ a bytes, G a bytes ↔ H a bytes) : Accepts p H := by
  intro input a rest
  rw [hp]
  exact exists_congr fun bytes => and_congr_left fun _ => h a bytes

/-- What stands behind is left. -/
lemma run_append (hp : Accepts p G) {a : α} {bytes : List UInt8} (h : G a bytes)
    (rest : List UInt8) : p.run (bytes ++ rest) = .ok (a, rest) :=
  (hp _ _ _).mpr ⟨bytes, h, rfl⟩

/-- **A part is refused.**  Nothing is accepted that goes on to a byte string of the grammar. -/
theorem refuses (hp : Accepts p G) {a : α} {bytes start : List UInt8} (h : G a bytes)
    (hstart : start <+: bytes) (hne : start ≠ bytes) : ∃ e, p.run start = .error e := by
  cases hrun : p.run start with
  | error e => exact ⟨e, rfl⟩
  | ok result =>
    obtain ⟨b, left⟩ := result
    obtain ⟨front, hfront, rfl⟩ := (hp _ _ _).mp hrun
    obtain ⟨more, rfl⟩ := hstart
    -- the same front part is taken, and something is left
    have hwhole := hp.run_append h []
    rw [List.append_nil, List.append_assoc, hp.run_append hfront] at hwhole
    have hleft : left ++ more = [] := congrArg Prod.snd (Except.ok.inj hwhole)
    rw [(List.append_eq_nil_iff.mp hleft).2, List.append_nil] at hne
    exact absurd rfl hne

end Accepts

end Ket.Lib.Parser
