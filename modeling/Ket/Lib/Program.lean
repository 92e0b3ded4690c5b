import Ket.Lib.System

/-!
# Programs that give commands

A program gives commands one after the other; each is answered, and the answer decides how the
program goes on.  What the commands do to a state, and what others may do to it between two of
them, is a `Semantics`.  `Meets` is the weakest precondition of a program: it needs no rule but the
one for sequences (`meets_bind`).

A `Machine` runs one program at a time, in a state that others change, too, and may drop it between
two commands.  `Machine.invariant` turns what the programs meet into an invariant of its runs.
-/

namespace Ket.Lib

inductive Program (C : Type) (A : C → Type) (α : Type) where
  | done (a : α)
  | call (c : C) (k : A c → Program C A α)

/-- What commands do, with their answers. -/
structure Semantics (σ C : Type) (A : C → Type) where
  run : σ → (c : C) → A c → σ → Prop
  /-- What others may do between two commands. -/
  others : σ → σ → Prop
  /-- What holds whenever a program is about to give a command. -/
  needs : σ → C → Prop
  refl : ∀ s, others s s
  trans : ∀ {s s' s''}, others s s' → others s' s'' → others s s''

namespace Program

variable {C : Type} {A : C → Type} {α β γ σ τ : Type}

protected def bind : Program C A α → (α → Program C A β) → Program C A β
  | done a, f => f a
  | call c k, f => call c fun x => (k x).bind f

instance : Monad (Program C A) where
  pure := done
  bind := Program.bind

/-- The program that gives a command and returns its answer. -/
def perform (c : C) : Program C A (A c) := call c done

lemma call_bind (c : C) (k : A c → Program C A α) (f : α → Program C A β) :
    call c k >>= f = call c fun x => k x >>= f := rfl

variable {S : Semantics σ C A} {post post' : α → σ → Prop} {s s' : σ}

/-- However the commands are answered and whatever others do, the program gives each command in a
state that has what it needs, and what it returns has the property. -/
def Meets (S : Semantics σ C A) : Program C A α → (α → σ → Prop) → σ → Prop
  | done a, post, s => post a s
  | call c k, post, s => ∀ s', S.others s s' → S.needs s' c ∧
      ∀ x s'', S.run s' c x s'' → (k x).Meets S post s''

lemma meets_call {c : C} {k : A c → Program C A α} : (call c k).Meets S post s ↔
    ∀ s', S.others s s' → S.needs s' c ∧ ∀ x s'', S.run s' c x s'' → (k x).Meets S post s'' :=
  Iff.rfl

variable {p : Program C A α}

/-- A program followed by another. -/
lemma meets_bind {f : α → Program C A β} {post : β → σ → Prop} :
    (p >>= f).Meets S post s ↔ p.Meets S (fun a s' => (f a).Meets S post s') s := by
  induction p generalizing s with
  | done a => exact Iff.rfl
  | call c k ih =>
    rw [call_bind, meets_call, meets_call]
    exact forall₂_congr fun s' _ => and_congr_right fun _ => forall₃_congr fun x s'' _ => ih x

lemma Meets.mono (h : p.Meets S post s)
    (hpost : ∀ a s, post a s → post' a s) : p.Meets S post' s := by
  induction p generalizing s with
  | done a => exact hpost a s h
  | call c k ih =>
    intro s' hs'
    obtain ⟨hneeds, hk⟩ := h s' hs'
    exact ⟨hneeds, fun x s'' hrun => ih x (hk x s'' hrun)⟩

/-- What others do takes nothing from a program that has yet to give a command. -/
lemma Meets.others {c : C} {k : A c → Program C A α} (h : (call c k).Meets S post s)
    (hs : S.others s s') : (call c k).Meets S post s' :=
  fun s'' hs'' => h s'' (S.trans hs hs'')

/-- A property that others do not take away. -/
def Stable (S : Semantics σ C A) (P : σ → Prop) : Prop := ∀ s s', S.others s s' → P s → P s'

/-- Every command that the program gives, however those before it are answered. -/
def Gives (R : C → Prop) : Program C A α → Prop
  | done _ => True
  | call c k => R c ∧ ∀ x, (k x).Gives R

lemma Gives.bind {R : C → Prop} {f : α → Program C A β} (hp : p.Gives R)
    (hf : ∀ a, (f a).Gives R) : (p >>= f).Gives R := by
  induction p with
  | done a => exact hf a
  | call c k ih => exact ⟨hp.1, fun x => ih x (hp.2 x)⟩

/-- What its commands keep, the program keeps. -/
lemma Gives.meets {R : C → Prop} {I : σ → Prop} (hstable : Stable S I)
    (hneeds : ∀ s c, I s → R c → S.needs s c)
    (hrun : ∀ s c x s', I s → R c → S.run s c x s' → I s') (hp : p.Gives R)
    (h : I s) : p.Meets S (fun _ => I) s := by
  induction p generalizing s with
  | done a => exact h
  | call c k ih =>
    intro s' hs'
    have hI := hstable s s' hs' h
    exact ⟨hneeds s' c hI hp.1, fun x s'' hx => ih x (hp.2 x) (hrun s' c x s'' hI hp.1 hx)⟩

/-! ### Programs that may fail -/

section Except

variable {ε : Type} {p : ExceptT ε (Program C A) α} {f : α → ExceptT ε (Program C A) β}

/-- A program that goes on with an error as with a value. -/
def attempt (p : ExceptT ε (Program C A) α) : ExceptT ε (Program C A) (Except ε α) :=
  ExceptT.lift p.run

lemma Gives.bind_except {R : C → Prop} (hp : p.run.Gives R) (hf : ∀ a, (f a).run.Gives R) :
    (p >>= f).run.Gives R := by
  refine Gives.bind hp fun r => ?_
  cases r with
  | ok a => exact hf a
  | error e => exact trivial

lemma Gives.attempt {R : C → Prop} (hp : p.run.Gives R) : (attempt p).run.Gives R :=
  Gives.bind hp fun _ => trivial

/-- What holds of a result: one property if it is a value, another if it is an error. -/
def Outcome (ok : α → σ → Prop) (bad : ε → σ → Prop) : Except ε α → σ → Prop
  | .ok a, s => ok a s
  | .error e, s => bad e s

/-- In every state with the property, the program leads to such values and errors. -/
def Triple (S : Semantics σ C A) (P : σ → Prop) (p : ExceptT ε (Program C A) α)
    (ok : α → σ → Prop) (bad : ε → σ → Prop) : Prop :=
  ∀ s, P s → p.run.Meets S (Outcome ok bad) s

namespace Triple

variable {P P' : σ → Prop} {ok ok' : α → σ → Prop} {bad bad' : ε → σ → Prop}

lemma pure {a : α} (h : ∀ s, P s → ok a s) :
    Triple S P (pure a : ExceptT ε (Program C A) α) ok bad := h

lemma throw {e : ε} (h : ∀ s, P s → bad e s) :
    Triple S P (throw e : ExceptT ε (Program C A) α) ok bad := h

lemma bind {q : β → σ → Prop} (hp : Triple S P p ok bad)
    (hf : ∀ a, Triple S (ok a) (f a) q bad) : Triple S P (p >>= f) q bad := by
  intro s hs
  have hbind : (p >>= f).run = p.run >>= ExceptT.bindCont f := rfl
  rw [hbind, meets_bind]
  refine (hp s hs).mono fun r s' hr => ?_
  cases r with
  | ok a => exact hf a s' hr
  | error e => exact hr

lemma mono (h : Triple S P p ok bad) (hP : ∀ s, P' s → P s)
    (hok : ∀ a s, ok a s → ok' a s) (hbad : ∀ e s, bad e s → bad' e s) :
    Triple S P' p ok' bad' := by
  intro s hs
  refine (h s (hP s hs)).mono fun r s' hr => ?_
  cases r with
  | ok a => exact hok a s' hr
  | error e => exact hbad e s' hr

lemma attempt (h : Triple S P p ok bad) :
    Triple S P (attempt p) (Outcome ok bad) bad' := by
  intro s hs
  have hlift : (Program.attempt p).run = p.run >>= fun r => Pure.pure (.ok r) := rfl
  rw [hlift, meets_bind]
  exact h s hs

/-- A command in states with a property that stays until it is given. -/
lemma command {A : C → Type} {S : Semantics σ C A} {c : C} {k : A c → Program C A (Except ε α)}
    (hstable : Stable S P) (hneeds : ∀ s, P s → S.needs s c)
    (hrun : ∀ s x s', P s → S.run s c x s' → (k x).Meets S (Outcome ok bad) s') :
    Triple S P (ExceptT.mk (call c k)) ok bad := by
  intro s hs s' hs'
  have hP := hstable s s' hs' hs
  exact ⟨hneeds s' hP, fun x s'' hx => hrun s' x s'' hP hx⟩

end Triple

end Except

end Program

/-! ### Machines -/

/-- A machine that runs one operation at a time. -/
structure Machine (σ C : Type) (A : C → Type) (ω ρ ε : Type) where
  start : σ
  program : ω → Program C A ρ
  /-- What a command does with an answer, where that can be its answer. -/
  reply : σ → (c : C) → A c → Option σ
  /-- What others do. -/
  other : σ → ε → Option σ
  /-- What the state keeps of operations that begin, end and are dropped. -/
  begins : σ → ω → Option σ
  ends : σ → ω → ρ → σ
  drops : σ → ω → Option σ

namespace Machine

variable {σ C ω ρ ε : Type} {A : C → Type}

/-- An operation, the command that it is about to give, and what comes after it. -/
structure Pending (C : Type) (A : C → Type) (ω ρ : Type) where
  op : ω
  command : C
  next : A command → Program C A ρ

structure Config (σ C : Type) (A : C → Type) (ω ρ : Type) where
  state : σ
  running : Option (Pending C A ω ρ)

inductive Event (C : Type) (A : C → Type) (ω ε : Type) where
  | begin (op : ω)
  /-- The command that is pending is answered; the event has an answer for each. -/
  | reply (answers : (c : C) → A c)
  | drop
  | other (e : ε)

variable (M : Machine σ C A ω ρ ε)

/-- An operation that has no command left to give has ended. -/
def settle (s : σ) (op : ω) : Program C A ρ → Config σ C A ω ρ
  | .done r => ⟨M.ends s op r, none⟩
  | .call c k => ⟨s, some ⟨op, c, k⟩⟩

def step (s : Config σ C A ω ρ) : Event C A ω ε → Option (Config σ C A ω ρ)
  | .begin op =>
    match s.running with
    | none => (M.begins s.state op).map fun s' => M.settle s' op (M.program op)
    | some _ => none
  | .reply answers => s.running.bind fun p =>
    (M.reply s.state p.command (answers p.command)).map fun s' =>
      M.settle s' p.op (p.next (answers p.command))
  | .drop => s.running.bind fun p => (M.drops s.state p.op).map (⟨·, none⟩)
  | .other e => (M.other s.state e).map (⟨·, s.running⟩)

def system : System (Config σ C A ω ρ) (Event C A ω ε) where
  start := ⟨M.start, none⟩
  step := M.step

variable {M} {S : Semantics σ C A} {I : σ → Prop}

/-- Between operations the state has the property, and the operation that is running leads to such a
state. -/
def Keeps (M : Machine σ C A ω ρ ε) (S : Semantics σ C A) (I : σ → Prop)
    (s : Config σ C A ω ρ) : Prop :=
  match s.running with
  | none => I s.state
  | some p => (Program.call p.command p.next).Meets S (fun r s' => I (M.ends s' p.op r)) s.state

lemma keeps_settle {s : σ} {op : ω} {p : Program C A ρ}
    (h : p.Meets S (fun r s' => I (M.ends s' op r)) s) : M.Keeps S I (M.settle s op p) := by
  cases p with
  | done r => exact h
  | call c k => exact h

/-- What the programs meet is an invariant of the machine. -/
theorem invariant {cond : Config σ C A ω ρ → Event C A ω ε → Prop} (hstart : I M.start)
    (hbegin : ∀ s op s', I s → M.begins s op = some s' →
      (M.program op).Meets S (fun r s'' => I (M.ends s'' op r)) s')
    (hreply : ∀ s p answers s', cond ⟨s, some p⟩ (.reply answers) →
      M.reply s p.command (answers p.command) = some s' → S.run s p.command (answers p.command) s')
    (hother : ∀ s running e s', cond ⟨s, running⟩ (.other e) → M.other s e = some s' →
      S.others s s') (hI : ∀ s s', I s → S.others s s' → I s')
    (hdrop : ∀ s p s', cond ⟨s, some p⟩ .drop → S.needs s p.command → M.drops s p.op = some s' →
      I s') {s : Config σ C A ω ρ} (hs : M.system.Reachable cond s) : M.Keeps S I s := by
  refine hs.invariant hstart fun s e s' _ hk hc hstep => ?_
  obtain ⟨s, running⟩ := s
  cases e with
  | begin op =>
    cases running with
    | some p => cases hstep
    | none =>
      obtain ⟨s₁, hs₁, rfl⟩ := Option.map_eq_some_iff.mp hstep
      exact keeps_settle (hbegin s op s₁ hk hs₁)
  | reply answers =>
    obtain ⟨p, rfl, hstep⟩ := Option.bind_eq_some_iff.mp hstep
    obtain ⟨s₁, hs₁, rfl⟩ := Option.map_eq_some_iff.mp hstep
    exact keeps_settle ((hk s (S.refl s)).2 _ _ (hreply s p answers s₁ hc hs₁))
  | drop =>
    obtain ⟨p, rfl, hstep⟩ := Option.bind_eq_some_iff.mp hstep
    obtain ⟨s₁, hs₁, rfl⟩ := Option.map_eq_some_iff.mp hstep
    exact hdrop s p s₁ hc (hk s (S.refl s)).1 hs₁
  | other e =>
    obtain ⟨s₁, hs₁, rfl⟩ := Option.map_eq_some_iff.mp hstep
    have hs := hother s running e s₁ hc hs₁
    cases running with
    | none => exact hI s s₁ hk hs
    | some p => exact Program.Meets.others hk hs

/-- A command that is pending has what it needs. -/
lemma Keeps.needs {s : Config σ C A ω ρ} (h : M.Keeps S I s) {p : Pending C A ω ρ}
    (hp : s.running = some p) : S.needs s.state p.command := by
  rw [Keeps, hp] at h
  exact (h s.state (S.refl _)).1

end Machine

end Ket.Lib
