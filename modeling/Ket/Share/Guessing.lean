import Ket.Lib.System
import Ket.Share.Limiter

/-!
# Guessing the password over many connections (`ket-share/src/server.rs`)

The limiter is asked when a connection is accepted, and told of a wrong password only after the
device was answered.  So a device can have several guesses evaluated that the limiter knew nothing of
when it let their connections in.  `guesses_bounded` says how many connections may be in their
handshake for the limits to hold all the same.  A device that signs in knows the password, and its
wrong tries are forgotten, so its own limit is not looked at.

A `Gauge` is one of the limits, that of a device or that of all devices together: what is counted
toward it, and the cap.
-/

namespace Ket.Share

open Ket.Lib List

/-! ### Connections -/

def maxConnections : ℕ := 256

inductive Phase where
  /-- No password has been evaluated. -/
  | waiting
  /-- A wrong password has been evaluated, and the limiter has not been told. -/
  | guessed
  /-- The limiter has been told. -/
  | noted
  /-- The right password has been evaluated, and the guard `SignedIn` counts the device. -/
  | signedIn
  /-- The guard has been dropped. -/
  | signedOut
deriving DecidableEq, Repr

/-- The limiter may still be told of a guess. -/
def Phase.isOpen : Phase → Bool
  | waiting | guessed => true
  | _ => false

/-- The limiter has to be told of a guess. -/
def Phase.isOwed : Phase → Bool
  | guessed => true
  | _ => false

lemma Phase.isOpen_of_isOwed {phase : Phase} (h : phase.isOwed = true) : phase.isOpen = true := by
  cases phase <;> first | rfl | cases h

structure Connection where
  device : IpAddr
  phase : Phase
deriving DecidableEq

structure ShareState where
  limiter : SignInLimiter
  /-- The open connections. -/
  connections : List Connection
  refusedSignIns : ℕ
  /-- The last time that was read. -/
  clock : ℕ

/-- What happens at a share; connections are given by their place in the list. -/
inductive ShareEvent where
  /-- The accept loop takes the next connection. -/
  | accept (device : IpAddr) (now : ℕ)
  /-- A wrong password is evaluated. -/
  | guess (i : ℕ) (now : ℕ)
  /-- `note_refusal` for it. -/
  | note (i : ℕ) (now : ℕ)
  /-- The right password is evaluated: `SignedIn::new`. -/
  | signIn (i : ℕ)
  /-- `SignedIn::drop`. -/
  | signOut (i : ℕ)
  /-- The connection ends. -/
  | close (i : ℕ)
deriving DecidableEq

namespace ShareState

def start : ShareState := ⟨.default, [], 0, 0⟩

/-- The device has a connection open with the right password: an entry in `State::devices`. -/
def isSignedIn (s : ShareState) (device : IpAddr) : Bool :=
  s.connections.any fun c => c.device = device ∧ c.phase = .signedIn

/-- The accept loop.  A full share does not ask the limiter. -/
def accept (s : ShareState) (device : IpAddr) (now : ℕ) : ShareState :=
  if maxConnections ≤ s.connections.length then { s with clock := now }
  else
    match s.limiter.turnsAway device (s.isSignedIn device) now with
    | (true, limiter) => { s with limiter, clock := now }
    | (false, limiter) =>
      { s with limiter, clock := now, connections := s.connections ++ [⟨device, .waiting⟩] }

/-- One step.  The clock does not go back. -/
def step (s : ShareState) : ShareEvent → Option ShareState
  | .accept device now => if now < s.clock then none else some (s.accept device now)
  | .guess i now =>
    match s.connections[i]? with
    | some ⟨device, .waiting⟩ =>
      if now < s.clock then none
      else some { s with clock := now, connections := s.connections.set i ⟨device, .guessed⟩ }
    | _ => none
  | .note i now =>
    match s.connections[i]? with
    | some ⟨device, .guessed⟩ =>
      if now < s.clock then none
      else some {
        limiter := s.limiter.failed device now
        connections := s.connections.set i ⟨device, .noted⟩
        refusedSignIns := s.refusedSignIns + 1
        clock := now }
    | _ => none
  | .signIn i =>
    match s.connections[i]? with
    | some ⟨device, .waiting⟩ =>
      some { s with
        limiter := s.limiter.succeeded device
        connections := s.connections.set i ⟨device, .signedIn⟩ }
    | _ => none
  | .signOut i =>
    match s.connections[i]? with
    | some ⟨device, .signedIn⟩ =>
      some { s with connections := s.connections.set i ⟨device, .signedOut⟩ }
    | _ => none
  | .close i =>
    match s.connections[i]? with
    | some c =>
      -- the guard is dropped before the connection is
      if c.phase = .signedIn then none
      else some { s with connections := s.connections.eraseIdx i }
    | none => none

end ShareState

/-- The wrong passwords that were evaluated, and when. -/
abbrev Guesses : Type := List (IpAddr × ℕ)

/-- What devices have tried so far. -/
structure Tries where
  guesses : Guesses
  /-- The devices that have signed in. -/
  signIns : List IpAddr
deriving DecidableEq

def Tries.record (tries : Tries) (s : ShareState) : ShareEvent → Tries
  | .guess i now =>
    { tries with
      guesses := tries.guesses ++ (s.connections[i]?.map fun c => (c.device, now)).toList }
  | .signIn i =>
    { tries with signIns := tries.signIns ++ (s.connections[i]?.map Connection.device).toList }
  | _ => tries

/-- The share with the history of the tries. -/
def guessingSystem : System (ShareState × Tries) ShareEvent :=
  System.withHistory ⟨.start, ShareState.step⟩ ⟨[], []⟩ Tries.record

/-- The guesses of some devices in the window that starts at a time. -/
def guessesIn (guesses : Guesses) (of : IpAddr → Bool) (start : ℕ) : ℕ :=
  guesses.countP fun g => of g.1 && decide (start ≤ g.2 ∧ g.2 < start + window)

/-! ### Limits -/

/-- One of the limits. -/
structure Gauge where
  /-- The devices that it is for. -/
  of : IpAddr → Bool
  /-- What is counted toward it at a time. -/
  counted : SignInLimiter → ℕ → ℕ
  cap : ℕ
  anti : ∀ {limiter : SignInLimiter} {now later : ℕ}, now ≤ later →
    counted limiter later ≤ counted limiter now
  forget : ∀ {limiter : SignInLimiter} {now later : ℕ}, now ≤ later →
    counted (limiter.forgetBefore now) later = counted limiter later
  /-- A wrong try counts once. -/
  failed_le : ∀ {limiter : SignInLimiter} {device : IpAddr} {now : ℕ}, limiter.Backed →
    limiter.countedTotal now < maxTotalFailures →
    counted (limiter.failed device now) now ≤ counted limiter now + (of device).toNat
  /-- It counts for a window. -/
  le_failed : ∀ {limiter : SignInLimiter} {device : IpAddr} {now later : ℕ}, limiter.Backed →
    limiter.countedTotal now < maxTotalFailures → now ≤ later → isRecent later now = true →
    counted limiter later + (of device).toNat ≤ counted (limiter.failed device now) later

lemma isRecent_self (now : ℕ) : isRecent now now = true := by
  simp [isRecent, window]

/-- The limit of one device. -/
def deviceGauge (device : IpAddr) : Gauge where
  of other := other = device
  counted limiter now := limiter.counted device now
  cap := maxFailures
  anti := SignInLimiter.counted_anti
  forget := SignInLimiter.counted_forgetBefore
  failed_le {limiter other now} hbacked hroom := by
    rw [SignInLimiter.failed_eq hbacked hroom]
    by_cases hother : other = device
    · subst hother
      rw [SignInLimiter.counted_count_self (isRecent_self now)]
      simp
    · rw [SignInLimiter.counted_count_of_ne (Ne.symm hother) le_rfl]
      omega
  le_failed {limiter other now later} hbacked hroom hle hrecent := by
    rw [SignInLimiter.failed_eq hbacked hroom]
    by_cases hother : other = device
    · subst hother
      have hanti : limiter.counted other later ≤ limiter.counted other now :=
        SignInLimiter.counted_anti hle
      rw [SignInLimiter.counted_count_self hrecent]
      simpa using hanti
    · rw [SignInLimiter.counted_count_of_ne (Ne.symm hother) hle]
      simp [hother]

/-- The limit of all devices together. -/
def totalGauge : Gauge where
  of _ := true
  counted limiter now := limiter.countedTotal now
  cap := maxTotalFailures
  anti := SignInLimiter.countedTotal_anti
  forget := SignInLimiter.countedTotal_forgetBefore
  failed_le {limiter other now} hbacked hroom := by
    rw [SignInLimiter.failed_eq hbacked hroom, SignInLimiter.countedTotal_count hroom le_rfl,
      isRecent_self]
    exact le_rfl
  le_failed {limiter other now later} hbacked hroom hle hrecent := by
    rw [SignInLimiter.failed_eq hbacked hroom, SignInLimiter.countedTotal_count hroom hle, hrecent]
    exact le_rfl

/-- The connections that can still add to a limit. -/
def ShareState.pending (s : ShareState) (of : IpAddr → Bool) : ℕ :=
  s.connections.countP fun c => of c.device && c.phase.isOpen

/-- The guesses that the limiter has not been told of. -/
def ShareState.unnoted (s : ShareState) (of : IpAddr → Bool) : ℕ :=
  s.connections.countP fun c => of c.device && c.phase.isOwed

/-- There is room for one more guess. -/
def Gauge.hasRoom (g : Gauge) (s : ShareState) (now : ℕ) : Prop :=
  g.counted s.limiter now + s.pending g.of < g.cap

/-- A connection is let in only when, with those in their handshake, there is room for its guess in
the limit of its device and in that of all devices; and a connection does not end between a guess and
its note. -/
def WithinLimits (s : ShareState × Tries) : ShareEvent → Prop
  | .accept device now =>
    s.1.connections.length < maxConnections →
      (s.1.limiter.turnsAway device (s.1.isSignedIn device) now).1 = false →
      (deviceGauge device).hasRoom s.1 now ∧ totalGauge.hasRoom s.1 now
  | .close i => (s.1.connections[i]?.any fun c => c.phase.isOwed) = false
  | _ => True

instance (g : Gauge) (s : ShareState) (now : ℕ) : Decidable (g.hasRoom s now) :=
  inferInstanceAs (Decidable (_ < _))

instance (s : ShareState × Tries) : (e : ShareEvent) → Decidable (WithinLimits s e)
  | .accept _ _ => inferInstanceAs (Decidable (_ → _ → _ ∧ _))
  | .guess _ _ | .note _ _ | .signIn _ | .signOut _ => inferInstanceAs (Decidable True)
  | .close _ => inferInstanceAs (Decidable (_ = _))

/-! ### The invariant -/

/-- The guesses that are less than a window old. -/
def recentGuesses (guesses : Guesses) (of : IpAddr → Bool) (now : ℕ) : ℕ :=
  guesses.countP fun g => of g.1 && isRecent now g.2

/-- A limit is kept. -/
structure Kept (g : Gauge) (s : ShareState) (guesses : Guesses) : Prop where
  /-- There is room for the guesses of all connections in their handshake. -/
  room : g.counted s.limiter s.clock + s.pending g.of ≤ g.cap
  /-- The limiter knows of every recent guess, or will be told. -/
  known : ∀ now, s.clock ≤ now →
    recentGuesses guesses g.of now ≤ g.counted s.limiter now + s.unnoted g.of
  bounded : ∀ start, guessesIn guesses g.of start ≤ g.cap

section Steps

variable {g : Gauge} {s : ShareState} {guesses : Guesses} {device : IpAddr} {i now : ℕ}
  {c : Connection}

lemma countP_eraseIdx (p : Connection → Bool) (h : s.connections[i]? = some c) :
    (s.connections.eraseIdx i).countP p + (p c).toNat = s.connections.countP p := by
  obtain ⟨hlt, rfl⟩ := List.getElem?_eq_some_iff.mp h
  rw [← (getElem_cons_eraseIdx_perm hlt).countP_eq p, countP_cons]
  cases p s.connections[i] <;> rfl

lemma countP_set (p : Connection → Bool) (c' : Connection) (h : s.connections[i]? = some c) :
    (s.connections.set i c').countP p + (p c).toNat = s.connections.countP p + (p c').toNat := by
  have hlt := (List.getElem?_eq_some_iff.mp h).1
  rw [(set_perm_cons_eraseIdx hlt c').countP_eq p, countP_cons, ← countP_eraseIdx p h,
    Nat.add_right_comm]
  cases p c' <;> rfl

lemma unnoted_le_pending : s.unnoted g.of ≤ s.pending g.of := by
  refine countP_mono_left fun c _ h => ?_
  simp only [Bool.and_eq_true] at h ⊢
  exact ⟨h.1, Phase.isOpen_of_isOwed h.2⟩

/-- Time passes, and what is old may be forgotten. -/
lemma Kept.later (h : Kept g s guesses) (hle : s.clock ≤ now) {limiter : SignInLimiter}
    (hlimiter : limiter = s.limiter ∨ limiter = s.limiter.forgetBefore now) :
    Kept g { s with limiter, clock := now } guesses := by
  have hcounted : ∀ later, now ≤ later → g.counted limiter later = g.counted s.limiter later := by
    intro later hlater
    rcases hlimiter with rfl | rfl
    · rfl
    · exact g.forget hlater
  refine ⟨?_, fun later hlater => ?_, h.bounded⟩
  · have hanti : g.counted s.limiter now ≤ g.counted s.limiter s.clock := g.anti hle
    have hroom := h.room
    show g.counted limiter now + s.pending g.of ≤ g.cap
    rw [hcounted now le_rfl]
    omega
  · show _ ≤ g.counted limiter later + s.unnoted g.of
    rw [hcounted later hlater]
    exact h.known later (hle.trans hlater)

lemma Kept.open (h : Kept g s guesses) (hroom : g.of device = true → g.hasRoom s s.clock) :
    Kept g { s with connections := s.connections ++ [⟨device, .waiting⟩] } guesses := by
  have hpending : ({ s with connections := s.connections ++ [⟨device, .waiting⟩] } :
      ShareState).pending g.of = s.pending g.of + (g.of device).toNat := by
    simp only [ShareState.pending, countP_append, countP_singleton]
    cases g.of device <;> rfl
  have hunnoted : ({ s with connections := s.connections ++ [⟨device, .waiting⟩] } :
      ShareState).unnoted g.of = s.unnoted g.of := by
    simp [ShareState.unnoted, countP_append, Phase.isOwed]
  refine ⟨?_, fun later hlater => ?_, h.bounded⟩
  · rw [hpending]
    cases hof : g.of device with
    | false => exact h.room
    | true =>
      have hlt := hroom hof
      rw [Gauge.hasRoom] at hlt
      show g.counted s.limiter s.clock + (s.pending g.of + 1) ≤ g.cap
      omega
  · rw [hunnoted]
    exact h.known later hlater

/-- A window that holds the present is recent as a whole. -/
lemma guessesIn_le_recentGuesses {of : IpAddr → Bool} {start : ℕ} (h : now < start + window) :
    guessesIn guesses of start ≤ recentGuesses guesses of now := by
  refine countP_mono_left fun x _ hx => ?_
  simp only [Bool.and_eq_true, decide_eq_true_eq, isRecent] at hx ⊢
  refine ⟨hx.1, ?_⟩
  omega

section

variable (h : Kept g s guesses)
include h

/-- A guess of a connection that was waiting. -/
lemma Kept.guess (hc : s.connections[i]? = some ⟨device, .waiting⟩) :
    Kept g { s with connections := s.connections.set i ⟨device, .guessed⟩ }
      (guesses ++ [(device, s.clock)]) := by
  set s' : ShareState := { s with connections := s.connections.set i ⟨device, .guessed⟩ } with hs'
  -- the connection is still in its handshake, with a guess more that is not noted
  have hpending : s'.pending g.of = s.pending g.of := by
    have hset := countP_set (fun c => g.of c.device && c.phase.isOpen) ⟨device, .guessed⟩ hc
    exact Nat.add_right_cancel hset
  have hunnoted : s'.unnoted g.of = s.unnoted g.of + (g.of device).toNat := by
    have hset := countP_set (fun c => g.of c.device && c.phase.isOwed) ⟨device, .guessed⟩ hc
    simpa [ShareState.unnoted, hs', Phase.isOwed] using hset
  have hroom : g.counted s.limiter s.clock + s'.pending g.of ≤ g.cap := hpending ▸ h.room
  have hknown : ∀ later, s.clock ≤ later →
      recentGuesses (guesses ++ [(device, s.clock)]) g.of later
        ≤ g.counted s.limiter later + s'.unnoted g.of := by
    intro later hlater
    have hold := h.known later hlater
    have hnew : recentGuesses (guesses ++ [(device, s.clock)]) g.of later
        ≤ recentGuesses guesses g.of later + (g.of device).toNat := by
      simp only [recentGuesses, countP_append, countP_singleton]
      cases g.of device <;> cases isRecent later s.clock <;> simp
    rw [hunnoted]
    omega
  refine ⟨hroom, hknown, fun start => ?_⟩
  by_cases hwindow : s.clock < start + window
  · have hle : guessesIn (guesses ++ [(device, s.clock)]) g.of start
        ≤ recentGuesses (guesses ++ [(device, s.clock)]) g.of s.clock :=
      guessesIn_le_recentGuesses hwindow
    have hnow := hknown s.clock le_rfl
    have hpart : s'.unnoted g.of ≤ s'.pending g.of := unnoted_le_pending
    omega
  · -- the window is over
    have hold := h.bounded start
    have hnot : (g.of device && decide (start ≤ s.clock ∧ s.clock < start + window)) = false := by
      simp [hwindow]
    rw [guessesIn, countP_append, countP_singleton, hnot]
    exact hold

/-- The limiter is told of a guess. -/
lemma Kept.note (hc : s.connections[i]? = some ⟨device, .guessed⟩)
    (hpast : ∀ x ∈ guesses, x.2 ≤ s.clock) (hbacked : s.limiter.Backed)
    (htotal : s.limiter.countedTotal s.clock < maxTotalFailures) :
    Kept g { s with
      limiter := s.limiter.failed device s.clock
      connections := s.connections.set i ⟨device, .noted⟩
      refusedSignIns := s.refusedSignIns + 1 } guesses := by
  set s' : ShareState := { s with
    limiter := s.limiter.failed device s.clock
    connections := s.connections.set i ⟨device, .noted⟩
    refusedSignIns := s.refusedSignIns + 1 } with hs'
  have hpending : s'.pending g.of + (g.of device).toNat = s.pending g.of := by
    have hset := countP_set (fun c => g.of c.device && c.phase.isOpen) ⟨device, .noted⟩ hc
    simpa [ShareState.pending, hs', Phase.isOpen] using hset
  have hunnoted : s'.unnoted g.of + (g.of device).toNat = s.unnoted g.of := by
    have hset := countP_set (fun c => g.of c.device && c.phase.isOwed) ⟨device, .noted⟩ hc
    simpa [ShareState.unnoted, hs', Phase.isOwed] using hset
  refine ⟨?_, fun later hlater => ?_, h.bounded⟩
  · have hcount : g.counted (s.limiter.failed device s.clock) s.clock
        ≤ g.counted s.limiter s.clock + (g.of device).toNat := g.failed_le hbacked htotal
    have hroom := h.room
    show g.counted (s.limiter.failed device s.clock) s.clock + s'.pending g.of ≤ g.cap
    omega
  · show _ ≤ g.counted (s.limiter.failed device s.clock) later + s'.unnoted g.of
    cases hrecent : isRecent later s.clock with
    | true =>
      have hcount : g.counted s.limiter later + (g.of device).toNat
          ≤ g.counted (s.limiter.failed device s.clock) later :=
        g.le_failed hbacked htotal hlater hrecent
      have hold := h.known later hlater
      omega
    | false =>
      -- a window has passed since the last guess
      have hnone : recentGuesses guesses g.of later = 0 := by
        refine countP_eq_zero.mpr fun x hx => ?_
        have hle := hpast x hx
        simp only [isRecent, decide_eq_false_iff_not] at hrecent
        simp only [isRecent, Bool.and_eq_true, decide_eq_true_eq, not_and]
        omega
      omega

/-- A connection that has no guess to be noted will make none. -/
lemma Kept.settle {phase phase' : Phase}
    (hc : s.connections[i]? = some ⟨device, phase⟩) (hphase : phase.isOwed = false)
    (hphase' : phase'.isOpen = false) {limiter : SignInLimiter}
    (hcounted : ∀ later, g.counted limiter later = g.counted s.limiter later) :
    Kept g { s with limiter, connections := s.connections.set i ⟨device, phase'⟩ } guesses := by
  set s' : ShareState :=
    { s with limiter, connections := s.connections.set i ⟨device, phase'⟩ } with hs'
  have howed : phase'.isOwed = false := by
    by_contra hne
    rw [Phase.isOpen_of_isOwed (by simpa using hne)] at hphase'
    cases hphase'
  have hpending : s'.pending g.of ≤ s.pending g.of := by
    have hset := countP_set (fun c => g.of c.device && c.phase.isOpen) ⟨device, phase'⟩ hc
    simp only [hphase', Bool.and_false, Bool.toNat_false, Nat.add_zero] at hset
    exact Nat.le_of_add_right_le hset.le
  have hunnoted : s'.unnoted g.of = s.unnoted g.of := by
    have hset := countP_set (fun c => g.of c.device && c.phase.isOwed) ⟨device, phase'⟩ hc
    simpa [ShareState.unnoted, hs', hphase, howed] using hset
  refine ⟨?_, fun later hlater => ?_, h.bounded⟩
  · have hroom := h.room
    show g.counted limiter s.clock + s'.pending g.of ≤ g.cap
    rw [hcounted]
    omega
  · show _ ≤ g.counted limiter later + s'.unnoted g.of
    rw [hcounted, hunnoted]
    exact h.known later hlater

lemma Kept.close (hc : s.connections[i]? = some c)
    (hphase : c.phase.isOwed = false) :
    Kept g { s with connections := s.connections.eraseIdx i } guesses := by
  set s' : ShareState := { s with connections := s.connections.eraseIdx i } with hs'
  have hpending : s'.pending g.of ≤ s.pending g.of := by
    have herase := countP_eraseIdx (fun c => g.of c.device && c.phase.isOpen) hc
    exact Nat.le_of_add_right_le herase.le
  have hunnoted : s'.unnoted g.of = s.unnoted g.of := by
    have herase := countP_eraseIdx (fun c => g.of c.device && c.phase.isOwed) hc
    simpa [ShareState.unnoted, hs', hphase] using herase
  refine ⟨?_, fun later hlater => ?_, h.bounded⟩
  · have hroom := h.room
    show g.counted s.limiter s.clock + s'.pending g.of ≤ g.cap
    omega
  · rw [hunnoted]
    exact h.known later hlater

end

end Steps

/-! ### Runs -/

/-- Both limits are kept, that of a device as long as it has not signed in. -/
structure Watched (s : ShareState) (tries : Tries) : Prop where
  past : ∀ x ∈ tries.guesses, x.2 ≤ s.clock
  backed : s.limiter.Backed
  device : ∀ device ∉ tries.signIns, Kept (deviceGauge device) s tries.guesses
  total : Kept totalGauge s tries.guesses

section Runs

variable {s : ShareState} {tries : Tries} {device : IpAddr} {i now : ℕ}

section

variable (h : Watched s tries)
include h

/-- What a step does to all limits alike. -/
lemma Watched.of_kept {s' : ShareState} {guesses : Guesses}
    (hpast : ∀ x ∈ guesses, x.2 ≤ s'.clock) (hbacked : s'.limiter.Backed)
    (hkept : ∀ g, Kept g s tries.guesses → Kept g s' guesses) :
    Watched s' { tries with guesses } :=
  ⟨hpast, hbacked, fun device hdevice => hkept _ (h.device device hdevice), hkept _ h.total⟩

lemma Watched.later (hle : s.clock ≤ now) {limiter : SignInLimiter}
    (hlimiter : limiter = s.limiter ∨ limiter = s.limiter.forgetBefore now) :
    Watched { s with limiter, clock := now } tries := by
  refine h.of_kept (fun x hx => (h.past x hx).trans hle) ?_ fun g hg => hg.later hle hlimiter
  rcases hlimiter with rfl | rfl
  · exact h.backed
  · exact h.backed.forgetBefore

lemma Watched.accept (hle : s.clock ≤ now)
    (hcond : WithinLimits (s, tries) (.accept device now)) :
    Watched (s.accept device now) tries := by
  unfold ShareState.accept
  split
  · exact h.later hle (.inl rfl)
  · rename_i hfull
    have hlimiter : (s.limiter.turnsAway device (s.isSignedIn device) now).2
        = s.limiter.forgetBefore now := rfl
    have hlater := h.later hle (.inr rfl : _ ∨ s.limiter.forgetBefore now = _)
    split
    · rename_i limiter haway
      obtain rfl : limiter = s.limiter.forgetBefore now := by rw [← hlimiter, haway]
      exact hlater
    · rename_i limiter haway
      obtain rfl : limiter = s.limiter.forgetBefore now := by rw [← hlimiter, haway]
      obtain ⟨hdevice, htotal⟩ := hcond (Nat.lt_of_not_le hfull) (by rw [haway])
      -- forgetting what is old leaves the room
      have hroom : ∀ g : Gauge, g.hasRoom s now →
          g.hasRoom { s with limiter := s.limiter.forgetBefore now, clock := now } now := by
        intro g hg
        show g.counted (s.limiter.forgetBefore now) now + s.pending g.of < g.cap
        rw [g.forget le_rfl]
        exact hg
      refine ⟨hlater.past, hlater.backed, fun other hother => ?_, ?_⟩
      · refine (hlater.device other hother).open fun hof => ?_
        obtain rfl : device = other := of_decide_eq_true hof
        exact hroom _ hdevice
      · exact hlater.total.open fun _ => hroom _ htotal

lemma Watched.guess (hle : s.clock ≤ now)
    (hc : s.connections[i]? = some ⟨device, .waiting⟩) :
    Watched { s with clock := now, connections := s.connections.set i ⟨device, .guessed⟩ }
      { tries with guesses := tries.guesses ++ [(device, now)] } := by
  have hlater := h.later hle (.inl rfl)
  refine hlater.of_kept (fun x hx => ?_) hlater.backed fun g hg => hg.guess hc
  rcases mem_append.mp hx with hx | hx
  · exact hlater.past x hx
  · rw [mem_singleton.mp hx]

lemma Watched.note (hle : s.clock ≤ now)
    (hc : s.connections[i]? = some ⟨device, .guessed⟩) :
    Watched {
      limiter := s.limiter.failed device now
      connections := s.connections.set i ⟨device, .noted⟩
      refusedSignIns := s.refusedSignIns + 1
      clock := now } tries := by
  have hlater := h.later hle (.inl rfl)
  -- the guess itself is in its handshake, so there is room for it
  have htotal : s.limiter.countedTotal now < maxTotalFailures := by
    have hroom := hlater.total.room
    have hpos : 0 < s.pending totalGauge.of :=
      countP_pos_iff.mpr ⟨_, mem_of_getElem? hc, rfl⟩
    exact Nat.lt_of_lt_of_le (Nat.lt_add_of_pos_right hpos) hroom
  refine hlater.of_kept hlater.past ?_ fun g hg => hg.note hc hlater.past hlater.backed htotal
  show (s.limiter.failed device now).Backed
  rw [SignInLimiter.failed_eq h.backed htotal]
  exact h.backed.forgetBefore.count htotal

/-- A sign-in takes the wrong tries of its device only, and none from the total. -/
lemma Watched.signIn (hc : s.connections[i]? = some ⟨device, .waiting⟩) :
    Watched { s with
        limiter := s.limiter.succeeded device
        connections := s.connections.set i ⟨device, .signedIn⟩ }
      { tries with signIns := tries.signIns ++ [device] } := by
  refine ⟨h.past, h.backed.succeeded, fun other hother => ?_, ?_⟩
  · rw [mem_append, mem_singleton, not_or] at hother
    exact (h.device other hother.1).settle hc rfl rfl fun _ =>
      SignInLimiter.counted_succeeded_of_ne hother.2
  · exact h.total.settle hc rfl rfl fun _ => rfl

lemma Watched.step {s' : ShareState} {tries' : Tries} {e : ShareEvent}
    (hcond : WithinLimits (s, tries) e)
    (hrun : guessingSystem.step (s, tries) e = some (s', tries')) : Watched s' tries' := by
  obtain ⟨hstep, htries⟩ := System.withHistory_step.mp hrun
  simp only at hstep htries
  subst htries
  cases e with
  | accept device now =>
    simp only [ShareState.step] at hstep
    split at hstep
    · cases hstep
    · rename_i hclock
      cases hstep
      exact h.accept (Nat.le_of_not_lt hclock) hcond
  | guess i now =>
    simp only [ShareState.step] at hstep
    split at hstep
    · rename_i device hc
      split at hstep
      · cases hstep
      · rename_i hclock
        cases hstep
        simp only [Tries.record, hc, Option.map_some, Option.toList_some]
        exact h.guess (Nat.le_of_not_lt hclock) hc
    · cases hstep
  | note i now =>
    simp only [ShareState.step] at hstep
    split at hstep
    · rename_i device hc
      split at hstep
      · cases hstep
      · rename_i hclock
        cases hstep
        exact h.note (Nat.le_of_not_lt hclock) hc
    · cases hstep
  | signIn i =>
    simp only [ShareState.step] at hstep
    split at hstep
    · rename_i device hc
      cases hstep
      simp only [Tries.record, hc, Option.map_some, Option.toList_some]
      exact h.signIn hc
    · cases hstep
  | signOut i =>
    simp only [ShareState.step] at hstep
    split at hstep
    · rename_i device hc
      cases hstep
      exact h.of_kept h.past h.backed fun g hg => hg.settle hc rfl rfl fun _ => rfl
    · cases hstep
  | close i =>
    simp only [ShareState.step] at hstep
    split at hstep
    · rename_i c hc
      split at hstep
      · cases hstep
      · cases hstep
        have hphase : c.phase.isOwed = false := by
          simp only [WithinLimits, hc] at hcond
          exact hcond
        exact h.of_kept h.past h.backed fun g hg => hg.close hc hphase
    · cases hstep

end

lemma watched_start : Watched .start ⟨[], []⟩ := by
  have hkept : ∀ g : Gauge, g.counted .default 0 = 0 → Kept g .start [] := by
    intro g hzero
    refine ⟨?_, fun _ _ => Nat.zero_le _, fun _ => Nat.zero_le _⟩
    show g.counted .default 0 + 0 ≤ g.cap
    omega
  exact ⟨nofun, nil_subperm, fun device _ => hkept _ rfl, hkept _ rfl⟩

end Runs

/-- **Guesses under concurrency.**  When connections are let in only while there is room for the
guesses of all connections in their handshake, and no connection ends with a guess that is not noted,
then in no window more wrong passwords are evaluated than the limits say, for a device that has not
signed in and overall. -/
theorem guesses_bounded {s : ShareState × Tries}
    (hs : guessingSystem.Reachable WithinLimits s) (start : ℕ) :
    (∀ device ∉ s.2.signIns,
      guessesIn s.2.guesses (fun other => other = device) start ≤ maxFailures) ∧
      guessesIn s.2.guesses (fun _ => true) start ≤ maxTotalFailures := by
  have hwatched : Watched s.1 s.2 := by
    refine hs.invariant (I := fun s => Watched s.1 s.2) watched_start ?_
    intro s e s' _ hs hcond hstep
    exact hs.step hcond hstep
  exact ⟨fun device hdevice => (hwatched.device device hdevice).bounded start,
    hwatched.total.bounded start⟩

namespace Sample

/-- A device of the local network. -/
def nearby (i : ℕ) : IpAddr := .v4 ⟨192, 168, 1, .ofNat i⟩

/-- A device tries five passwords, three of them over connections that are open at the same time,
while another device tries one. -/
def fiveTries : List ShareEvent :=
  [.accept (nearby 2) 0, .accept (nearby 2) 1, .accept (nearby 3) 1, .accept (nearby 2) 2,
    .guess 1 3, .guess 0 3, .guess 2 3, .note 0 4, .guess 3 4, .note 3 4, .note 1 5, .note 2 5,
    .close 1, .accept (nearby 2) 6, .accept (nearby 2) 6, .guess 4 7, .guess 3 7]

/-- Connections that are all let in before a password is evaluated. -/
def atOnce (devices : List IpAddr) : List ShareEvent :=
  devices.map (.accept · 0) ++ (List.range devices.length).map (.guess · 0)

end Sample

theorem guesses_bounded_fiveTries : ∃ s, guessingSystem.Reachable WithinLimits s ∧
    guessesIn s.2.guesses (fun other => other = Sample.nearby 2) 0 = maxFailures ∧
    Sample.nearby 2 ∉ s.2.signIns ∧
    ∀ start, guessesIn s.2.guesses (fun other => other = Sample.nearby 2) start ≤ maxFailures := by
  obtain ⟨s, hs, hguesses, hdevice⟩ := System.exists_reachable_of_run guessingSystem WithinLimits
    (fun s => guessesIn s.2.guesses (fun other => other = Sample.nearby 2) 0 = maxFailures ∧
      Sample.nearby 2 ∉ s.2.signIns)
    Sample.fiveTries (by decide +kernel)
  exact ⟨s, hs, hguesses, hdevice, fun start => (guesses_bounded hs start).1 _ hdevice⟩

/-- Six connections of one device are let in before the limiter hears of a guess, and so are
connections of 31 devices. -/
theorem guesses_at_once :
    (∃ s, guessingSystem.Reachable (fun _ _ => True) s ∧ s.2.signIns = [] ∧
      maxFailures < guessesIn s.2.guesses (fun other => other = Sample.nearby 2) 0) ∧
    ∃ s, guessingSystem.Reachable (fun _ _ => True) s ∧ s.2.signIns = [] ∧
      maxTotalFailures < guessesIn s.2.guesses (fun _ => true) 0 :=
  ⟨System.exists_reachable_of_run _ _ _ (Sample.atOnce (List.replicate 6 (Sample.nearby 2)))
      (by decide +kernel),
    System.exists_reachable_of_run _ _ _ (Sample.atOnce ((List.range 31).map Sample.nearby))
      (by decide +kernel)⟩

end Ket.Share
