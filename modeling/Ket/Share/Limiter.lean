import Ket.Share.Target
import Mathlib.Data.List.MinMax

/-!
# Slowing down guesses (`ket-share/src/limiter.rs`)

The limiter keeps, for each device, how often it was wrong and when it was last, and the times of the
last wrong tries of all devices.  What is a window old is forgotten (`entry_forgetBefore`).  Times are
in nanoseconds.
-/

namespace Ket.Share

open List

def maxFailures : ℕ := 5
def maxTotalFailures : ℕ := 30
def window : ℕ := 60 * 10 ^ 9
def maxTracked : ℕ := 1024

structure Failures where
  count : ℕ
  last : ℕ
deriving DecidableEq, Repr

/-- Less than a window ago. -/
def isRecent (now time : ℕ) : Bool := decide (now - time < window)

/-- The limiter has one entry for a device. -/
structure SignInLimiter where
  devices : List (IpAddr × Failures)
  recent : List ℕ
  nodup : (devices.map Prod.fst).Nodup

namespace SignInLimiter

/-- `SignInLimiter::default`. -/
def default : SignInLimiter := ⟨[], [], nodup_nil⟩

variable (limiter : SignInLimiter)

def entry (device : IpAddr) : Option Failures :=
  (limiter.devices.find? fun e => e.1 = device).map Prod.snd

lemma nodup_filter (p : IpAddr × Failures → Bool) :
    ((limiter.devices.filter p).map Prod.fst).Nodup :=
  limiter.nodup.sublist (List.filter_sublist.map _)

/-- `retain` on the entries. -/
def retain (p : IpAddr × Failures → Bool) : SignInLimiter :=
  ⟨limiter.devices.filter p, limiter.recent, limiter.nodup_filter p⟩

def forgetBefore (now : ℕ) : SignInLimiter :=
  { limiter.retain fun e => isRecent now e.2.last with
    recent := limiter.recent.filter (isRecent now) }

/-- `turns_away`, with the limiter that it leaves. -/
def turnsAway (device : IpAddr) (signedIn : Bool) (now : ℕ) :
    Bool × SignInLimiter :=
  let limiter := limiter.forgetBefore now
  (((limiter.entry device).any fun failures => maxFailures ≤ failures.count) ||
    (!signedIn && maxTotalFailures ≤ limiter.recent.length), limiter)

/-- One more wrong try of the device. -/
def count (limiter : SignInLimiter) (device : IpAddr) (now : ℕ) : SignInLimiter where
  devices := (device, ⟨((limiter.entry device).map Failures.count).getD 0 + 1, now⟩) ::
    limiter.devices.filter fun e => e.1 ≠ device
  recent :=
    -- keeps the cap in force for a window after the latest try
    (if limiter.recent.length < maxTotalFailures then limiter.recent else limiter.recent.tail) ++ [now]
  nodup := by
    refine nodup_cons.mpr ⟨fun hmem => ?_, limiter.nodup_filter _⟩
    obtain ⟨e, he, heq⟩ := mem_map.mp hmem
    have hne := (List.mem_filter.mp he).2
    exact absurd heq (of_decide_eq_true hne)

/-- Bounds memory however many addresses try. -/
def evict : SignInLimiter :=
  if maxTracked < limiter.devices.length then
    match limiter.devices.argmin fun e => e.2.last with
    | some oldest => limiter.retain fun e => e.1 ≠ oldest.1
    | none => limiter
  else limiter

def failed (device : IpAddr) (now : ℕ) : SignInLimiter :=
  ((limiter.forgetBefore now).count device now).evict

def succeeded (device : IpAddr) : SignInLimiter :=
  limiter.retain fun e => e.1 ≠ device

/-! ### What is forgotten -/

variable {limiter : SignInLimiter} {device other : IpAddr} {now later time : ℕ}

lemma isRecent_of_le (hle : now ≤ later) (h : isRecent later time = true) :
    isRecent now time = true := by
  simp only [isRecent, decide_eq_true_eq] at h ⊢
  omega

/-- The entries of a list with one entry for a key, after some were dropped. -/
lemma find?_filter {entries : List (IpAddr × Failures)} (h : (entries.map Prod.fst).Nodup)
    (p : IpAddr × Failures → Bool) : (entries.filter p).find? (fun e => e.1 = device)
      = (entries.find? fun e => e.1 = device).filter p := by
  induction entries with
  | nil => rfl
  | cons e entries ih =>
    obtain ⟨hnot, hnodup⟩ := nodup_cons.mp h
    by_cases hdevice : e.1 = device
    · -- no other entry is one of the device
      have hnone : entries.find? (fun e => e.1 = device) = none := by
        refine List.find?_eq_none.mpr fun e' he' heq => hnot ?_
        rw [hdevice, ← of_decide_eq_true heq]
        exact mem_map.mpr ⟨e', he', rfl⟩
      have hrest : (entries.filter p).find? (fun e => e.1 = device) = none := by
        rw [ih hnodup, hnone]
        rfl
      cases hp : p e <;> simp [hp, hdevice, hrest, Option.filter]
    · cases hp : p e <;> simp [hp, hdevice, ih hnodup]

/-- A device's wrong tries are forgotten together, a window after the last of them. -/
lemma entry_forgetBefore : (limiter.forgetBefore now).entry device
      = (limiter.entry device).filter fun failures => isRecent now failures.last := by
  show ((limiter.devices.filter _).find? _).map Prod.snd = _
  rw [find?_filter limiter.nodup, entry]
  cases limiter.devices.find? fun e => e.1 = device with
  | none => rfl
  | some e => cases h : isRecent now e.2.last <;> simp [Option.filter, h]

/-- The wrong tries that count at a time. -/
def counted (device : IpAddr) (now : ℕ) : ℕ :=
  (((limiter.forgetBefore now).entry device).map Failures.count).getD 0

/-- The wrong tries of all devices that count at a time. -/
def countedTotal (now : ℕ) : ℕ := (limiter.forgetBefore now).recent.length

lemma counted_eq : limiter.counted device now
    = (((limiter.entry device).filter fun failures => isRecent now failures.last).map
        Failures.count).getD 0 := by
  rw [counted, entry_forgetBefore]

section

variable (hle : now ≤ later)
include hle

/-- Less and less counts. -/
lemma counted_anti : limiter.counted device later ≤ limiter.counted device now := by
  rw [counted_eq, counted_eq]
  cases limiter.entry device with
  | none => exact le_rfl
  | some failures =>
    cases hlater : isRecent later failures.last with
    | false => simp [Option.filter, hlater]
    | true =>
      have hnow := isRecent_of_le hle hlater
      simp [Option.filter, hlater, hnow]

lemma countedTotal_anti : limiter.countedTotal later ≤ limiter.countedTotal now := by
  show (limiter.recent.filter _).length ≤ (limiter.recent.filter _).length
  rw [← countP_eq_length_filter, ← countP_eq_length_filter]
  exact countP_mono_left fun time _ h => isRecent_of_le hle h

/-- Forgetting early does not change what counts later. -/
lemma counted_forgetBefore :
    (limiter.forgetBefore now).counted device later = limiter.counted device later := by
  rw [counted_eq, counted_eq, entry_forgetBefore]
  cases limiter.entry device with
  | none => rfl
  | some failures =>
    cases hlater : isRecent later failures.last with
    | false => cases hnow : isRecent now failures.last <;> simp [Option.filter, hlater, hnow]
    | true =>
      have hnow := isRecent_of_le hle hlater
      simp [Option.filter, hlater, hnow]

lemma countedTotal_forgetBefore :
    (limiter.forgetBefore now).countedTotal later = limiter.countedTotal later := by
  show ((limiter.recent.filter _).filter _).length = (limiter.recent.filter _).length
  rw [filter_filter]
  congr 1
  refine filter_congr fun time _ => ?_
  cases hlater : isRecent later time with
  | false => rfl
  | true => rw [isRecent_of_le hle hlater]; rfl

end

/-! ### One more wrong try -/

/-- With room for it, the time of the try is kept with the others. -/
lemma recent_count (hroom : limiter.recent.length < maxTotalFailures) :
    (limiter.count device now).recent = limiter.recent ++ [now] := by
  rw [count, if_pos hroom]

/-- Every device that is kept was wrong at one of the recent times, each at one of its own. -/
def Backed : Prop :=
  (limiter.devices.map fun e => e.2.last).Subperm limiter.recent

section

variable (h : limiter.Backed)
include h

lemma Backed.forgetBefore : (limiter.forgetBefore now).Backed := by
  have hmap : (limiter.devices.filter fun e => isRecent now e.2.last).map (fun e => e.2.last)
      = (limiter.devices.map fun e => e.2.last).filter (isRecent now) := by
    rw [filter_map]
    rfl
  show ((limiter.devices.filter fun e => isRecent now e.2.last).map _).Subperm
    (limiter.recent.filter _)
  rw [hmap]
  exact List.Subperm.filter _ h

/-- A backed limiter has no more devices than recent times. -/
lemma Backed.devices_length_le : limiter.devices.length ≤ limiter.recent.length := by
  have hle := List.Subperm.length_le h
  rwa [length_map] at hle

lemma Backed.count (hroom : limiter.recent.length < maxTotalFailures) :
    (limiter.count device now).Backed := by
  have hothers : ((limiter.devices.filter fun e => e.1 ≠ device).map
      fun e => e.2.last).Subperm limiter.recent := (List.filter_sublist.map _).subperm.trans h
  have hcons : (now :: (limiter.devices.filter fun e => e.1 ≠ device).map
      fun e => e.2.last).Subperm (now :: limiter.recent) := (subperm_cons now).mpr hothers
  rw [Backed, recent_count hroom]
  exact hcons.trans (perm_append_singleton now _).symm.subperm

/-- Few recent tries leave nothing to evict. -/
lemma failed_eq (hroom : limiter.countedTotal now < maxTotalFailures) :
    limiter.failed device now = (limiter.forgetBefore now).count device now := by
  have hbacked : ((limiter.forgetBefore now).count device now).Backed := h.forgetBefore.count hroom
  have hfew : ¬ maxTracked < ((limiter.forgetBefore now).count device now).devices.length := by
    have hle := hbacked.devices_length_le
    rw [recent_count hroom, length_append, length_singleton] at hle
    have hcap : maxTotalFailures ≤ maxTracked := by decide
    rw [countedTotal] at hroom
    omega
  rw [failed, evict, if_neg hfew]

end

/-- The entries of the other devices stay when those of one are dropped. -/
lemma find?_others (hne : other ≠ device) :
    ((limiter.devices.filter fun e => e.1 ≠ device).find? fun e => e.1 = other).map Prod.snd
      = limiter.entry other := by
  rw [find?_filter limiter.nodup, entry]
  cases hfind : limiter.devices.find? fun e => e.1 = other with
  | none => rfl
  | some e =>
    have hother : e.1 = other := by simpa using find?_some hfind
    have hkept : e.1 ≠ device := hother ▸ hne
    simp [Option.filter, hkept]

lemma entry_count : (limiter.count device now).entry other =
    if other = device then some ⟨((limiter.entry device).map Failures.count).getD 0 + 1, now⟩
    else limiter.entry other := by
  show (List.find? _ (_ :: _)).map Prod.snd = _
  by_cases hother : other = device
  · subst hother
    rw [if_pos rfl, find?_cons_of_pos (by simp)]
    rfl
  · rw [if_neg hother, find?_cons_of_neg (by simpa using Ne.symm hother)]
    exact find?_others hother

/-- What counts for the other devices stays. -/
lemma counted_count_of_ne (hne : other ≠ device) (hle : now ≤ later) :
    ((limiter.forgetBefore now).count device now).counted other later
      = limiter.counted other later := by
  rw [counted_eq, entry_count, if_neg hne, ← counted_eq, counted_forgetBefore hle]

/-- The try counts for a window, and the earlier ones of the device count with it. -/
lemma counted_count_self (hrecent : isRecent later now = true) :
    ((limiter.forgetBefore now).count device now).counted device later
      = limiter.counted device now + 1 := by
  rw [counted_eq, entry_count, if_pos rfl]
  simp [Option.filter, hrecent, counted]

lemma countedTotal_count (hroom : limiter.countedTotal now < maxTotalFailures) (hle : now ≤ later) :
    ((limiter.forgetBefore now).count device now).countedTotal later
      = limiter.countedTotal later + if isRecent later now then 1 else 0 := by
  have hrest : ((limiter.forgetBefore now).recent.filter (isRecent later)).length
      = limiter.countedTotal later := countedTotal_forgetBefore hle
  show (((limiter.forgetBefore now).count device now).recent.filter (isRecent later)).length = _
  rw [recent_count hroom, filter_append, length_append, hrest]
  cases h : isRecent later now <;> simp [h]

/-! ### A sign-in -/

lemma Backed.succeeded (h : limiter.Backed) : (limiter.succeeded device).Backed :=
  (List.filter_sublist.map _).subperm.trans h

lemma counted_succeeded_of_ne (hne : other ≠ device) :
    (limiter.succeeded device).counted other now = limiter.counted other now := by
  have hentry : (limiter.succeeded device).entry other = limiter.entry other := find?_others hne
  rw [counted_eq, hentry, ← counted_eq]

end SignInLimiter

end Ket.Share
