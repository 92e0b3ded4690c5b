import Ket.Lib.Word
import Ket.Server.Sealed

/-!
# The clock of sealed requests (`ket-client-core/src/sealed_control.rs`)

The server refuses a sealed request whose time is more than 300 seconds from its own.  The device
then takes over the server's time from the answer and tries once more.  Both clocks are read in whole
seconds, so that two readings of each may be off by almost a second: `later_request_skewed` is a
request that is on its way for less than 300 seconds and is refused.
-/

namespace Ket.Client

open Ket.Lib Ket.Server

def i64Max : ℕ := 2 ^ 63 - 1

/-- `saturating_offset`. -/
def saturatingOffset (server device : ℕ) : ℤ :=
  if device ≤ server then
    if server - device ≤ i64Max then (server - device : ℕ) else i64Max
  else if device - server ≤ i64Max then -(device - server : ℕ) else -2 ^ 63

/-- `SealedControl::now`, with `saturating_add_signed`. -/
def sealedNow (device : ℕ) (offset : ℤ) : ℕ := min (device + offset).toNat u64Max

/-- What the clocks of the device and of the server show at time zero, in nanoseconds.  They advance
equally. -/
structure Clocks where
  device : ℕ
  server : ℕ

def nanosPerSecond : ℕ := 1000000000

/-- `unix_time` on the device. -/
def Clocks.deviceTime (c : Clocks) (t : ℕ) : ℕ := (c.device + t) / nanosPerSecond

/-- `unix_time` on the server. -/
def Clocks.serverTime (c : Clocks) (t : ℕ) : ℕ := (c.server + t) / nanosPerSecond

/-- A request: when its time is set, when the server looks at it, and when the answer is read, if one
comes. -/
structure Trip where
  sent : ℕ
  arrived : ℕ
  answered : Option ℕ

/-- The server refuses the request for its time. -/
def skewed (c : Clocks) (offset : ℤ) (t : Trip) : Bool :=
  decide (sealedMaxClockSkewSeconds <
    absDiff (sealedNow (c.deviceTime t.sent) offset) (c.serverTime t.arrived))

/-- `exchange`: the stored offset after it, and the requests that were sent. -/
def exchange (c : Clocks) (offset : ℤ) (first retry : Trip) : ℤ × List Trip :=
  match first.answered with
  | some answered =>
    if skewed c offset first then
      (saturatingOffset (c.serverTime first.arrived) (c.deviceTime answered), [first, retry])
    else (offset, [first])
  | none => (offset, [first])

/-- With the offset of an answer, a request passes if the server's readings since the answer's stamp
are not too far ahead of the device's since it read the answer. -/
lemma skewed_eq_false {c : Clocks} {stamped read : ℕ} {t : Trip} (hread : stamped ≤ read)
    (hsent : read ≤ t.sent) (harrived : t.sent ≤ t.arrived)
    (hfits : absDiff (c.serverTime stamped) (c.deviceTime read) ≤ i64Max)
    (hserver : c.serverTime t.arrived ≤ u64Max) (hnear : c.serverTime t.arrived + c.deviceTime read
      ≤ c.serverTime stamped + c.deviceTime t.sent + sealedMaxClockSkewSeconds) :
    skewed c (saturatingOffset (c.serverTime stamped) (c.deviceTime read)) t = false := by
  have hdevice : c.deviceTime read ≤ c.deviceTime t.sent := by
    simp only [Clocks.deviceTime, nanosPerSecond]
    omega
  -- the clocks advance equally, but for the part of a second
  have hahead : c.serverTime stamped + c.deviceTime t.sent
      ≤ c.serverTime t.arrived + c.deviceTime read + 1 := by
    simp only [Clocks.deviceTime, Clocks.serverTime, nanosPerSecond]
    omega
  have hoffset : saturatingOffset (c.serverTime stamped) (c.deviceTime read)
      = (c.serverTime stamped : ℤ) - c.deviceTime read := by
    unfold saturatingOffset
    unfold absDiff at hfits
    split_ifs <;> omega
  have hnow : sealedNow (c.deviceTime t.sent) ((c.serverTime stamped : ℤ) - c.deviceTime read)
      = min (c.serverTime stamped + c.deviceTime t.sent - c.deviceTime read) u64Max := by
    unfold sealedNow
    congr 1
    omega
  rw [skewed, hoffset, hnow, decide_eq_false_iff_not, not_lt]
  unfold absDiff
  rw [sealedMaxClockSkewSeconds] at hnear ⊢
  omega

/-- **The clock correction suffices.**  An exchange sends at most two requests.  After a refusal for
the time, a retry that arrives within 300 seconds of the refusal is not refused for its time, and
neither is a later request that is on its way for no more than 299 seconds, together with the
refusal. -/
theorem clock_correction (c : Clocks) (offset : ℤ) (first retry : Trip) :
    (exchange c offset first retry).2.length ≤ 2 ∧
      ∀ answered, first.answered = some answered → skewed c offset first = true →
        first.arrived ≤ answered →
        absDiff (c.serverTime first.arrived) (c.deviceTime answered) ≤ i64Max →
        (answered ≤ retry.sent → retry.sent ≤ retry.arrived → c.serverTime retry.arrived ≤ u64Max →
          retry.arrived < first.arrived + 300 * nanosPerSecond →
          skewed c (exchange c offset first retry).1 retry = false) ∧
        ∀ later : Trip, answered ≤ later.sent → later.sent ≤ later.arrived →
          c.serverTime later.arrived ≤ u64Max →
          (later.arrived - later.sent) + (answered - first.arrived) ≤ 299 * nanosPerSecond →
          skewed c (exchange c offset first retry).1 later = false := by
  refine ⟨?_, fun answered hanswered hskewed hread hfits => ?_⟩
  · unfold exchange
    split
    · split <;> simp
    · simp
  have hexchange : (exchange c offset first retry).1
      = saturatingOffset (c.serverTime first.arrived) (c.deviceTime answered) := by
    rw [exchange, hanswered]
    simp only [if_pos hskewed]
  rw [hexchange]
  refine ⟨fun hsent harrived hserver hsoon => ?_, fun later hsent harrived hserver hsoon => ?_⟩
  all_goals
    refine skewed_eq_false hread hsent harrived hfits hserver ?_
    simp only [Clocks.deviceTime, Clocks.serverTime, sealedMaxClockSkewSeconds,
      nanosPerSecond] at hsoon ⊢
    omega

theorem clock_correction_slow_device :
    skewed ⟨0, 1000000000000⟩ (exchange ⟨0, 1000000000000⟩ 0 ⟨0, 0, some 0⟩ ⟨0, 0, none⟩).1
      ⟨0, 299000000000, none⟩ = false :=
  ((clock_correction ⟨0, 1000000000000⟩ 0 ⟨0, 0, some 0⟩ ⟨0, 0, none⟩).2 0 rfl (by decide)
    (by decide) (by decide)).2 _ (by decide) (by decide) (by decide) (by decide)

/-- The server's clock is about to show the next second when it refuses the first request, and the
device's when it sends the later one, which then is on its way for 299.95 seconds. -/
theorem later_request_skewed :
    let c : Clocks := ⟨0, 1000999000000⟩
    let later : Trip := ⟨900000000, 300850000000, none⟩
    skewed c 0 ⟨0, 0, some 0⟩ = true ∧ later.arrived - later.sent < 300 * nanosPerSecond ∧
      skewed c (exchange c 0 ⟨0, 0, some 0⟩ ⟨0, 0, none⟩).1 later = true := by
  decide +kernel

end Ket.Client
