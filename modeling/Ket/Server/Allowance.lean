import Ket.Server.Model

/-!
# The running total of an allowance (`ket-server/src/allowance.rs`)

A total from an earlier period counts as nothing.
-/

namespace Ket.Server

open Ket.Core Ket.Lib

namespace AccessGrantRecord

variable (g : AccessGrantRecord)

/-- `allowance::used`: what the grant's devices have moved this period. -/
def used (now : ℕ) : ℕ :=
  match g.allowance, g.usage with
  | some allowance, some usage =>
    if usage.periodStart = allowance.period.start now then usage.usedBytes else 0
  | _, _ => 0

/-- `allowance::status`. -/
def status (now : ℕ) : Option AllowanceStatus :=
  g.allowance.map fun allowance => ⟨allowance, g.used now, allowance.period.endsAt now⟩

/-- `allowance::used_up_until`: when the allowance is used up, the time it resets. -/
def usedUpUntil (now : ℕ) : Option ℕ :=
  ((g.status now).filter AllowanceStatus.isUsedUp).map AllowanceStatus.resetsAt

/-- `allowance::add`: a grant without an allowance counts nothing. -/
def add (bytes now : ℕ) : AccessGrantRecord :=
  match g.allowance with
  | none => g
  | some allowance =>
    if bytes = 0 then g
    else { g with usage := some ⟨allowance.period.start now, saturatingAdd (g.used now) bytes⟩ }

/-- Adding to the total changes nothing else, and only under an allowance. -/
lemma add_eq (bytes now : ℕ) :
    ∃ usage, g.add bytes now = { g with usage } ∧ (g.allowance = none → usage = g.usage) := by
  unfold add
  split
  · exact ⟨g.usage, rfl, fun _ => rfl⟩
  · rename_i hsome
    split
    · exact ⟨g.usage, rfl, fun _ => rfl⟩
    · exact ⟨_, rfl, fun h => absurd (hsome.symm.trans h) (by simp)⟩

end AccessGrantRecord

end Ket.Server
