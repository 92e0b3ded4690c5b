import Ket.Server.Metering

/-!
# What one record of usage does (`ket-server/src/service.rs`, `record_usage`)

A record that succeeds adds to the running total of each grant what the sessions of that grant have
moved, and ends the sessions of the grants whose allowance is then used up.  Nothing else changes:
the other fields of a grant, the grants without an allowance and the sessions of the other grants
stay as they were.
-/

namespace Ket.Server

open Ket.Core Ket.Lib

namespace PersistedState

/-- The running totals are 64-bit numbers. -/
def TotalsFit (s : PersistedState) : Prop :=
  ∀ g ∈ s.grants, ∀ usage ∈ g.usage, usage.usedBytes ≤ u64Max

end PersistedState

namespace AccessGrantRecord

variable {g : AccessGrantRecord}

lemma used_le (h : ∀ usage ∈ g.usage, usage.usedBytes ≤ u64Max) (now : ℕ) :
    g.used now ≤ u64Max := by
  unfold used
  split
  · rename_i allowance usage _ husage
    split
    · exact h usage husage
    · exact Nat.zero_le _
  · exact Nat.zero_le _

lemma add_eq_usage (g : AccessGrantRecord) (bytes now : ℕ) :
    g.add bytes now = { g with usage := (g.add bytes now).usage } := by
  obtain ⟨usage, heq, -⟩ := g.add_eq bytes now
  rw [heq]

lemma used_add (hsome : g.allowance.isSome = true) {bytes now : ℕ} (hfit : g.used now ≤ u64Max) :
    (g.add bytes now).used now = saturatingAdd (g.used now) bytes := by
  obtain ⟨a, ha⟩ := Option.isSome_iff_exists.mp hsome
  by_cases hbytes : bytes = 0
  · -- nothing is written, and the old total is still that of this period
    rw [hbytes, add_zero]
    exact (min_eq_left hfit).symm
  · simp [add, used, ha, hbytes]

end AccessGrantRecord

/-! ### The sessions that end -/

lemma isUsedUp_eq_true {grants : List AccessGrantRecord} {now : ℕ} {x : SessionRecord} :
    isUsedUp grants now x = true ↔
      ∃ g ∈ grants, (g.usedUpUntil now).isSome = true ∧ g.id = x.grantId := by
  simp [isUsedUp]

lemma isUsedUp_eq_false {grants : List AccessGrantRecord} {now : ℕ} {x : SessionRecord} :
    isUsedUp grants now x = false ↔ ∀ g ∈ grants, g.id = x.grantId → g.usedUpUntil now = none := by
  rw [← Bool.not_eq_true, isUsedUp_eq_true]
  constructor
  · intro h g hg hid
    by_contra hused
    exact h ⟨g, hg, Option.isSome_iff_ne_none.mpr hused, hid⟩
  · rintro h ⟨g, hg, hused, hid⟩
    rw [h g hg hid] at hused
    cases hused

/-! ### The record as a whole -/

/-- **Usage recording is exact.**  When a record succeeds, the total of each grant with an allowance
has grown by what its sessions have moved, up to the largest 64-bit number, and nothing else of the
grants has changed; the sessions of the grants whose allowance is now used up are gone and returned
with their slots, and all others are kept in order. -/
theorem recordUsage_exact (C : Crypto) {n : Node} {moved : String → Option ℕ} {now : ℕ}
    {o : StoreOutcome} {ended : List SessionAllocation} (hfit : n.state.TotalsFit)
    (h : (n.recordUsage C moved now o).2 = .ok ended) :
    let s := n.state
    let s' := (n.recordUsage C moved now o).1.state
    (∃ charged : AccessGrantRecord → AccessGrantRecord, s'.grants = s.grants.map charged ∧
      ∀ g ∈ s.grants, (g.allowance = none → charged g = g) ∧
        (g.allowance.isSome = true → (charged g).used now
          = saturatingAdd (g.used now) (min (chargeOf s moved g.id) u64Max)) ∧
        charged g = { g with usage := (charged g).usage }) ∧
    (∀ x ∈ s'.sessions, ∀ g ∈ s'.grants, g.id = x.grantId → g.usedUpUntil now = none) ∧
    s'.sessions = s.sessions.filter (fun x =>
      decide (∀ g ∈ s'.grants, g.id = x.grantId → g.usedUpUntil now = none)) ∧
    ended.map (fun a => (a.id, some a.resourceSlot)) = (s.sessions.filter fun x =>
      decide (¬∀ g ∈ s'.grants, g.id = x.grantId → g.usedUpUntil now = none)).map
        fun x => (x.id, x.resourceSlot) := by
  obtain ⟨u, hu, hended, hstate⟩ | ⟨e, he, -⟩ := n.recordUsage_cases C moved now o
  swap
  · rw [he] at h
    cases h
  obtain rfl : u.ended = ended := Except.ok.inj (hended.symm.trans h)
  obtain ⟨hremoved, hnext⟩ := recordUsage_spec hu
  have hgrants : u.next.grants = chargeGrants n.state moved now := by rw [hnext]
  have hsessions : u.next.sessions = n.state.sessions.filter fun x =>
      !(isUsedUp (chargeGrants n.state moved now) now x) := by rw [hnext]
  -- the filter of the code, in terms of the grants after the record
  have hkept : ∀ x : SessionRecord, (!(isUsedUp (chargeGrants n.state moved now) now x)) = true ↔
      ∀ g ∈ u.next.grants, g.id = x.grantId → g.usedUpUntil now = none := by
    intro x
    rw [Bool.not_eq_true', isUsedUp_eq_false, hgrants]
  simp only [hstate]
  refine ⟨⟨fun g => g.add (min (chargeOf n.state moved g.id) u64Max) now, ?_, ?_⟩, ?_, ?_, ?_⟩
  · rw [hgrants, chargeGrants_eq_add]
  · intro g hg
    refine ⟨fun hnone => ?_, fun hsome => ?_, ?_⟩
    · simp [AccessGrantRecord.add, hnone]
    · exact AccessGrantRecord.used_add hsome (AccessGrantRecord.used_le (hfit g hg) now)
    · exact g.add_eq_usage _ now
  · intro x hx
    rw [hsessions] at hx
    exact (hkept x).mp (List.mem_filter.mp hx).2
  · rw [hsessions]
    refine List.filter_congr fun x _ => ?_
    rw [Bool.eq_iff_iff, hkept, decide_eq_true_iff]
  · rw [map_of_sessionAllocations hremoved]
    congr 1
    refine List.filter_congr fun x _ => ?_
    rw [Bool.eq_iff_iff, decide_eq_true_iff, ← hkept, Bool.not_eq_true', Bool.not_eq_false]

/-- Two devices share 1 MiB, and together they have moved all of it. -/
def Sample.halves : String → Option ℕ := fun id =>
  if id = "Session00001" ∨ id = "Session00002" then some (2 ^ 19) else none

theorem recordUsage_exact_halves :
    ∃ ended, ((⟨Sample.state, Sample.state, 0⟩ : Node).recordUsage Sample.crypto Sample.halves 20
        .stored).2 = .ok ended ∧ ended.map (fun a => (a.id, some a.resourceSlot))
        = [("Session00001", some 0), ("Session00002", some 1)] := by
  have hfit : Sample.state.TotalsFit := by
    simp [PersistedState.TotalsFit, Sample.state, Sample.grant]
  obtain ⟨ended, hok⟩ : ∃ ended, ((⟨Sample.state, Sample.state, 0⟩ : Node).recordUsage
      Sample.crypto Sample.halves 20 .stored).2 = .ok ended :=
    ⟨[⟨"Session00001", 0⟩, ⟨"Session00002", 1⟩], by decide⟩
  exact ⟨ended, hok, (recordUsage_exact Sample.crypto hfit hok).2.2.2.trans (by decide)⟩

end Ket.Server
