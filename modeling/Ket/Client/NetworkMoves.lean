import Ket.Client.RouteKeeper

/-!
# Which moves are reported

Carriers that are bound to a path are relaunched when the generation of the report goes up.  A
refresh remembers in `moved` that it has replaced a path, and forgets it when a later action fails;
the next refresh finds the replaced path in place.  `moves_reported` is about runs in which no action
fails after a move.
-/

namespace Ket.Client.Routes

open Ket.Lib
open Ket.Tunnel (IpPrefix)

/-- The generation before the first of the replaced paths that no refresh has come to the end of
since. -/
def replacedAfter (replaced : Option ℕ) (s : KeeperState) : KeeperEvent → Option ℕ
  | .act true =>
    match s.work with
    | .refreshing (.install _ path (some old) :: _) _ =>
      if path ≠ old then some (replaced.getD s.report.generation) else replaced
    | _ => replaced
  | .finish => none
  | _ => replaced

/-- The keeper and the replaced paths. -/
def Setup.moveSystem (S : Setup) : System (KeeperState × Option ℕ) KeeperEvent :=
  S.system.withHistory none replacedAfter

/-- An action does not fail once the refresh has replaced or removed a path. -/
def keepsMove (s : KeeperState) : KeeperEvent → Bool
  | .act false =>
    match s.work with
    | .refreshing _ moved => !moved
    | _ => true
  | _ => true

/-- What was replaced is known to the refresh that is under way. -/
def Remembered (s : KeeperState × Option ℕ) : Prop :=
  ∀ g ∈ s.2, s.1.report.generation = g ∧ ∃ actions, s.1.work = .refreshing actions true

lemma Remembered.step {S : Setup} {s s' : KeeperState} {replaced : Option ℕ} {e : KeeperEvent}
    (h : Remembered (s, replaced)) (hkeeps : keepsMove s e = true) (hstep : S.step s e = some s') :
    Remembered (s', replacedAfter replaced s e) := by
  -- with other work before it the keeper has nothing to report
  have hother : (∀ actions, s.work ≠ .refreshing actions true) → replaced = none := fun hwork =>
    Option.eq_none_iff_forall_not_mem.mpr fun g hg => by
      obtain ⟨-, actions, hactions⟩ := h g hg
      exact hwork actions hactions
  have hnone : ∀ t, replaced = none → Remembered (t, replaced) := by
    rintro t rfl g hg
    cases hg
  cases S.stepped hstep with
  | cleared => exact h
  | uncleared => exact h
  | tick => exact h
  | abort => exact h
  | finish => exact fun g hg => by cases hg
  | firstLook hwork | look hwork | released hwork => exact hnone _ (hother (by simp [hwork]))
  | lock _ hwork | removal _ hwork => exact hnone _ (hother (by simp [hwork]))
  | fail hwork =>
    simp only [keepsMove, hwork, Bool.not_eq_true'] at hkeeps
    exact hnone _ (hother (by simp [hwork, hkeeps]))
  | @act action actions moved hwork =>
    have hkept : Remembered ({ s with
        table := action.carryOut s.table
        applied := action.carryOut s.applied
        work := .refreshing actions (moved || action.moves) }, replaced) := by
      intro g hg
      obtain ⟨hgeneration, _, hactions⟩ := h g hg
      rw [hwork] at hactions
      cases hactions
      exact ⟨hgeneration, actions, rfl⟩
    cases action with
    | remove destination path => simpa only [replacedAfter, hwork] using hkept
    | install destination path replacing =>
      cases replacing with
      | none => simpa only [replacedAfter, hwork] using hkept
      | some old =>
        simp only [replacedAfter, hwork]
        split
        · intro g hg
          obtain rfl := Option.some.inj hg
          refine ⟨?_, actions, by simp [RouteAction.moves]⟩
          cases replaced with
          | none => rfl
          | some g => exact (h g rfl).1
        · exact hkept

/-- **Moves are reported.**  Where no action fails once the refresh has moved a path, the generation
is higher at the end of the next refresh that succeeds than before a path was replaced. -/
theorem moves_reported {S : Setup} {s s' : KeeperState × Option ℕ}
    (hs : S.moveSystem.Reachable (fun s e => keepsMove s.1 e = true) s)
    (hstep : S.moveSystem.step s .finish = some s') : ∀ g ∈ s.2, g < s'.1.report.generation := by
  have hremembered : Remembered s := by
    refine hs.invariant (fun g hg => by cases hg) ?_
    rintro ⟨s, replaced⟩ e ⟨s', replaced'⟩ - h hkeeps hstep
    obtain ⟨hstep, rfl⟩ := System.withHistory_step.mp hstep
    exact h.step hkeeps hstep
  intro g hg
  obtain ⟨rfl, actions, hactions⟩ := hremembered g hg
  obtain ⟨hstep, -⟩ := System.withHistory_step.mp hstep
  have hstepped : S.Stepped s.1 .finish s'.1 := S.stepped hstep
  generalize s'.1 = t at hstepped
  cases hstepped with
  | finish hwork =>
    rw [hwork] at hactions
    cases hactions
    simp only [KeeperState.refreshed]
    split <;> exact Nat.lt_succ_self _

namespace Sample

/-- `192.168.1.9`, in the network of the Wi-Fi. -/
def printer : IpPrefix := ⟨⟨.v4, 0xc0a80109#32⟩, 32, by decide, by decide⟩

/-- `192.168.1.0/24`. -/
def home : OnLinkNetwork := ⟨⟨⟨.v4, 0xc0a80100#32⟩, 24, by decide, by decide⟩, "wlan0"⟩

def twoDestinations : Setup := ⟨[server, printer], "ket0", .empty⟩

/-- The device moves from the Wi-Fi to the Ethernet, and the route of the first destination is
replaced. -/
def move : List KeeperEvent :=
  [.clearStale true, .look (some [wifi]) (some [home]), .act true, .finish, .tick,
    .look (some [ethernet]) (some []), .act true]

end Sample

theorem moves_reported_ethernet :
    ∃ s s', Sample.twoDestinations.moveSystem.Reachable (fun s e => keepsMove s.1 e = true) s ∧
      Sample.twoDestinations.moveSystem.step s .finish = some s' ∧ s.2 = some 0 ∧
      0 < s'.1.report.generation := by
  obtain ⟨s, hs, hreplaced, hstep⟩ := System.exists_reachable_of_run
    Sample.twoDestinations.moveSystem (fun s e => keepsMove s.1 e = true)
    (fun s => s.2 = some 0 ∧ (Sample.twoDestinations.moveSystem.step s .finish).isSome = true)
    (Sample.move ++ [.act true]) (by decide)
  obtain ⟨s', hstep⟩ := Option.isSome_iff_exists.mp hstep
  exact ⟨s, s', hs, hstep, hreplaced, moves_reported hs hstep 0 hreplaced⟩

/-- The route of the second destination cannot be installed at first.  The refresh that installs it
has not replaced anything. -/
theorem move_unreported : ∃ s s', Sample.twoDestinations.moveSystem.Reachable (fun _ _ => True) s ∧
      Sample.twoDestinations.moveSystem.step s .finish = some s' ∧ s.2 = some 0 ∧
      s'.1.report.generation = 0 := by
  obtain ⟨s, hs, hreplaced, hstep⟩ := System.exists_reachable_of_run
    Sample.twoDestinations.moveSystem (fun _ _ => True)
    (fun s => s.2 = some 0 ∧ ((Sample.twoDestinations.moveSystem.step s .finish).any
      fun s' => s'.1.report.generation == 0) = true)
    (Sample.move ++ [.act false, .tick, .look (some [Sample.ethernet]) (some []), .act true])
    (by decide)
  obtain ⟨s', hstep, hgeneration⟩ := (Option.any_eq_true _ _).mp hstep
  exact ⟨s, s', hs, hstep, hreplaced, eq_of_beq hgeneration⟩

end Ket.Client.Routes
