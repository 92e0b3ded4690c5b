import Ket.Lib.Check
import Ket.Update.ReleaseDate
import Mathlib.Data.Prod.Lex
import Mathlib.Order.Lattice

/-!
# Releases and how urgent they are (`ket-update/src/category.rs`, `version.rs`, `manifest.rs`)

A manifest is modelled from the point where its JSON has been read.  The ratings of the apps are a
function of the platform, which is what a map with the platforms as its keys is.
-/

namespace Ket.Update

open Ket.Lib

/-- `UpdateCategory`: how urgent a release is, from least to most. -/
inductive UpdateCategory where
  | optional
  | recommended
  | security
  | critical
deriving DecidableEq, Repr

namespace UpdateCategory

def rank : UpdateCategory → ℕ
  | optional => 0
  | recommended => 1
  | security => 2
  | critical => 3

lemma rank_injective : Function.Injective rank := by
  intro a b h
  cases a <;> cases b <;> simp_all [rank]

instance : LinearOrder UpdateCategory := LinearOrder.lift' rank rank_injective

end UpdateCategory

/-- `ClientPlatform`. -/
inductive ClientPlatform where
  | android
  | linux
  | macos
  | windows
deriving DecidableEq, Repr

def ClientPlatform.all : List ClientPlatform := [android, linux, macos, windows]

lemma ClientPlatform.mem_all (platform : ClientPlatform) : platform ∈ all := by
  cases platform <;> decide

/-- `Version`: `MAJOR.MINOR.PATCH`. -/
structure Version where
  major : ℕ
  minor : ℕ
  patch : ℕ
deriving DecidableEq, Repr

namespace Version

/-- The derived order of the three numbers. -/
def key (v : Version) : ℕ ×ₗ ℕ ×ₗ ℕ := toLex (v.major, toLex (v.minor, v.patch))

lemma key_injective : Function.Injective key := by
  rintro ⟨a, b, c⟩ ⟨a', b', c'⟩ h
  simp only [key, EmbeddingLike.apply_eq_iff_eq, Prod.mk.injEq] at h
  obtain ⟨rfl, rfl, rfl⟩ := h
  rfl

instance : LinearOrder Version := LinearOrder.lift' key key_injective

/-- The text of a version. -/
def text (v : Version) : String := toString v.major ++ "." ++ toString v.minor ++ "." ++ toString v.patch

end Version

/-- `UpdateError`, as far as manifests and policies fail. -/
inductive UpdateError where
  | invalidManifest (message : String)
  | invalidPolicy (message : String)
deriving DecidableEq, Repr

def schemaVersion : ℕ := 1
def maxSummaryChars : ℕ := 200

/-- `Release`: one release and how urgent it is for apps and for servers. -/
structure Release where
  version : Version
  published : String
  client : Option UpdateCategory
  server : Option UpdateCategory
  apps : ClientPlatform → Option UpdateCategory
  summary : String
  publishedEpochSeconds : ℕ

namespace Release

/-- `apps.is_empty()`. -/
def appsIsEmpty (r : Release) : Bool := ClientPlatform.all.all fun platform => (r.apps platform).isNone

/-- `apps.values().max()`. -/
def mostUrgentApp (r : Release) : Option UpdateCategory :=
  (ClientPlatform.all.filterMap r.apps).max?

/-- `Release::client_rating`: how urgent the release is for an app.  Apps that do not name their
platform get `client`. -/
def clientRating (r : Release) (platform : Option ClientPlatform) : Option UpdateCategory :=
  match platform with
  | some platform => if r.appsIsEmpty then r.client else r.apps platform
  | none => r.client

end Release

/-- `ReleaseManifest`. -/
structure ReleaseManifest where
  schema : ℕ
  securityGraceDays : ℕ
  /-- Oldest first. -/
  releases : List Release

namespace ReleaseManifest

variable (m : ReleaseManifest)

/-- `ReleaseManifest::security_grace_seconds`. -/
def securityGraceSeconds : ℕ := m.securityGraceDays * Core.secondsPerDay

/-- The releases after `installed`, up to and including `target`. -/
def between (installed target : Version) : List Release :=
  m.releases.filter fun r => decide (installed < r.version ∧ r.version ≤ target)

/-- `ReleaseManifest::server_update_category`. -/
def serverUpdateCategory (installed target : Version) :
    Option UpdateCategory :=
  ((m.between installed target).flatMap fun r => [r.server, r.client].filterMap id).max?

/-- `ReleaseManifest::app_update_category`. -/
def appUpdateCategory (installed target : Version)
    (platform : ClientPlatform) : Option UpdateCategory :=
  ((m.between installed target).filterMap fun r => r.clientRating (some platform)).max?

/-- The day of a release; `parse_date` answers every text (`exists_parseDate`). -/
def publishedDay (value : String) : Option ℕ :=
  match parseDate value with
  | .ok day => day
  | .error _ => none

/-- The tests of a summary. -/
def validSummary (summary : String) : Bool :=
  !(Str.trim summary).isEmpty && decide (summary = Str.trim summary) &&
    decide (summary.toList.length ≤ maxSummaryChars) && !(summary.toList.any Str.isControl)

/-- One pass of the loop of `validate`, after the release `before`: the release with its
publication time. -/
def validateRelease (before : Option Release) (r : Release) : Except UpdateError Release := do
  require (!(before.any fun b => decide (r.version ≤ b.version)))
    (.invalidManifest (r.version.text ++ " is not newer than the release before it"))
  let day ← okOr (publishedDay r.published)
    (.invalidManifest (r.version.text ++ " has an invalid published date"))
  require (validSummary r.summary) (.invalidManifest (r.version.text ++ " has an invalid summary"))
  require (r.appsIsEmpty || decide (r.client = r.mostUrgentApp))
    (.invalidManifest (r.version.text ++
      " needs a client rating equal to its most urgent app rating"))
  return { r with publishedEpochSeconds := day * Core.secondsPerDay }

/-- The loop of `validate`. -/
def validateReleases (before : Option Release) : List Release → Except UpdateError (List Release)
  | [] => .ok []
  | r :: rs => do
      let checked ← validateRelease before r
      let rest ← validateReleases (some checked) rs
      return checked :: rest

/-- `ReleaseManifest::validate`. -/
def validate : Except UpdateError ReleaseManifest := do
  require (decide (m.schema = schemaVersion))
    (.invalidManifest ("unsupported schema " ++ toString m.schema))
  require (decide (1 ≤ m.securityGraceDays ∧ m.securityGraceDays ≤ 365))
    (.invalidManifest "security_grace_days must be 1-365")
  require (!m.releases.isEmpty) (.invalidManifest "there are no releases")
  let releases ← validateReleases none m.releases
  return { m with releases }

end ReleaseManifest

/-! ### What validation guarantees -/

namespace Release

/-- A release whose apps are rated one by one rates unnamed apps as the most urgent of them. -/
def Rated (r : Release) : Prop := r.appsIsEmpty = true ∨ r.client = r.mostUrgentApp

variable {r : Release}

/-- No app is rated more urgent than an app that does not name its platform. -/
lemma Rated.clientRating_le (h : r.Rated) {platform : Option ClientPlatform} {c : UpdateCategory}
    (hc : r.clientRating platform = some c) : ∃ c', r.clientRating none = some c' ∧ c ≤ c' := by
  cases platform with
  | none => exact ⟨c, hc, le_rfl⟩
  | some platform =>
    cases hempty : r.appsIsEmpty with
    | true =>
      rw [clientRating, hempty] at hc
      exact ⟨c, hc, le_rfl⟩
    | false =>
      rw [clientRating, hempty] at hc
      have hmem : c ∈ ClientPlatform.all.filterMap r.apps :=
        List.mem_filterMap.mpr ⟨platform, platform.mem_all, hc⟩
      have hclient : r.client = r.mostUrgentApp := h.resolve_left (by simp [hempty])
      cases hmax : r.mostUrgentApp with
      | none =>
        rw [mostUrgentApp, List.max?_eq_none_iff] at hmax
        rw [hmax] at hmem
        cases hmem
      | some c' =>
        exact ⟨c', hclient.trans hmax, (List.max?_eq_some_iff.mp hmax).2 c hmem⟩

end Release

namespace ReleaseManifest

variable {m m' : ReleaseManifest}

lemma of_validateRelease {before : Option Release} {r r' : Release}
    (h : validateRelease before r = .ok r') : r'.Rated := by
  obtain ⟨-, h⟩ := require_bind_eq_ok.mp h
  obtain ⟨day, -, h⟩ := bind_eq_ok.mp h
  obtain ⟨-, h⟩ := require_bind_eq_ok.mp h
  obtain ⟨hrated, h⟩ := require_bind_eq_ok.mp h
  cases h
  rw [Bool.or_eq_true, decide_eq_true_eq] at hrated
  exact hrated

lemma of_validateReleases {before : Option Release} {rs rs' : List Release}
    (h : validateReleases before rs = .ok rs') : ∀ r ∈ rs', r.Rated := by
  induction rs generalizing before rs' with
  | nil =>
    cases h
    simp
  | cons r rs ih =>
    obtain ⟨checked, hchecked, h⟩ := bind_eq_ok.mp h
    obtain ⟨rest, hrest, h⟩ := bind_eq_ok.mp h
    cases h
    intro r' hr'
    rcases List.mem_cons.mp hr' with rfl | hr'
    · exact of_validateRelease hchecked
    · exact ih hrest r' hr'

/-- Every release of a validated manifest is rated for unnamed apps as for the most urgent app. -/
lemma rated_of_validate (h : m.validate = .ok m') : ∀ r ∈ m'.releases, r.Rated := by
  obtain ⟨-, h⟩ := require_bind_eq_ok.mp h
  obtain ⟨-, h⟩ := require_bind_eq_ok.mp h
  obtain ⟨-, h⟩ := require_bind_eq_ok.mp h
  obtain ⟨releases, hreleases, h⟩ := bind_eq_ok.mp h
  cases h
  exact of_validateReleases hreleases

end ReleaseManifest

end Ket.Update
