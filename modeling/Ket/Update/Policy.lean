import Ket.Lib.Word
import Ket.Update.Manifest

/-!
# What a server asks of an app (`ket-update/src/policy.rs`)

`ClientPolicy::evaluate` rates an app against every release after its version, up to the server's.
The loop keeps the most urgent rating and the earliest deadline that has not passed
(`loop_status`, `loop_requiredAfter`); what an app is told over time follows from these two.
-/

namespace Ket.Update

open Ket.Lib List Option

/-- `ClientUpdateStatus`: how strongly the server asks an app to update, from least to most. -/
inductive ClientUpdateStatus where
  | current
  | optional
  | recommended
  | security
  | required
deriving DecidableEq, Repr

namespace ClientUpdateStatus

def rank : ClientUpdateStatus → ℕ
  | current => 0
  | optional => 1
  | recommended => 2
  | security => 3
  | required => 4

lemma rank_injective : Function.Injective rank := by
  intro a b h
  cases a <;> cases b <;> simp_all [rank]

instance : LinearOrder ClientUpdateStatus := LinearOrder.lift' rank rank_injective

lemma current_le (s : ClientUpdateStatus) : current ≤ s := by
  cases s <;> decide

lemma le_required (s : ClientUpdateStatus) : s ≤ required := by
  cases s <;> decide

end ClientUpdateStatus

/-- `Enforcement`: what a server does with apps whose update has become required. -/
inductive Enforcement where
  | enforce
  | warn
deriving DecidableEq, Repr

/-- `ClientIdentity`: which app is asking. -/
structure ClientIdentity where
  /-- None for apps that do not name their platform. -/
  platform : Option ClientPlatform
  version : Version
deriving DecidableEq, Repr

/-- `ClientUpdate`. -/
structure ClientUpdate where
  status : ClientUpdateStatus
  latestVersion : String
  requiredAfter : Option ℕ
  summary : Option String
  downloadUrl : String
deriving DecidableEq, Repr

/-- `ClientPolicy`: a server's rules for the apps that connect to it. -/
structure ClientPolicy where
  serverVersion : Version
  minimum : Option Version
  enforcement : Enforcement
  downloadUrl : String
  minimum_le : ∀ v ∈ minimum, v ≤ serverVersion

namespace ClientPolicy

/-- `ClientPolicy::new`: the operator's minimum cannot be newer than the server. -/
def new (serverVersion : Version) (minimum : Option Version) (enforcement : Enforcement)
    (downloadUrl : String) : Except UpdateError ClientPolicy :=
  if h : ∀ v ∈ minimum, v ≤ serverVersion then
    .ok ⟨serverVersion, minimum, enforcement, downloadUrl, h⟩
  else .error (.invalidPolicy ("the minimum app version cannot be newer than this server (" ++
    serverVersion.text ++ ")"))

/-- When a security release becomes required. -/
def deadline (m : ReleaseManifest) (r : Release) : ℕ :=
  saturatingAdd r.publishedEpochSeconds m.securityGraceSeconds

/-- How strongly a release with this rating asks for the update. -/
def rated (m : ReleaseManifest) (now : ℕ) (r : Release) : UpdateCategory → ClientUpdateStatus
  | .optional => .optional
  | .recommended => .recommended
  | .critical => .required
  | .security => if deadline m r ≤ now then .required else .security

/-- What the loop of `evaluate` carries along. -/
structure Evaluation where
  status : ClientUpdateStatus
  summary : Option String
  requiredAfter : Option ℕ

/-- The deadline that is announced for a release with this rating. -/
def announced (m : ReleaseManifest) (now : ℕ) (r : Release) : UpdateCategory → Option ℕ
  | .security => if deadline m r ≤ now then none else some (deadline m r)
  | _ => none

/-- One pass of the loop. -/
def evaluateRelease (m : ReleaseManifest) (platform : Option ClientPlatform) (now : ℕ)
    (e : Evaluation) (r : Release) : Evaluation :=
  match r.clientRating platform with
  | none => e
  | some category =>
    let e := match announced m now r category with
      | none => e
      | some due => { e with requiredAfter := some (e.requiredAfter.elim due (min · due)) }
    -- releases are oldest first, so ties keep the newest summary
    if e.status ≤ rated m now r category then
      { e with status := rated m now r category, summary := some r.summary }
    else e

/-- What an app is asked before the policy's enforcement. -/
def unenforced (p : ClientPolicy) (m : ReleaseManifest) (client : ClientIdentity) (now : ℕ) :
    Evaluation :=
  match p.minimum.filter fun minimum => decide (client.version < minimum) with
  | some minimum =>
    ⟨.required, some ("This server requires Ket " ++ minimum.text ++ " or newer."), none⟩
  | none =>
    (m.between client.version p.serverVersion).foldl (evaluateRelease m client.platform now)
      ⟨.current, none, none⟩

/-- `ClientPolicy::evaluate`. -/
def evaluate (p : ClientPolicy) (m : ReleaseManifest) (client : ClientIdentity) (now : ℕ) :
    ClientUpdate :=
  let e := p.unenforced m client now
  let e := if e.status = .required ∧ p.enforcement = .warn then
      { e with status := .security, requiredAfter := none }
    else e
  { status := e.status
    latestVersion := p.serverVersion.text
    requiredAfter := if e.status = .security then e.requiredAfter else none
    summary := e.summary
    downloadUrl := p.downloadUrl }

/-! ### What the loop computes -/

section Loop

variable (m : ReleaseManifest) (platform : Option ClientPlatform) (now : ℕ)

/-- What a release asks of an app on the platform. -/
def asks (r : Release) : Option ClientUpdateStatus :=
  (r.clientRating platform).map (rated m now r)

/-- The deadline that a release announces to an app on the platform. -/
def due (r : Release) : Option ℕ := (r.clientRating platform).bind (announced m now r)

/-- The most urgent of some requests. -/
def mostUrgent (requests : List ClientUpdateStatus) : ClientUpdateStatus :=
  requests.foldl max .current

lemma evaluateRelease_status (e : Evaluation) (r : Release) :
    (evaluateRelease m platform now e r).status =
      (asks m platform now r).elim e.status (max e.status) := by
  unfold evaluateRelease asks
  cases r.clientRating platform with
  | none => rfl
  | some category =>
    simp only [map_some, elim_some]
    cases announced m now r category <;> simp only <;> split_ifs with hle
    · exact (max_eq_right hle).symm
    · exact (max_eq_left (le_of_not_ge hle)).symm
    · exact (max_eq_right hle).symm
    · exact (max_eq_left (le_of_not_ge hle)).symm

lemma evaluateRelease_requiredAfter (e : Evaluation) (r : Release) :
    (evaluateRelease m platform now e r).requiredAfter = (due m platform now r).elim e.requiredAfter
        fun d => some (e.requiredAfter.elim d (min · d)) := by
  unfold evaluateRelease due
  cases r.clientRating platform with
  | none => rfl
  | some category =>
    simp only [bind_some]
    cases announced m now r category <;> simp only <;> split_ifs <;> rfl

lemma loop_status (rs : List Release) (e : Evaluation) :
    (rs.foldl (evaluateRelease m platform now) e).status =
      (rs.filterMap (asks m platform now)).foldl max e.status := by
  induction rs generalizing e with
  | nil => rfl
  | cons r rs ih =>
    rw [foldl_cons, ih, evaluateRelease_status, filterMap_cons]
    cases asks m platform now r <;> rfl

lemma min?_concat (ds : List ℕ) (d : ℕ) : (ds ++ [d]).min? = some (ds.min?.elim d (min · d)) := by
  cases ds with
  | nil => rfl
  | cons a ds =>
    rw [cons_append, min?_cons', min?_cons', foldl_append]
    rfl

lemma loop_requiredAfter (rs : List Release) (e : Evaluation) (ds : List ℕ)
    (h : e.requiredAfter = ds.min?) : (rs.foldl (evaluateRelease m platform now) e).requiredAfter =
      (ds ++ rs.filterMap (due m platform now)).min? := by
  induction rs generalizing e ds with
  | nil => simpa using h
  | cons r rs ih =>
    have hstep := evaluateRelease_requiredAfter m platform now e r
    rw [foldl_cons, filterMap_cons]
    cases hdue : due m platform now r with
    | none =>
      rw [hdue] at hstep
      exact ih _ ds (hstep.trans h)
    | some d =>
      rw [hdue, elim_some, h, ← min?_concat] at hstep
      rw [ih _ (ds ++ [d]) hstep, append_assoc]
      rfl

variable {m platform now}

variable {requests : List ClientUpdateStatus} {s : ClientUpdateStatus}

lemma mostUrgent_le_iff : mostUrgent requests ≤ s ↔ ∀ request ∈ requests, request ≤ s := by
  suffices h : ∀ start, requests.foldl max start ≤ s ↔
      start ≤ s ∧ ∀ request ∈ requests, request ≤ s by
    exact (h .current).trans (and_iff_right s.current_le)
  induction requests with
  | nil => simp
  | cons request requests ih =>
    intro start
    rw [foldl_cons, ih, max_le_iff, forall_mem_cons, and_assoc]

lemma le_mostUrgent (h : s ∈ requests) : s ≤ mostUrgent requests :=
  mostUrgent_le_iff.mp le_rfl s h

lemma mostUrgent_mono {requests' : List ClientUpdateStatus}
    (h : ∀ s ∈ requests, ∃ s' ∈ requests', s ≤ s') :
    mostUrgent requests ≤ mostUrgent requests' := by
  rw [mostUrgent_le_iff]
  intro s hs
  obtain ⟨s', hs', hle⟩ := h s hs
  exact hle.trans (le_mostUrgent hs')

lemma rated_mono_time {later : ℕ} (h : now ≤ later) (r : Release) (c : UpdateCategory) :
    rated m now r c ≤ rated m later r c := by
  cases c with
  | security =>
    simp only [rated]
    split_ifs <;> first | decide | omega
  | _ => exact le_rfl

lemma rated_mono_category {c c' : UpdateCategory} (h : c ≤ c') (r : Release) :
    rated m now r c ≤ rated m now r c' := by
  cases c <;> cases c' <;> simp only [rated]
  all_goals first | exact le_rfl | (split_ifs <;> decide) | decide | exact absurd h (by decide)

end Loop

/-! ### What an app is told -/

variable {p : ClientPolicy} {m : ReleaseManifest} {client : ClientIdentity} {now : ℕ}

/-- The app is older than the operator's minimum. -/
def isBelowMinimum (p : ClientPolicy) (client : ClientIdentity) : Bool :=
  p.minimum.any fun minimum => decide (client.version < minimum)

/-- What the releases newer than the app, up to the server's version, ask of it. -/
def requests (p : ClientPolicy) (m : ReleaseManifest) (client : ClientIdentity) (now : ℕ) :
    List ClientUpdateStatus :=
  (m.between client.version p.serverVersion).filterMap (asks m client.platform now)

/-- What a server that only warns says instead of a request. -/
def enforced (p : ClientPolicy) (s : ClientUpdateStatus) : ClientUpdateStatus :=
  if s = .required ∧ p.enforcement = .warn then .security else s

lemma enforced_mono {s s' : ClientUpdateStatus} (h : s ≤ s') : p.enforced s ≤ p.enforced s' := by
  unfold enforced
  cases p.enforcement <;> cases s <;> cases s' <;> first | decide | exact absurd h (by decide)

lemma enforced_ne_required (h : p.enforcement = .warn) (s : ClientUpdateStatus) :
    p.enforced s ≠ .required := by
  unfold enforced
  cases s <;> simp [h]

lemma unenforced_of_below (h : p.isBelowMinimum client = true) :
    (p.unenforced m client now).status = .required := by
  unfold isBelowMinimum at h
  unfold unenforced
  cases hmin : p.minimum with
  | none => simp [hmin] at h
  | some minimum =>
    rw [hmin, any_some] at h
    simp [Option.filter, h]

lemma unenforced_of_not_below (h : p.isBelowMinimum client = false) :
    p.unenforced m client now = (m.between client.version p.serverVersion).foldl
      (evaluateRelease m client.platform now) ⟨.current, none, none⟩ := by
  unfold isBelowMinimum at h
  unfold unenforced
  cases hmin : p.minimum with
  | none => rfl
  | some minimum =>
    rw [hmin, any_some] at h
    simp [Option.filter, h]

/-- **The status an app is told.** -/
lemma evaluate_status (p : ClientPolicy) (m : ReleaseManifest) (client : ClientIdentity) (now : ℕ) :
    (p.evaluate m client now).status = p.enforced
      (if p.isBelowMinimum client then .required else mostUrgent (p.requests m client now)) := by
  have hstatus : (p.unenforced m client now).status =
      if p.isBelowMinimum client then .required else mostUrgent (p.requests m client now) := by
    cases hbelow : p.isBelowMinimum client with
    | true => exact unenforced_of_below hbelow
    | false =>
      rw [unenforced_of_not_below hbelow, loop_status]
      rfl
  rw [← hstatus]
  unfold evaluate enforced
  simp only
  split_ifs <;> rfl

lemma mem_requests {s : ClientUpdateStatus} :
    s ∈ p.requests m client now ↔ ∃ r ∈ m.between client.version p.serverVersion,
      ∃ c, r.clientRating client.platform = some c ∧ rated m now r c = s := by
  simp only [requests, asks, mem_filterMap, map_eq_some_iff]

lemma evaluate_status_mono {client' : ClientIdentity} {now' : ℕ}
    (hbelow : p.isBelowMinimum client = true → p.isBelowMinimum client' = true)
    (h : ∀ s ∈ p.requests m client now, ∃ s' ∈ p.requests m client' now', s ≤ s') :
    (p.evaluate m client now).status ≤ (p.evaluate m client' now').status := by
  rw [evaluate_status, evaluate_status]
  refine enforced_mono ?_
  cases hclient : p.isBelowMinimum client with
  | true => simp [hbelow hclient]
  | false =>
    cases p.isBelowMinimum client' with
    | true => exact ClientUpdateStatus.le_required _
    | false => exact mostUrgent_mono h

/-- As time passes the request becomes no less urgent. -/
lemma evaluate_mono_time {later : ℕ} (h : now ≤ later) :
    (p.evaluate m client now).status ≤ (p.evaluate m client later).status := by
  refine evaluate_status_mono id fun s hs => ?_
  obtain ⟨r, hr, c, hc, rfl⟩ := mem_requests.mp hs
  exact ⟨_, mem_requests.mpr ⟨r, hr, c, hc, rfl⟩, rated_mono_time h r c⟩

/-- An older app is asked for no less. -/
lemma evaluate_mono_version {version : Version} (h : version ≤ client.version) :
    (p.evaluate m client now).status ≤ (p.evaluate m { client with version } now).status := by
  refine evaluate_status_mono ?_ fun s hs => ?_
  · unfold isBelowMinimum
    cases p.minimum with
    | none => simp
    | some minimum =>
      simp only [any_some, decide_eq_true_eq]
      exact lt_of_le_of_lt h
  · obtain ⟨r, hr, c, hc, rfl⟩ := mem_requests.mp hs
    refine ⟨_, mem_requests.mpr ⟨r, ?_, c, hc, rfl⟩, le_rfl⟩
    obtain ⟨hmem, hnew⟩ := List.mem_filter.mp hr
    obtain ⟨hlow, hhigh⟩ := of_decide_eq_true hnew
    exact List.mem_filter.mpr ⟨hmem, decide_eq_true ⟨lt_of_le_of_lt h hlow, hhigh⟩⟩

/-- An app that does not name its platform is asked for no less than one that does. -/
lemma evaluate_mono_platform (hrated : ∀ r ∈ m.releases, r.Rated) :
    (p.evaluate m client now).status ≤
      (p.evaluate m { client with platform := none } now).status := by
  refine evaluate_status_mono id fun s hs => ?_
  obtain ⟨r, hr, c, hc, rfl⟩ := mem_requests.mp hs
  obtain ⟨c', hc', hle⟩ := (hrated r (List.mem_filter.mp hr).1).clientRating_le hc
  exact ⟨_, mem_requests.mpr ⟨r, hr, c', hc', rfl⟩, rated_mono_category hle r⟩

/-! ### The announced deadline -/

/-- The deadlines that the releases newer than the app announce. -/
def dues (p : ClientPolicy) (m : ReleaseManifest) (client : ClientIdentity) (now : ℕ) : List ℕ :=
  (m.between client.version p.serverVersion).filterMap (due m client.platform now)

lemma mem_dues {d : ℕ} : d ∈ p.dues m client now ↔ ∃ r ∈ m.between client.version p.serverVersion,
      r.clientRating client.platform = some .security ∧ now < deadline m r ∧ deadline m r = d := by
  simp only [dues, mem_filterMap, due, bind_eq_some_iff]
  refine exists_congr fun r => and_congr_right fun _ => ?_
  constructor
  · rintro ⟨c, hc, hd⟩
    cases c <;> simp only [announced, reduceCtorEq] at hd
    split_ifs at hd with hlate
    exact ⟨hc, Nat.lt_of_not_le hlate, Option.some.inj hd⟩
  · rintro ⟨hc, hlt, rfl⟩
    exact ⟨_, hc, if_neg (Nat.not_le_of_lt hlt)⟩

/-- The first deadline is announced with a security status, and only then. -/
lemma evaluate_requiredAfter (p : ClientPolicy) (m : ReleaseManifest) (client : ClientIdentity)
    (now : ℕ) : (p.evaluate m client now).requiredAfter =
      if p.isBelowMinimum client = false ∧ mostUrgent (p.requests m client now) = .security then
        (p.dues m client now).min? else none := by
  cases hbelow : p.isBelowMinimum client with
  | true =>
    have hstatus := @unenforced_of_below p m client now hbelow
    unfold evaluate
    simp only [hstatus]
    split_ifs <;> simp_all
  | false =>
    have hloop := @unenforced_of_not_below p m client now hbelow
    have hstatus : (p.unenforced m client now).status = mostUrgent (p.requests m client now) := by
      rw [hloop, loop_status]
      rfl
    have hdue : (p.unenforced m client now).requiredAfter = (p.dues m client now).min? := by
      rw [hloop, loop_requiredAfter m client.platform now _ _ [] rfl]
      rfl
    unfold evaluate
    simp only [hstatus]
    split_ifs <;> simp_all

/-- Until the announced deadline the releases ask for the same and announce the same. -/
lemma requests_eq_of_lt {d later : ℕ} (hstatus : mostUrgent (p.requests m client now) = .security)
    (hdue : (p.dues m client now).min? = some d) (hlt : later < d) :
    p.requests m client later = p.requests m client now ∧
      p.dues m client later = p.dues m client now := by
  have hsame : ∀ r ∈ m.between client.version p.serverVersion,
      r.clientRating client.platform = some .security →
        ¬ deadline m r ≤ now ∧ ¬ deadline m r ≤ later := by
    intro r hr hc
    -- a passed deadline would have made the update required
    have hpending : ¬ deadline m r ≤ now := by
      intro hlate
      have hmem : ClientUpdateStatus.required ∈ p.requests m client now :=
        mem_requests.mpr ⟨r, hr, _, hc, if_pos hlate⟩
      have hmost := le_mostUrgent hmem
      rw [hstatus] at hmost
      exact absurd hmost (by decide)
    have hfirst := (min?_eq_some_iff.mp hdue).2 _
      (mem_dues.mpr ⟨r, hr, hc, Nat.lt_of_not_le hpending, rfl⟩)
    exact ⟨hpending, by omega⟩
  refine ⟨filterMap_congr fun r hr => ?_, filterMap_congr fun r hr => ?_⟩
  · unfold asks
    cases hc : r.clientRating client.platform with
    | none => rfl
    | some c =>
      cases c with
      | security =>
        obtain ⟨hnow, hlater⟩ := hsame r hr hc
        simp only [map_some, rated, if_neg hnow, if_neg hlater]
      | _ => rfl
  · unfold due
    cases hc : r.clientRating client.platform with
    | none => rfl
    | some c =>
      cases c with
      | security =>
        obtain ⟨hnow, hlater⟩ := hsame r hr hc
        simp only [bind_some, announced, if_neg hnow, if_neg hlater]
      | _ => rfl

/-- From the announced deadline on the releases require the update. -/
lemma requests_of_ge {d later : ℕ} (hdue : (p.dues m client now).min? = some d) (hle : d ≤ later) :
    mostUrgent (p.requests m client later) = .required := by
  obtain ⟨r, hr, hc, -, rfl⟩ := mem_dues.mp (min?_eq_some_iff.mp hdue).1
  have hmem : ClientUpdateStatus.required ∈ p.requests m client later :=
    mem_requests.mpr ⟨r, hr, _, hc, if_pos hle⟩
  exact le_antisymm (ClientUpdateStatus.le_required _) (le_mostUrgent hmem)

/-- **What an app is promised.**  Below the operator's minimum the update is required, and else the
status is the most urgent request of the releases newer than the app, up to the server's version;
where the server only warns, a security status stands for a required one.  The status becomes no
less urgent as time passes, for an older app and for an app that does not name its platform.  A
deadline announced with a security status is kept: until then nothing changes, and from then on
the update is required.  A server that only warns never requires it. -/
theorem update_promise (manifest m : ReleaseManifest) (hvalid : manifest.validate = .ok m)
    (p : ClientPolicy) (client : ClientIdentity) (now : ℕ) :
    (p.evaluate m client now).status = p.enforced
        (if p.isBelowMinimum client then .required else mostUrgent (p.requests m client now)) ∧
      (∀ later, now ≤ later →
        (p.evaluate m client now).status ≤ (p.evaluate m client later).status) ∧
      (∀ version, version ≤ client.version →
        (p.evaluate m client now).status ≤ (p.evaluate m { client with version } now).status) ∧
      (p.evaluate m client now).status ≤
        (p.evaluate m { client with platform := none } now).status ∧
      (p.enforcement = .enforce → ∀ d, (p.evaluate m client now).status = .security →
        (p.evaluate m client now).requiredAfter = some d → ∀ later, now ≤ later →
          (later < d → (p.evaluate m client later).status = .security ∧
            (p.evaluate m client later).requiredAfter = some d) ∧
          (d ≤ later → (p.evaluate m client later).status = .required)) ∧
      (p.enforcement = .warn → (p.evaluate m client now).status ≠ .required) := by
  refine ⟨evaluate_status p m client now, fun later => evaluate_mono_time,
    fun version => evaluate_mono_version,
    evaluate_mono_platform (ReleaseManifest.rated_of_validate hvalid), ?_, ?_⟩
  · intro henforce d hstatus hafter later _
    rw [evaluate_requiredAfter] at hafter
    split_ifs at hafter with hannounced
    obtain ⟨hbelow, hmost⟩ := hannounced
    constructor
    · intro hlt
      obtain ⟨hrequests, hdues⟩ := requests_eq_of_lt hmost hafter hlt
      rw [evaluate_requiredAfter, hrequests, hdues, if_pos ⟨hbelow, hmost⟩, ← hstatus,
        evaluate_status, evaluate_status, hrequests]
      exact ⟨rfl, hafter⟩
    · intro hle
      rw [evaluate_status, hbelow, requests_of_ge hafter hle]
      simp [enforced, henforce]
  · intro hwarn
    rw [evaluate_status]
    exact enforced_ne_required hwarn _

/-- A security release of 2026-03-01 and an optional one after it, as they are after validation. -/
def twoReleases : ReleaseManifest where
  schema := 1
  securityGraceDays := 14
  releases :=
    [⟨⟨1, 1, 0⟩, "2026-03-01", some .security, none, fun _ => none, "Fixes a leak.",
        20513 * Core.secondsPerDay⟩,
      ⟨⟨1, 2, 0⟩, "2026-04-01", some .optional, none, fun _ => none, "New icons.",
        20544 * Core.secondsPerDay⟩]

lemma validate_twoReleases : twoReleases.validate = .ok twoReleases := by
  have hfirst : ReleaseManifest.publishedDay "2026-03-01" = some 20513 := by decide
  have hsecond : ReleaseManifest.publishedDay "2026-04-01" = some 20544 := by decide
  have hfirstSummary : ReleaseManifest.validSummary "Fixes a leak." = true := by decide
  have hsecondSummary : ReleaseManifest.validSummary "New icons." = true := by decide
  refine require_bind_eq_ok.mpr ⟨by decide, require_bind_eq_ok.mpr ⟨by decide, ?_⟩⟩
  refine require_bind_eq_ok.mpr ⟨by decide, bind_eq_ok.mpr ⟨twoReleases.releases, ?_, rfl⟩⟩
  refine bind_eq_ok.mpr ⟨_, ?_, bind_eq_ok.mpr ⟨_, bind_eq_ok.mpr ⟨_, ?_, rfl⟩, rfl⟩⟩
  · exact require_bind_eq_ok.mpr ⟨by decide, bind_eq_ok.mpr ⟨20513, okOr_eq_ok.mpr hfirst,
      require_bind_eq_ok.mpr ⟨hfirstSummary, require_bind_eq_ok.mpr ⟨by decide, rfl⟩⟩⟩⟩
  · exact require_bind_eq_ok.mpr ⟨by decide, bind_eq_ok.mpr ⟨20544, okOr_eq_ok.mpr hsecond,
      require_bind_eq_ok.mpr ⟨hsecondSummary, require_bind_eq_ok.mpr ⟨by decide, rfl⟩⟩⟩⟩

/-- A server at 1.2.0 without a minimum. -/
def plainPolicy : ClientPolicy := ⟨⟨1, 2, 0⟩, none, .enforce, "", by simp⟩

theorem update_promise_twoReleases :
    (plainPolicy.evaluate twoReleases ⟨some .linux, ⟨1, 0, 1⟩⟩ 1773000000).requiredAfter =
        some 1773532800 ∧
      (plainPolicy.evaluate twoReleases ⟨some .linux, ⟨1, 0, 1⟩⟩ 1773532799).status = .security ∧
      (plainPolicy.evaluate twoReleases ⟨some .linux, ⟨1, 0, 1⟩⟩ 1773532800).status =
        .required := by
  have hafter : (plainPolicy.evaluate twoReleases ⟨some .linux, ⟨1, 0, 1⟩⟩ 1773000000).requiredAfter =
      some 1773532800 := by decide
  have hstatus : (plainPolicy.evaluate twoReleases ⟨some .linux, ⟨1, 0, 1⟩⟩ 1773000000).status =
      .security := by decide
  have hpromise := (update_promise _ _ validate_twoReleases plainPolicy
    ⟨some .linux, ⟨1, 0, 1⟩⟩ 1773000000).2.2.2.2.1 rfl _ hstatus hafter
  exact ⟨hafter, ((hpromise 1773532799 (by decide)).1 (by decide)).1,
    (hpromise 1773532800 (by decide)).2 le_rfl⟩

/-- Below the operator's minimum the update is required although the only newer release is
optional. -/
theorem minimum_outranks_releases :
    ∃ (manifest m : ReleaseManifest) (p : ClientPolicy) (client : ClientIdentity) (now : ℕ),
      manifest.validate = .ok m ∧ mostUrgent (p.requests m client now) = .optional ∧
        (p.evaluate m client now).status = .required :=
  ⟨twoReleases, twoReleases, ⟨⟨1, 2, 0⟩, some ⟨1, 2, 0⟩, .enforce, "", by simp⟩,
    ⟨some .linux, ⟨1, 1, 0⟩⟩, 1773000000, validate_twoReleases, by decide,
    by decide⟩

end ClientPolicy

end Ket.Update
