import Ket.Update.Policy
import Mathlib.Order.WithBot

/-!
# How the urgency of updates composes (`ket-update/src/manifest.rs`)

An update in two steps is as urgent as the more urgent of them, and a server is asked to update at
least as urgently as any app.  Ratings are compared as the optional values that they are, in which
no rating is the least.
-/

namespace Ket.Update

open Ket.Lib List

/-- How urgent an update is.  `None` is less than every category. -/
def urgency (rating : Option UpdateCategory) : WithBot UpdateCategory := rating

lemma urgency_le_iff {rating : Option UpdateCategory} {u : WithBot UpdateCategory} :
    urgency rating ≤ u ↔ ∀ c, rating = some c → urgency (some c) ≤ u := by
  cases rating with
  | none => exact ⟨fun _ c hc => absurd hc (Option.some_ne_none c).symm, fun _ => bot_le⟩
  | some c =>
    refine ⟨fun h c' hc' => ?_, fun h => h c rfl⟩
    rw [← hc']
    exact h

lemma urgency_le_urgency {c c' : UpdateCategory} (h : c ≤ c') :
    urgency (some c) ≤ urgency (some c') := WithBot.coe_le_coe.mpr h

/-- A maximum is below what all the categories are below. -/
lemma urgency_max?_le_iff {cs : List UpdateCategory} {u : WithBot UpdateCategory} :
    urgency cs.max? ≤ u ↔ ∀ c ∈ cs, urgency (some c) ≤ u := by
  rw [urgency_le_iff]
  constructor
  · intro h c hc
    obtain ⟨most, hmost⟩ := Option.ne_none_iff_exists'.mp
      (mt max?_eq_none_iff.mp (ne_nil_of_mem hc))
    exact (urgency_le_urgency ((max?_eq_some_iff.mp hmost).2 c hc)).trans (h most hmost)
  · exact fun h most hmost => h most (max?_eq_some_iff.mp hmost).1

namespace ReleaseManifest

variable {m manifest : ReleaseManifest} {a b c : Version} {r : Release} {u : WithBot UpdateCategory}
  {platform : ClientPlatform}

lemma mem_between : r ∈ m.between a b ↔ r ∈ m.releases ∧ a < r.version ∧ r.version ≤ b := by
  rw [between, List.mem_filter, decide_eq_true_eq]

/-- The releases of an update in two steps are those of its steps. -/
lemma forall_mem_between {P : Release → Prop} (hab : a ≤ b) (hbc : b ≤ c) :
    (∀ r ∈ m.between a c, P r) ↔ (∀ r ∈ m.between a b, P r) ∧ ∀ r ∈ m.between b c, P r := by
  simp only [mem_between]
  constructor
  · intro h
    refine ⟨fun r hr => ?_, fun r hr => ?_⟩
    · exact h r ⟨hr.1, hr.2.1, hr.2.2.trans hbc⟩
    · exact h r ⟨hr.1, hab.trans_lt hr.2.1, hr.2.2⟩
  · rintro ⟨hfirst, hsecond⟩ r ⟨hr, hlt, hle⟩
    rcases le_or_gt r.version b with h | h
    · exact hfirst r ⟨hr, hlt, h⟩
    · exact hsecond r ⟨hr, h, hle⟩

lemma serverUpdateCategory_le_iff : urgency (m.serverUpdateCategory a b) ≤ u ↔
    ∀ r ∈ m.between a b, urgency r.server ≤ u ∧ urgency r.client ≤ u := by
  rw [serverUpdateCategory, urgency_max?_le_iff]
  constructor
  · intro h r hr
    refine ⟨urgency_le_iff.mpr fun c hc => h c ?_, urgency_le_iff.mpr fun c hc => h c ?_⟩
    · exact mem_flatMap.mpr ⟨r, hr, mem_filterMap.mpr ⟨r.server, by simp, hc⟩⟩
    · exact mem_flatMap.mpr ⟨r, hr, mem_filterMap.mpr ⟨r.client, by simp, hc⟩⟩
  · intro h c hc
    obtain ⟨r, hr, hc⟩ := mem_flatMap.mp hc
    obtain ⟨rating, hmem, rfl⟩ := mem_filterMap.mp hc
    simp only [mem_cons, not_mem_nil, or_false] at hmem
    rcases hmem with hmem | hmem
    · exact urgency_le_iff.mp (h r hr).1 c hmem.symm
    · exact urgency_le_iff.mp (h r hr).2 c hmem.symm

lemma appUpdateCategory_le_iff : urgency (m.appUpdateCategory a b platform) ≤ u ↔
    ∀ r ∈ m.between a b, urgency (r.clientRating (some platform)) ≤ u := by
  rw [appUpdateCategory, urgency_max?_le_iff]
  constructor
  · exact fun h r hr => urgency_le_iff.mpr fun c hc => h c (mem_filterMap.mpr ⟨r, hr, hc⟩)
  · intro h c hc
    obtain ⟨r, hr, hc⟩ := mem_filterMap.mp hc
    exact urgency_le_iff.mp (h r hr) c hc

/-- A server is asked at least as urgently as each app. -/
lemma app_le_server (hrated : ∀ r ∈ m.releases, r.Rated) :
    urgency (m.appUpdateCategory a b platform) ≤ urgency (m.serverUpdateCategory a b) := by
  refine appUpdateCategory_le_iff.mpr fun r hr => urgency_le_iff.mpr fun c hc => ?_
  obtain ⟨c', hclient, hle⟩ := (hrated r (mem_between.mp hr).1).clientRating_le hc
  have hserver := (serverUpdateCategory_le_iff.mp le_rfl r hr).2
  exact (urgency_le_urgency hle).trans (urgency_le_iff.mp hserver c' hclient)

/-- **Urgency composes.**  An update in two steps is as urgent as the more urgent one, for servers
and for the apps of each platform, and a server's update as urgent as that of each app. -/
theorem urgency_composes (hvalid : manifest.validate = .ok m) (hab : a ≤ b) (hbc : b ≤ c) :
    urgency (m.serverUpdateCategory a c) =
        max (urgency (m.serverUpdateCategory a b)) (urgency (m.serverUpdateCategory b c)) ∧
      (∀ platform, urgency (m.appUpdateCategory a c platform) =
        max (urgency (m.appUpdateCategory a b platform))
          (urgency (m.appUpdateCategory b c platform))) ∧
      ∀ installed target platform, urgency (m.appUpdateCategory installed target platform) ≤
        urgency (m.serverUpdateCategory installed target) := by
  refine ⟨?_, fun platform => ?_, fun _ _ _ => app_le_server (rated_of_validate hvalid)⟩
  · refine eq_of_forall_ge_iff fun u => ?_
    rw [max_le_iff]
    simp only [serverUpdateCategory_le_iff]
    exact forall_mem_between hab hbc
  · refine eq_of_forall_ge_iff fun u => ?_
    rw [max_le_iff]
    simp only [appUpdateCategory_le_iff]
    exact forall_mem_between hab hbc

/-- A security release, and an optional one after it. -/
theorem urgency_composes_twoReleases :
    ClientPolicy.twoReleases.validate = .ok ClientPolicy.twoReleases ∧
      urgency (ClientPolicy.twoReleases.serverUpdateCategory ⟨1, 0, 0⟩ ⟨1, 2, 0⟩) =
        max (urgency (some .security)) (urgency (some .optional)) := by
  have hfirst : ClientPolicy.twoReleases.serverUpdateCategory ⟨1, 0, 0⟩ ⟨1, 1, 0⟩ =
      some .security := by decide
  have hsecond : ClientPolicy.twoReleases.serverUpdateCategory ⟨1, 1, 0⟩ ⟨1, 2, 0⟩ =
      some .optional := by decide
  have hcomposes := (urgency_composes ClientPolicy.validate_twoReleases
    (show (⟨1, 0, 0⟩ : Version) ≤ ⟨1, 1, 0⟩ by decide)
    (show (⟨1, 1, 0⟩ : Version) ≤ ⟨1, 2, 0⟩ by decide)).1
  rw [hfirst, hsecond] at hcomposes
  exact ⟨ClientPolicy.validate_twoReleases, hcomposes⟩

end ReleaseManifest

end Ket.Update
