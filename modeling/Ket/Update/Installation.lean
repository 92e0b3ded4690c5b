import Ket.Lib.System

/-!
# The release that a server runs (`packaging/server/cli/update.sh`)

An installation is a release tree and a container image with the tag `local`; the release before is
kept as a second tree with the tag `previous`.  Commands move the trees and swap the tags, so an image
could end up beside the tree of another release.  An image is modelled by the tree that it was made
for, so that a pair belongs together when both are the same.
-/

namespace Ket.Update

open Ket.Lib Function

/-- The tags of the server image. -/
inductive ImageTag where
  | localImage
  | previousImage
  | candidate
  | swap
deriving DecidableEq, Repr

/-- What is in the installation directory, beside it in `.previous`, and under the tags. -/
@[ext]
structure Installation (τ : Type) where
  installed : τ
  previous : Option τ
  images : ImageTag → Option τ

variable {τ : Type}

/-- `swap_image_tags`; either may be missing.  A tag that has nothing to take keeps its image. -/
def swapImageTags (first second : ImageTag) (images : ImageTag → Option τ) :
    ImageTag → Option τ :=
  let images := if (images first).isSome then update images .swap (images first) else images
  let images := if (images second).isSome then update images first (images second) else images
  if (images .swap).isSome then update (update images second (images .swap)) .swap none else images

/-- Two tags that both have an image change places. -/
lemma swapImageTags_of_some {images : ImageTag → Option τ} {image kept : τ}
    (himage : images .localImage = some image) (hkept : images .previousImage = some kept) :
    swapImageTags .localImage .previousImage images =
      update (update (update images .localImage (some kept)) .previousImage (some image))
        .swap none := by
  funext tag
  cases tag <;> simp [swapImageTags, himage, hkept]

namespace Installation

/-- `restore_previous`. -/
def restorePrevious (s : Installation τ) : Installation τ :=
  match s.previous with
  | some tree => ⟨tree, none, swapImageTags .localImage .previousImage s.images⟩
  | none => s

/-- `cmd_apply_update` with a release that passes the checks before the swap: `prepare_image` makes
the image of the new tree, and `ready` is the answer of `start_and_wait`. -/
def applyUpdate (s : Installation τ) (tree : τ) (ready : Bool) : Installation τ :=
  let images := update s.images .candidate (some tree)
  let images := swapImageTags .localImage .previousImage images
  let images := swapImageTags .localImage .candidate images
  let updated := ⟨tree, some s.installed, update images .candidate none⟩
  if ready then updated else updated.restorePrevious

/-- `cmd_rollback`, once it is confirmed.  Whether the release becomes ready is only reported. -/
def rollback (s : Installation τ) : Installation τ :=
  match s.previous with
  | some tree => ⟨tree, some s.installed, swapImageTags .localImage .previousImage s.images⟩
  | none => s

/-- Each tree has its image, and no swap of the tags is left half done beside a kept release. -/
structure Paired (s : Installation τ) : Prop where
  installed : s.images .localImage = some s.installed
  previous : ∀ tree, s.previous = some tree → s.images .previousImage = some tree
  swap : s.previous.isSome → s.images .swap = none

variable {s : Installation τ}

section

variable (hs : s.Paired)
include hs

lemma Paired.applyUpdate (tree : τ) : (s.applyUpdate tree true).Paired := by
  -- without an image to take, the tag `local` keeps its own until the candidate comes
  cases hkept : s.images .previousImage <;> refine ⟨?_, ?_, ?_⟩ <;>
    simp [Installation.applyUpdate, swapImageTags, hkept, hs.installed]

lemma Paired.restorePrevious : s.restorePrevious.Paired := by
  unfold Installation.restorePrevious
  split
  · rename_i tree hkept
    rw [swapImageTags_of_some hs.installed (hs.previous tree hkept)]
    exact ⟨rfl, nofun, nofun⟩
  · exact hs

/-- An update that fails is one that succeeds and is taken back. -/
lemma Paired.applyUpdate_failed (tree : τ) : (s.applyUpdate tree false).Paired :=
  (hs.applyUpdate tree).restorePrevious

lemma Paired.rollback : s.rollback.Paired := by
  unfold Installation.rollback
  split
  · rename_i tree hkept
    rw [swapImageTags_of_some hs.installed (hs.previous tree hkept)]
    exact ⟨rfl, fun _ h => h, fun _ => rfl⟩
  · exact hs

lemma Paired.rollback_rollback : s.rollback.rollback = s := by
  cases hkept : s.previous with
  | none => simp only [Installation.rollback, hkept]
  | some tree =>
    have hswap := hs.swap (by rw [hkept]; rfl)
    simp only [Installation.rollback, hkept]
    rw [swapImageTags_of_some hs.installed (hs.previous tree hkept)]
    ext1
    · rfl
    · exact hkept.symm
    · funext tag
      cases tag <;> simp [swapImageTags, hs.installed, hs.previous tree hkept, hswap]

end

end Installation

inductive Command (τ : Type) where
  | applyUpdate (tree : τ) (ready : Bool)
  | rollback

def Installation.run (s : Installation τ) : Command τ → Installation τ
  | .applyUpdate tree ready => s.applyUpdate tree ready
  | .rollback => s.rollback

def updateSystem (start : Installation τ) : System (Installation τ) (Command τ) where
  start := start
  step s command := some (s.run command)

lemma paired_of_reachable {start s : Installation τ}
    (hlocal : start.images .localImage = some start.installed) (hprevious : start.previous = none)
    (hs : (updateSystem start).Reachable (fun _ _ => True) s) : s.Paired := by
  have hstart : start.Paired := ⟨hlocal, by simp [hprevious], by simp [hprevious]⟩
  refine hs.invariant hstart ?_
  intro s command s' _ hs _ hstep
  obtain rfl := Option.some.inj hstep
  cases command with
  | applyUpdate tree ready =>
    cases ready with
    | true => exact hs.applyUpdate tree
    | false => exact hs.applyUpdate_failed tree
  | rollback => exact hs.rollback

/-- **Tree and image stay paired.**  After every command the image `local` belongs to the installed
tree and the image `previous` to the tree that is kept; an update that does not become ready leaves
the installation and its image; two rollbacks change nothing. -/
theorem tree_image_paired {start s : Installation τ}
    (hlocal : start.images .localImage = some start.installed) (hprevious : start.previous = none)
    (hs : (updateSystem start).Reachable (fun _ _ => True) s) :
    s.images .localImage = some s.installed ∧
      (∀ tree, s.previous = some tree → s.images .previousImage = some tree) ∧
      (∀ tree, (s.applyUpdate tree false).installed = s.installed ∧
        (s.applyUpdate tree false).images .localImage = s.images .localImage) ∧
      s.rollback.rollback = s := by
  have hpaired := paired_of_reachable hlocal hprevious hs
  refine ⟨hpaired.installed, hpaired.previous, fun tree => ⟨rfl, ?_⟩, hpaired.rollback_rollback⟩
  exact (hpaired.applyUpdate_failed tree).installed.trans hpaired.installed.symm

/-- A first installation. -/
def firstInstallation : Installation ℕ := ⟨1, none, fun | .localImage => some 1 | _ => none⟩

/-- An update that does not become ready, one that does, and a rollback. -/
theorem tree_image_paired_second : ∃ s, (updateSystem firstInstallation).Reachable
      (fun _ _ => True) s ∧ (s.installed = 1 ∧ s.previous = some 3) ∧
    s.images .localImage = some s.installed ∧ s.images .previousImage = some 3 ∧
    s.rollback.rollback = s := by
  obtain ⟨s, hs, hinstalled, hprevious⟩ := System.exists_reachable_of_run
    (updateSystem firstInstallation) (fun _ _ => True)
    (fun s => s.installed = 1 ∧ s.previous = some 3)
    [.applyUpdate 2 false, .applyUpdate 3 true, .rollback] (by decide)
  obtain ⟨hlocal, hpaired, -, htwice⟩ := tree_image_paired rfl rfl hs
  exact ⟨s, hs, ⟨hinstalled, hprevious⟩, hlocal, hpaired 3 hprevious, htwice⟩

end Ket.Update
