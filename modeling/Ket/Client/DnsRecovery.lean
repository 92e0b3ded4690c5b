import Ket.Client.SystemDns
import Ket.Lib.Check

/-!
# What a recovery leaves in `resolv.conf`

A run is undisturbed if nothing comes between a truncation of `resolv.conf` by Ket and the write that
follows it: no crash, no edit, and the write and its sync succeed.  In such a run `resolv.conf` holds
what others wrote whenever no original is saved (`resolver_kept`), whatever else fails, wherever the
process crashes and whatever others do.

The proof follows the programs.  `Calm` holds between any two commands outside of the two that a
write in place consists of; the assertions of the single steps add to it which original is saved and
whether `resolv.conf` is intact.
-/

namespace Ket.Client.SystemDns

open Ket.Lib Program

/-! ### The property -/

namespace World

/-- `resolv.conf` holds what others wrote; if Ket wrote it last, it is what was saved. -/
def Intact (w : World) : Prop :=
  ∀ c, w.content .resolver = some c → c ∈ w.foreign ∧ (w.byKet = true → w.original = some c)

/-- Wherever the process crashes, the next recovery makes `resolv.conf` intact. -/
structure Safe (w : World) : Prop where
  deleted : w.state = none → w.Intact
  saved : ∀ o, w.state = some o → w.original = some o ∧ o ∈ w.foreign ∧
    (w.Intact ∨ ∀ c, w.content .resolver = some c →
      [virtualDnsConfiguration, openvpnDnsConfiguration].contains c = true)

end World

/-- What is done to `resolv.conf` after it was truncated succeeds. -/
def settles : (c : Command) → Answer c → Bool
  | .writeAll (.resolver _) _, r => r.isOk
  | .syncAll (.resolver _), r => r.isOk
  | _, _ => true

abbrev Config := Machine.Config World Command Answer Operation (Except IoError Unit)

abbrev Event := Machine.Event Command Answer Operation Edit

/-- Nothing comes between a truncation of `resolv.conf` by Ket and the write that follows it. -/
def undisturbed (s : Config) : Event → Prop
  | .reply answers => ∀ p ∈ s.running, settles p.command (answers p.command) = true
  | .begin _ => s.state.torn = false
  | .drop => s.state.torn = false
  | .other _ => s.state.torn = false

instance : (s : Config) → (e : Event) → Decidable (undisturbed s e)
  | s, .reply answers =>
    inferInstanceAs (Decidable (∀ p ∈ s.running, settles p.command (answers p.command) = true))
  | s, .begin _ => inferInstanceAs (Decidable (s.state.torn = false))
  | s, .drop => inferInstanceAs (Decidable (s.state.torn = false))
  | s, .other _ => inferInstanceAs (Decidable (s.state.torn = false))

/-! ### What others do -/

/-- What is left of a state after an edit of `resolv.conf`. -/
structure Edited (w w' : World) : Prop where
  state : w'.state = w.state
  temporary : w'.temporary = w.temporary
  original : w'.original = w.original
  recovered : w'.recovered = w.recovered
  torn : w.torn = false → w'.torn = false
  byKet : w'.byKet = false
  foreign : ∀ c ∈ w.foreign, c ∈ w'.foreign
  content : ∀ c, w'.content .resolver = some c → c ∈ w'.foreign

variable {w w' : World} {P : World → Prop} {o c : Content}

lemma edited_of_edit {e : Edit} (h : w.edit e = some w') : Edited w w' := by
  cases e with
  | write content =>
    simp only [World.edit] at h
    split at h
    · cases h
      refine ⟨rfl, rfl, rfl, rfl, id, rfl, fun c => List.mem_cons_of_mem _, fun c hc => ?_⟩
      cases hc
      exact List.mem_cons_self
    · cases h
  | replace content =>
    cases h
    refine ⟨rfl, rfl, rfl, rfl, fun _ => rfl, rfl, fun c => List.mem_cons_of_mem _, fun c hc => ?_⟩
    cases hc
    exact List.mem_cons_self
  | remove =>
    cases h
    exact ⟨rfl, rfl, rfl, rfl, fun _ => rfl, rfl, fun c => id, nofun⟩

namespace Edited

variable {w w' : World} (h : Edited w w')

include h

lemma intact : w'.Intact := fun c hc => ⟨h.content c hc, fun hket => by simp [h.byKet] at hket⟩

lemma safe (hs : w.Safe) : w'.Safe := by
  refine ⟨fun _ => h.intact, fun o ho => ?_⟩
  obtain ⟨horiginal, hforeign, -⟩ := hs.saved o (h.state ▸ ho)
  exact ⟨h.original.trans horiginal, h.foreign o hforeign, .inl h.intact⟩

end Edited

/-- Undisturbed steps. -/
def semantics : Semantics World Command Answer where
  run w c a w' := w.reply c a = some w' ∧ settles c a = true
  others := Relation.ReflTransGen fun w w' => w.torn = false ∧ Edited w w'
  needs w _ := (w.torn = false → w.Safe) ∧ (w.torn = true → w.state ≠ none)
  refl _ := .refl
  trans h h' := h.trans h'

/-- Nobody interferes while `resolv.conf` is truncated. -/
lemma eq_of_others (h : semantics.others w w') (htorn : w.torn = true) : w' = w := by
  rcases Relation.ReflTransGen.cases_head h with rfl | ⟨_, ⟨hnot, -⟩, -⟩
  · rfl
  · rw [htorn] at hnot
    cases hnot

/-! ### Assertions -/

/-- No write in place is under way, and a crash does no harm. -/
def Calm (w : World) : Prop := w.torn = false ∧ w.Safe

/-- An assertion between two commands that edits of others leave true. -/
structure Held (P : World → Prop) : Prop where
  edited : ∀ {w w'}, Edited w w' → P w → P w'
  calm : ∀ {w}, P w → Calm w

lemma Held.stable (hP : Held P) : Stable semantics P := by
  intro w w' hothers hw
  induction hothers with
  | refl => exact hw
  | tail _ hlast ih => exact hP.edited hlast.2 ih

lemma Held.needs (hP : Held P) (c : Command) (hw : P w) : semantics.needs w c := by
  obtain ⟨htorn, hsafe⟩ := hP.calm hw
  refine ⟨fun _ => hsafe, fun h => ?_⟩
  rw [htorn] at h
  cases h

/-- An original is saved. -/
def Saved (o : Content) (w : World) : Prop := Calm w ∧ w.state = some o

lemma Saved.ne_none (h : Saved o w) : w.state ≠ none := by
  rw [h.2]
  exact Option.some_ne_none o

/-- An original is saved, and not needed. -/
def Kept (o : Content) (w : World) : Prop := Saved o w ∧ w.Intact

/-- No original is saved. -/
def Cleared (w : World) : Prop := Calm w ∧ w.state = none

/-- No original is saved, and what `resolv.conf` held was read. -/
def Copied (c : Content) (w : World) : Prop :=
  Cleared w ∧ c ∈ w.foreign ∧ (w.byKet = true → ∀ c', w.content .resolver = some c' → c' = c)

/-- The same, with the temporary file. -/
def Staged (c written : Content) (w : World) : Prop := Copied c w ∧ w.temporary = some written

lemma Edited.calm (h : Edited w w') (hw : Calm w) : Calm w' :=
  ⟨h.torn hw.1, h.safe hw.2⟩

lemma held_calm : Held Calm := ⟨fun h hw => h.calm hw, id⟩

lemma held_saved (o : Content) : Held (Saved o) :=
  ⟨fun h hw => ⟨h.calm hw.1, h.state.trans hw.2⟩, fun hw => hw.1⟩

lemma held_kept (o : Content) : Held (Kept o) :=
  ⟨fun h hw => ⟨(held_saved o).edited h hw.1, h.intact⟩, fun hw => hw.1.1⟩

lemma held_cleared : Held Cleared :=
  ⟨fun h hw => ⟨h.calm hw.1, h.state.trans hw.2⟩, fun hw => hw.1⟩

lemma Copied.temporary (h : Copied c w) (t : Option Content) : Copied c { w with temporary := t } :=
  ⟨⟨⟨h.1.1.1, h.1.1.2.deleted, h.1.1.2.saved⟩, h.1.2⟩, h.2⟩

lemma Calm.recovered (h : Calm w) (b : Bool) : Calm { w with recovered := b } :=
  ⟨h.1, h.2.deleted, h.2.saved⟩

lemma held_copied (c : Content) : Held (Copied c) := by
  refine ⟨fun h hw => ⟨held_cleared.edited h hw.1, h.foreign c hw.2.1, fun hket => ?_⟩,
    fun hw => hw.1.1⟩
  rw [h.byKet] at hket
  cases hket

lemma held_staged (c written : Content) : Held (Staged c written) :=
  ⟨fun h hw => ⟨(held_copied c).edited h hw.1, h.temporary.trans hw.2⟩, fun hw => hw.1.1.1⟩

/-! ### Single commands -/

section Commands

variable {P Q : World → Prop} {w w' : World}

lemma eq_of_failed {e : IoError} {path : Path} (h : w.failed e path = some w') : w' = w :=
  (of_guard h).2.symm

/-- A command that only looks, or that has failed. -/
lemma triple_perform {c : Command} {ok : c.Result → World → Prop} (hP : Held P)
    (hrun : ∀ w r w', P w → w.reply c (.ok r) = some w' → settles c (.ok r) = true → ok r w')
    (hfail : ∀ w e w', P w → w.reply c (.error e) = some w' → settles c (.error e) = true → w' = w) :
    Triple semantics P (Io.perform c) ok (fun _ => P) := by
  refine Triple.command hP.stable (fun w hw => hP.needs c hw) fun w r w' hw hr => ?_
  cases r with
  | ok r => exact hrun w r w' hw hr.1 hr.2
  | error e =>
    have heq := hfail w e w' hw hr.1 hr.2
    exact heq ▸ hw

lemma triple_metadata (hP : Held P) (path : Path) :
    Triple semantics P (Io.metadata path) (fun _ => P) (fun _ => P) := by
  refine triple_perform hP (fun w r w' hw hr _ => ?_) fun w e w' _ hr _ => eq_of_failed hr
  exact (of_guard hr).2 ▸ hw

/-- What is read of a file that is not too large is all that is in it. -/
lemma triple_readBounded {path : Path} {ok : Content → World → Prop} (hP : Held P)
    (hok : ∀ c w, P w → w.content path = some c → ok c w) :
    Triple semantics P (readBounded path) ok (fun _ => P) := by
  refine Triple.bind (triple_metadata hP path) fun metadata => ?_
  split
  · exact Triple.throw fun _ => id
  · have hread : Triple semantics P (Io.read path) (fun c w => P w ∧
        (w.content path).map (·.take (maxResolverBytes + 1)) = some c) (fun _ => P) := by
      refine triple_perform hP (fun w r w' hw hr _ => ?_) fun w e w' _ hr _ => eq_of_failed hr
      obtain ⟨hcontent, rfl⟩ := of_guard hr
      exact ⟨hw, hcontent⟩
    refine hread.bind fun c => ?_
    split
    · exact Triple.throw fun _ hw => hw.1
    · rename_i hlength
      refine Triple.pure fun w hw => hok c w hw.1 ?_
      obtain ⟨content, hcontent, htake⟩ := Option.map_eq_some_iff.mp hw.2
      have hall : content.take (maxResolverBytes + 1) = content := by
        refine List.take_of_length_le ?_
        by_contra hlong
        rw [← htake, List.length_take, Nat.min_eq_left (by omega)] at hlength
        omega
      rw [hcontent, ← htake, hall]

lemma triple_readOptionalState {ok : Option Content → World → Prop} (hP : Held P)
    (hok : ∀ w, P w → ok w.state w) : Triple semantics P readOptionalState ok (fun _ => P) := by
  refine Triple.command hP.stable (fun w hw => hP.needs _ hw) fun w r w' hw hr => ?_
  cases r with
  | ok metadata =>
    obtain ⟨-, rfl⟩ := of_guard hr.1
    show Program.Meets semantics (if _ then _ else _) _ w
    split
    · exact hw
    · have hread : Triple semantics P (readBounded .state)
          (fun c w => ok (some c) w) (fun _ => P) := by
        refine triple_readBounded hP fun c w hw hc => ?_
        have hstate : w.state = some c := hc
        exact hstate ▸ hok w hw
      have hmap : Triple semantics P (readBounded .state >>= fun c => pure (some c)) ok
          (fun _ => P) := hread.bind fun c => Triple.pure fun w hw => hw
      exact hmap w hw
  | error e =>
    obtain rfl : w' = w := eq_of_failed hr.1
    cases e with
    | notFound =>
      have hnone : w'.state = none := by
        obtain ⟨hmetadata, -⟩ := of_guard hr.1
        exact Option.map_eq_none_iff.mp (hmetadata rfl)
      exact hnone ▸ hok w' hw
    | _ => exact hw

/-- A command that only asks for something to reach the disk, or makes a directory. -/
lemma triple_quiet {c : Command} (hP : Held P) (hreply : ∀ (w : World) r, w.reply c r = some w) :
    Triple semantics P (Io.perform c) (fun _ => P) (fun _ => P) := by
  have hsame : ∀ (w : World) r w', w.reply c r = some w' → w' = w := by
    intro w r w' h
    rw [hreply] at h
    exact (Option.some.inj h).symm
  refine triple_perform hP (fun w r w' hw hr _ => ?_) fun w e w' _ hr _ => hsame w _ w' hr
  exact hsame w _ w' hr ▸ hw

/-- The state in which `resolv.conf` was truncated. -/
def Truncated (P : World → Prop) (inode : ℕ) (w : World) : Prop :=
  ∃ w₀, P w₀ ∧ w = { w₀ with resolver := some (.file inode []), byKet := true, torn := true }

/-- A write in place has written everything, or nothing. -/
lemma triple_writeInPlace {c : Content} (hP : Held P) (hQ : Held Q)
    (hsaved : ∀ w, P w → w.state ≠ none)
    (hwrite : ∀ w inode, P w → Q { w with resolver := some (.file inode c), byKet := true }) :
    Triple semantics P (writeInPlace c) (fun _ => Q) (fun _ => P) := by
  refine Triple.bind (triple_metadata hP .resolver) fun metadata => ?_
  split
  · exact Triple.throw fun _ => id
  have hopen : Triple semantics P (Io.openTruncate .resolver)
      (fun file w => ∃ inode, file = .resolver inode ∧ Truncated P inode w) (fun _ => P) := by
    refine triple_perform hP (fun w file w' hw hr _ => ?_) fun w e w' _ hr _ => eq_of_failed hr
    simp only [World.reply] at hr
    split at hr
    · rename_i inode content hresolver
      obtain ⟨rfl, rfl⟩ := of_guard hr
      exact ⟨inode, rfl, w, hw, rfl⟩
    · cases hr
  refine hopen.bind fun file => ?_
  have hstable : Stable semantics
      (fun w => ∃ inode, file = .resolver inode ∧ Truncated P inode w) := by
    rintro w w' hothers ⟨inode, hfile, w₀, hw₀, rfl⟩
    rw [eq_of_others hothers rfl]
    exact ⟨inode, hfile, w₀, hw₀, rfl⟩
  have hwritten : Triple semantics (fun w => ∃ inode, file = .resolver inode ∧ Truncated P inode w)
      (Io.writeAll file c) (fun _ w => (∃ inode, file = .resolver inode) ∧ Q w) (fun _ => P) := by
    refine Triple.command hstable ?_ ?_
    · rintro w ⟨inode, -, w₀, hw₀, rfl⟩
      exact ⟨nofun, fun _ => hsaved w₀ hw₀⟩
    · rintro w r w' ⟨inode, rfl, w₀, hw₀, rfl⟩ ⟨hr, hsettles⟩
      cases r with
      | error e => cases hsettles
      | ok u =>
        obtain rfl := Option.some.inj hr
        refine ⟨⟨inode, rfl⟩, ?_⟩
        have htorn : w₀.torn = false := (hP.calm hw₀).1
        have hafter := hwrite w₀ inode hw₀
        simpa [World.write, World.overwritten, htorn] using hafter
  refine hwritten.bind fun _ => ?_
  refine fun w hw => ?_
  obtain ⟨⟨inode, rfl⟩, hw⟩ := hw
  have hsync : Triple semantics Q (Io.syncAll (.resolver inode)) (fun _ => Q) (fun _ => P) := by
    refine Triple.command hQ.stable (fun w hw => hQ.needs _ hw) fun w r w' hw hr => ?_
    cases r with
    | error e => cases hr.2
    | ok u =>
      obtain rfl : w = w' := Option.some.inj hr.1
      exact hw
  exact hsync w hw

end Commands

/-! ### The operations -/

lemma safe_of_intact (horiginal : w.original = some o) (hforeign : o ∈ w.foreign)
    (hstate : w.state = some o) (hw : w.Intact) : w.Safe := by
  refine ⟨fun hnone => ?_, fun o' ho' => ?_⟩
  · rw [hstate] at hnone
    cases hnone
  · obtain rfl : o = o' := Option.some.inj (hstate.symm.trans ho')
    exact ⟨horiginal, hforeign, .inl hw⟩

/-- Where an operation stops with an error, a crash would do no harm. -/
lemma Held.orCalm {α : Type} {p : Io α} {ok : α → World → Prop} (hP : Held P)
    (h : Triple semantics P p ok (fun _ => P)) : Triple semantics P p ok (fun _ => Calm) :=
  h.mono (fun _ => id) (fun _ _ => id) fun _ _ hw => hP.calm hw

/-- The original is only deleted when it is not needed. -/
lemma triple_removeState (o : Content) :
    Triple semantics (Kept o) removeState (fun _ => Cleared) (fun _ => Calm) := by
  refine Triple.command (held_kept o).stable (fun w hw => (held_kept o).needs _ hw)
    fun w r w' hw hr => ?_
  obtain ⟨⟨⟨htorn, hsafe⟩, hstate⟩, hintact⟩ := hw
  cases r with
  | ok u =>
    obtain ⟨-, rfl⟩ := of_guard hr.1
    have hcleared : Cleared { w with state := none } :=
      ⟨⟨htorn, fun _ => hintact, nofun⟩, rfl⟩
    exact held_cleared.orCalm (triple_quiet held_cleared fun _ _ => rfl) _ hcleared
  | error e =>
    obtain rfl : w' = w := eq_of_failed hr.1
    cases e with
    | notFound =>
      -- the file is there
      obtain ⟨hmetadata, -⟩ := of_guard hr.1
      have hnone : w'.state = none := Option.map_eq_none_iff.mp (hmetadata rfl)
      rw [hstate] at hnone
      cases hnone
    | _ => exact ⟨htorn, hsafe⟩

/-- The original is written back. -/
lemma triple_writeOriginal (o : Content) (hP : Held P) (hsaved : ∀ w, P w → Saved o w) :
    Triple semantics P (writeInPlace o) (fun _ => Kept o) (fun _ => P) := by
  refine triple_writeInPlace hP (held_kept o) (fun w hw => (hsaved w hw).ne_none)
    fun w inode hw => ?_
  obtain ⟨⟨htorn, hsafe⟩, hstate⟩ := hsaved w hw
  obtain ⟨horiginal, hforeign, -⟩ := hsafe.saved o hstate
  have hintact : World.Intact { w with resolver := some (.file inode o), byKet := true } := by
    intro c hc
    cases hc
    exact ⟨hforeign, fun _ => horiginal⟩
  exact ⟨⟨⟨htorn, safe_of_intact horiginal hforeign hstate hintact⟩, hstate⟩, hintact⟩

/-- A recovery that succeeds leaves no original. -/
lemma triple_recoverAt : Triple semantics Calm recoverAt (fun _ => Cleared) (fun _ => Calm) := by
  have hstate : Triple semantics Calm readOptionalState
      (fun state w => Calm w ∧ w.state = state) (fun _ => Calm) :=
    triple_readOptionalState held_calm fun w hw => ⟨hw, rfl⟩
  refine hstate.bind fun state => ?_
  cases state with
  | none => exact Triple.pure fun w hw => hw
  | some o =>
    -- `resolv.conf` is intact unless it holds what Ket has written
    have hread : Triple semantics (Saved o) (readBounded .resolver) (fun c w => Saved o w ∧
        ([virtualDnsConfiguration, openvpnDnsConfiguration].contains c = false → w.Intact))
        (fun _ => Saved o) := by
      refine triple_readBounded (held_saved o) fun c w hw hc => ⟨hw, fun hother => ?_⟩
      obtain ⟨-, -, hintact | hown⟩ := hw.1.2.saved o hw.2
      · exact hintact
      · rw [hown c hc] at hother
        cases hother
    refine ((held_saved o).orCalm hread).bind fun c => ?_
    split
    · have hwrite := (held_saved o).orCalm (triple_writeOriginal o (held_saved o) fun _ => id)
      refine Triple.bind ?_ fun _ => triple_removeState o
      exact hwrite.mono (fun _ hw => hw.1) (fun _ _ => id) fun _ _ => id
    · rename_i hother
      refine (triple_removeState o).mono (fun w hw => ⟨hw.1, ?_⟩) (fun _ _ => id) fun _ _ => id
      exact hw.2 (Bool.eq_false_iff.mpr hother)

/-- What was read is saved as the original. -/
lemma triple_persistState (c : Content) :
    Triple semantics (Copied c) (persistState c) (fun _ => Kept c) (fun _ => Calm) := by
  have hparent : Triple semantics (Copied c) Io.createParent (fun _ => Copied c) (fun _ => Calm) :=
    (held_copied c).orCalm (triple_quiet (held_copied c) fun _ _ => rfl)
  have hopen : Triple semantics (Copied c) (Io.openTruncate .temporary)
      (fun file w => file = .temporary ∧ Staged c [] w) (fun _ => Calm) := by
    refine (held_copied c).orCalm ?_
    refine triple_perform (held_copied c) (fun w file w' hw hr _ => ?_)
      fun w e w' _ hr _ => eq_of_failed hr
    obtain ⟨rfl, rfl⟩ := of_guard hr
    exact ⟨rfl, hw.temporary _, rfl⟩
  have hwrite : Triple semantics (Staged c []) (Io.writeAll .temporary c)
      (fun _ => Staged c c) (fun _ => Calm) := by
    refine Triple.command (held_staged c []).stable (fun w hw => (held_staged c []).needs _ hw)
      fun w r w' hw hr => ?_
    obtain ⟨hcopied, htemporary⟩ := hw
    cases r with
    | ok u =>
      obtain rfl := Option.some.inj hr.1
      refine ⟨hcopied.temporary _, ?_⟩
      simp [World.write, htemporary, World.overwritten]
    | error e =>
      -- what was written of the temporary file does not matter
      cases e with
      | shortWrite n =>
        obtain rfl := Option.some.inj hr.1
        exact (hcopied.temporary _).1.1
      | _ =>
        obtain rfl := Option.some.inj hr.1
        exact hcopied.1.1
  have hsync : Triple semantics (Staged c c) (Io.syncAll .temporary)
      (fun _ => Staged c c) (fun _ => Calm) :=
    (held_staged c c).orCalm (triple_quiet (held_staged c c) fun _ _ => rfl)
  have hrename : Triple semantics (Staged c c) Io.renameToState (fun _ => Kept c)
      (fun _ => Calm) := by
    refine (held_staged c c).orCalm ?_
    refine triple_perform (held_staged c c) (fun w u w' hw hr _ => ?_)
      fun w e w' _ hr _ => eq_of_failed hr
    obtain ⟨⟨⟨⟨htorn, hsafe⟩, hstate⟩, hforeign, hread⟩, htemporary⟩ := hw
    simp only [World.reply, htemporary, Option.map_some, Option.some.injEq] at hr
    subst hr
    have hintact : World.Intact
        { w with state := some c, temporary := none, original := some c } := by
      intro c' hc'
      obtain ⟨hc'', -⟩ := hsafe.deleted hstate c' hc'
      exact ⟨hc'', fun hket => congrArg some (hread hket c' hc').symm⟩
    exact ⟨⟨⟨htorn, safe_of_intact rfl hforeign rfl hintact⟩, rfl⟩, hintact⟩
  refine hparent.bind fun _ => hopen.bind fun file w hw => ?_
  obtain ⟨rfl, hw⟩ := hw
  refine (hwrite.bind fun _ => hsync.bind fun _ => hrename.bind fun _ => ?_) w hw
  exact (held_kept c).orCalm (triple_quiet (held_kept c) fun _ _ => rfl)

/-- `resolv.conf` is written back as far as that is possible, and the original deleted. -/
lemma meets_giveUp {e : IoError} (hw : Kept c w) :
    (giveUp c e).run.Meets semantics (fun _ => Calm) w := by
  have hback := triple_writeOriginal c (held_kept c) fun _ hw => hw.1
  show ((writeInPlace c).run >>= _).Meets semantics _ w
  rw [meets_bind]
  refine (hback w hw).mono fun r w' hr => ?_
  have hkept : Kept c w' := by
    cases r with
    | ok u => exact hr
    | error e => exact hr
  rw [meets_bind]
  refine (triple_removeState c w' hkept).mono fun r w'' hr => ?_
  cases r with
  | ok u => exact hr.1
  | error e => exact hr

lemma triple_acquireAt (configuration : Configuration) :
    Triple semantics Calm (acquireAt configuration) (fun _ => Calm) (fun _ => Calm) := by
  refine triple_recoverAt.bind fun _ => ?_
  have hread : Triple semantics Cleared (readBounded .resolver) Copied (fun _ => Calm) := by
    refine held_cleared.orCalm (triple_readBounded held_cleared fun c w hw hc => ?_)
    obtain ⟨hforeign, -⟩ := hw.1.2.deleted hw.2 c hc
    refine ⟨hw, hforeign, fun _ c' hc' => ?_⟩
    exact Option.some.inj (hc'.symm.trans hc)
  refine hread.bind fun c => (triple_persistState c).bind fun _ => ?_
  intro w hw
  -- `resolv.conf` now names the resolver of the tunnel, and the original is saved
  have hwrite : Triple semantics (Kept c) (writeInPlace configuration.content)
      (fun _ => Calm) (fun _ => Kept c) := by
    refine triple_writeInPlace (held_kept c) held_calm (fun w hw => hw.1.ne_none)
      fun w inode hw => ?_
    obtain ⟨⟨⟨htorn, hsafe⟩, hstate⟩, -⟩ := hw
    obtain ⟨horiginal, hforeign, -⟩ := hsafe.saved c hstate
    refine ⟨htorn, fun hnone => ?_, fun o ho => ?_⟩
    · rw [show w.state = none from hnone] at hstate
      cases hstate
    · obtain rfl : c = o := Option.some.inj (hstate.symm.trans ho)
      refine ⟨horiginal, hforeign, .inr fun c' hc' => ?_⟩
      cases hc'
      cases configuration <;> simp [Configuration.content]
  show ((writeInPlace configuration.content).run >>= _).Meets semantics _ w
  rw [meets_bind]
  refine (hwrite w hw).mono fun r w' hr => ?_
  cases r with
  | ok u => exact hr
  | error e =>
    refine (meets_giveUp hr).mono fun r w'' hr => ?_
    cases r with
    | ok u => exact hr
    | error e => exact hr

/-! ### Whole runs -/

/-- What holds between operations. -/
def Settled (w : World) : Prop := Calm w ∧ (w.recovered = true → w.state = none)

lemma held_settled : Held Settled := by
  refine ⟨fun h hw => ⟨h.calm hw.1, fun hrecovered => ?_⟩, And.left⟩
  rw [h.state]
  exact hw.2 (h.recovered ▸ hrecovered)

lemma meets_program (op : Operation) (hw : Calm w) : op.program.Meets semantics
      (fun r w' => Calm w' ∧ (op.recovers = true → r.isOk = true → w'.state = none)) w := by
  have hrecover : ∀ {w}, Calm w → recoverAt.run.Meets semantics
      (fun r w' => Calm w' ∧ (r.isOk = true → w'.state = none)) w := by
    intro w hw
    refine (triple_recoverAt w hw).mono fun r w' hr => ?_
    cases r with
    | ok u => exact ⟨hr.1, fun _ => hr.2⟩
    | error e => exact ⟨hr, nofun⟩
  cases op with
  | acquire configuration =>
    refine (triple_acquireAt configuration w hw).mono fun r w' hr => ?_
    cases r with
    | _ => exact ⟨hr, nofun⟩
  | recover => exact (hrecover hw).mono fun r w' hr => ⟨hr.1, fun _ => hr.2⟩
  | restore active =>
    cases active with
    | false => exact ⟨hw, nofun⟩
    | true =>
      have hrestore : Triple semantics Calm (do let _ ← restore true : Io Unit)
          (fun _ => Cleared) (fun _ => Calm) :=
        (triple_recoverAt.bind fun _ => Triple.pure fun _ hw => hw).bind
          fun _ => Triple.pure fun _ hw => hw
      refine (hrestore w hw).mono fun r w' hr => ?_
      cases r with
      | ok u => exact ⟨hr.1, fun _ _ => hr.2⟩
      | error e => exact ⟨hr, nofun⟩

lemma keeps_settled {content : Content} {s : Config}
    (hs : (machine content).system.Reachable undisturbed s) :
    (machine content).Keeps semantics Settled s := by
  refine Machine.invariant ?_ ?_ ?_ ?_ ?_ ?_ hs
  · -- at the start nothing is saved, and others wrote what `resolv.conf` holds
    refine ⟨⟨rfl, fun _ c hc => ?_, nofun⟩, nofun⟩
    cases hc
    exact ⟨List.mem_singleton_self _, nofun⟩
  · intro w op w' hw hbegin
    obtain rfl := Option.some.inj hbegin
    refine (meets_program op (hw.1.recovered false)).mono fun r w' hr => ⟨hr.1.recovered _, ?_⟩
    intro hrecovered
    obtain ⟨hop, hok⟩ := Bool.and_eq_true_iff.mp hrecovered
    exact hr.2 hop hok
  · exact fun w p answers w' hc hr => ⟨hr, hc p rfl⟩
  · exact fun w running e w' hc he => .single ⟨hc, edited_of_edit he⟩
  · exact fun w w' hw hothers => held_settled.stable w w' hothers hw
  · intro w p w' hc hneeds hdrop
    obtain rfl := Option.some.inj hdrop
    exact ⟨⟨hc, (hneeds.1 hc).deleted, (hneeds.1 hc).saved⟩, nofun⟩

/-- **In an undisturbed run `resolv.conf` holds what others wrote whenever no original is saved, and
none is once a recovery has completed.**  It is what was saved, or nobody but others wrote it
since. -/
theorem resolver_kept {content : Content} {s : Config}
    (hs : (machine content).system.Reachable undisturbed s) :
    (s.state.state = none → s.state.Intact) ∧
      (s.running = none → s.state.recovered = true → s.state.state = none) := by
  have hkeeps := keeps_settled hs
  obtain ⟨w, running⟩ := s
  cases running with
  | none => exact ⟨hkeeps.1.2.deleted, fun _ => hkeeps.2⟩
  | some p =>
    obtain ⟨hsafe, htorn⟩ := hkeeps.needs rfl
    refine ⟨fun hnone => ?_, nofun⟩
    cases h : w.torn with
    | false => exact (hsafe h).deleted hnone
    | true => exact absurd hnone (htorn h)

/-! ### Runs -/

/-- What the commands answer on a computer with such a `resolv.conf` and saved original. -/
def answers (resolver : Content) (state : Option Content) : (c : Command) → Answer c
  | .metadata .resolver => .ok ⟨true, resolver.length⟩
  | .metadata .state =>
    match state with
    | some original => .ok ⟨true, original.length⟩
    | none => .error .notFound
  | .metadata .temporary => .error .notFound
  | .read .resolver => .ok resolver
  | .read .state =>
    match state with
    | some original => .ok original
    | none => .error .notFound
  | .read .temporary => .error .notFound
  | .openTruncate .resolver => .ok (.resolver 0)
  | .openTruncate _ => .ok .temporary
  | .writeAll _ _ => .ok ()
  | .syncAll _ => .ok ()
  | .createParent => .ok ()
  | .renameToState => .ok ()
  | .removeState => .ok ()
  | .syncParent => .ok ()

/-- What a `resolv.conf` may hold. -/
def exampleContent : Content := Str.bytes "nameserver 192.0.2.53\n"

/-- The resolver of a tunnel is put in place; the process crashes before the new content is
written, and the next one recovers. -/
def crashedRun : List Event :=
  .begin (.acquire .virtualDns) :: List.replicate 11 (.reply (answers exampleContent none)) ++
    [.drop, .begin .recover] ++ List.replicate 7 (.reply (answers [] (some exampleContent)))

/-- The recovery takes the truncated file for one that others wrote, and deletes the original. -/
theorem crash_loses_resolver : ∃ s, (machine exampleContent).system.Reachable (fun _ _ => True) s ∧
      s.state.recovered = true ∧ s.state.state = none ∧ s.state.content .resolver = some [] ∧
      ¬ s.state.Intact := by
  obtain ⟨s, hs, hrecovered, hstate, hcontent, hforeign⟩ :=
    System.exists_reachable_of_run (machine exampleContent).system (fun _ _ => True)
      (fun s => s.state.recovered = true ∧ s.state.state = none ∧
        s.state.content .resolver = some [] ∧ [] ∉ s.state.foreign) crashedRun (by decide)
  exact ⟨s, hs, hrecovered, hstate, hcontent, fun hintact => hforeign (hintact [] hcontent).1⟩

/-- The process crashes after the new content was written, and the next one recovers. -/
def repairedRun : List Event :=
  .begin (.acquire .virtualDns) :: List.replicate 12 (.reply (answers exampleContent none)) ++
    [.drop, .begin .recover] ++
    List.replicate 11 (.reply (answers virtualDnsConfiguration (some exampleContent)))

theorem resolver_kept_after_crash :
    ∃ s, (machine exampleContent).system.Reachable undisturbed s ∧ s.state.recovered = true ∧
      s.state.content .resolver = some exampleContent ∧ s.state.Intact := by
  obtain ⟨s, hs, hrecovered, hcontent, hrunning⟩ :=
    System.exists_reachable_of_run (machine exampleContent).system undisturbed
      (fun s => s.state.recovered = true ∧ s.state.content .resolver = some exampleContent ∧
        s.running.isNone = true) repairedRun (by decide)
  obtain ⟨hkept, hdeleted⟩ := resolver_kept hs
  exact ⟨s, hs, hrecovered, hcontent, hkept (hdeleted (Option.isNone_iff_eq_none.mp hrunning)
    hrecovered)⟩

end Ket.Client.SystemDns
