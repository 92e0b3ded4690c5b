import Ket.Client.World

/-!
# Who holds a tunnel

A tunnel that an adapter has returned is held by the client until it was stopped: no operation loses
one, whatever fails (`tunnels_owned`).  After a stop has succeeded no tunnel is held, and none is
started before the next call of `connect`.

The proof follows the operations.  Of the state only a `View` matters: whether there is a session,
which tunnel is held, whether a connection is asked for, the phase, and the tunnels that were started
and stopped.  `Resting` is what each operation finds and leaves.
-/

namespace Ket.Client

open Ket.Core Ket.Lib Option
open Program (Triple Outcome)

/-! ### What matters of a state -/

structure View where
  session : Bool
  tunnel : Option Tunnel
  requested : Bool
  phase : ClientPhase
  started : List Tunnel
  stopped : List Tunnel
  halted : Bool

def World.view (w : World) : View where
  session := w.runtime.session.isSome
  tunnel := w.runtime.tunnel
  requested := w.runtime.connectionRequested
  phase := w.snapshot.phase
  started := w.started
  stopped := w.stopped
  halted := w.halted

/-- A command that starts a tunnel. -/
def Command.starts : Command → Bool
  | .connect _ _ => true
  | _ => false

/-- A command that changes nothing that matters, whatever its answer is. -/
def Command.asks : Command → Bool
  | .runtime _ | .snapshot _ | .connect _ _ | .stop _ => false
  | _ => true

namespace View

/-- After a stop no tunnel is held and none is asked for. -/
def Quiet (v : View) : Prop := v.halted = true → v.tunnel = none ∧ v.requested = false

/-- A view of a runtime state. -/
structure Agrees (v : View) (r : Runtime) : Prop where
  session : v.session = r.session.isSome
  tunnel : v.tunnel = r.tunnel
  requested : v.requested = r.connectionRequested

/-- The view after the runtime state has changed. -/
def withRuntime (v : View) (r : Runtime) : View :=
  { v with session := r.session.isSome, tunnel := r.tunnel, requested := r.connectionRequested }

lemma quiet_of_running {v : View} (h : v.halted = false) : v.Quiet := by
  intro hhalted
  rw [h] at hhalted
  cases hhalted

lemma Agrees.withRuntime_eq {v : View} {r r' : Runtime} (h : v.Agrees r)
    (hsession : r'.session.isSome = r.session.isSome) (htunnel : r'.tunnel = r.tunnel)
    (hrequested : r'.connectionRequested = r.connectionRequested) : v.withRuntime r' = v := by
  cases v
  simp only [withRuntime, hsession, htunnel, hrequested, ← h.session, ← h.tunnel, ← h.requested]

end View

lemma World.agrees_view (w : World) : w.view.Agrees w.runtime := ⟨rfl, rfl, rfl⟩

lemma World.view_other (w : World) (e : World.Other) : (w.other e).view = w.view := by
  cases e <;> rfl

lemma World.view_observeRoute (w : World) : w.observeRoute.view = w.view := by
  rw [observeRoute]
  split <;> rfl

section

variable {sha256 : Sha256}

lemma World.view_load (w : World) {readable : Bool} :
    (w.load sha256 readable).view = w.view := by
  rw [load]
  split <;> rfl

lemma World.view_of_reply {w w' : World} {c : Command} {a : Answer c} (hc : c.asks = true)
    (h : w.reply sha256 c a = some w') : w'.view = w.view := by
  cases c with
  | runtime update | snapshot update | connect transport report | stop tunnel => cases hc
  | hasChanged =>
    rw [← (of_guard h).2]
  | load =>
    cases h
    exact w.view_load
  | status tunnel =>
    simp only [reply] at h
    split at h <;> cases h <;> rfl
  | isHealthy =>
    simp only [reply] at h
    split at h
    · cases h
      rfl
    · cases h
      exact w.view_observeRoute
  | probe transport =>
    rcases a with _ | (_ | _)
    · rw [← (of_guard h).2]
    · cases h
      rfl
    · cases h
      rfl
  | _ => cases h; rfl

/-! ### Rules -/

lemma World.others_refl (w : World) :
    Relation.ReflTransGen (fun w w' => ∃ e, World.other w e = w') w w := .refl

lemma World.others_trans {w w' w'' : World}
    (h : Relation.ReflTransGen (fun w w' => ∃ e, World.other w e = w') w w')
    (h' : Relation.ReflTransGen (fun w w' => ∃ e, World.other w e = w') w' w'') :
    Relation.ReflTransGen (fun w w' => ∃ e, World.other w e = w') w w'' := h.trans h'

/-- A tunnel is started only where no stop came last. -/
def semantics (sha256 : Sha256) : Semantics World Command Answer where
  run w c a w' := w.reply sha256 c a = some w'
  others := Relation.ReflTransGen fun w w' => ∃ e, w.other e = w'
  needs w c := w.view.Quiet ∧ (c.starts = true → w.halted = false)
  refl := World.others_refl
  trans := @World.others_trans

lemma view_of_others {w w' : World} (h : (semantics sha256).others w w') :
    w'.view = w.view := by
  induction h with
  | refl => rfl
  | tail _ hlast ih =>
    obtain ⟨e, rfl⟩ := hlast
    exact (World.view_other _ e).trans ih

/-- What a part of an operation makes of a view; it keeps `Quiet`. -/
def Spec {α : Type} (sha256 : Sha256) (P : View → Prop) (p : Op α)
    (ok : α → View → Prop) (bad : ClientError → View → Prop) : Prop :=
  Triple (semantics sha256) (fun w => w.view.Quiet ∧ P w.view) p
    (fun a w => w.view.Quiet ∧ ok a w.view) (fun e w => w.view.Quiet ∧ bad e w.view)

namespace Spec

variable {α β : Type} {P P' Q : View → Prop} {ok ok' : α → View → Prop}
  {bad bad' : ClientError → View → Prop}

protected lemma pure {a : α} (h : ∀ v, P v → ok a v) : Spec sha256 P (pure a) ok bad :=
  Triple.pure fun _ hw => ⟨hw.1, h _ hw.2⟩

protected lemma throw {e : ClientError} (h : ∀ v, P v → bad e v) :
    Spec sha256 P (throw e : Op α) ok bad :=
  Triple.throw fun _ hw => ⟨hw.1, h _ hw.2⟩

variable {p : Op α}

protected lemma bind {f : α → Op β} {q : β → View → Prop} (hp : Spec sha256 P p ok bad)
    (hf : ∀ a, Spec sha256 (ok a) (f a) q bad) : Spec sha256 P (p >>= f) q bad :=
  Triple.bind hp hf

lemma mono (h : Spec sha256 P p ok bad) (hP : ∀ v, v.Quiet → P' v → P v)
    (hok : ∀ a v, ok a v → ok' a v) (hbad : ∀ e v, bad e v → bad' e v) :
    Spec sha256 P' p ok' bad' :=
  Triple.mono h (fun _ hw => ⟨hw.1, hP _ hw.1 hw.2⟩) (fun _ _ hw => ⟨hw.1, hok _ _ hw.2⟩)
    fun _ _ hw => ⟨hw.1, hbad _ _ hw.2⟩

/-- What is asked of the state before. -/
lemma weaken (h : Spec sha256 P p ok bad) (hP : ∀ v, v.Quiet → P' v → P v) :
    Spec sha256 P' p ok bad :=
  h.mono hP (fun _ _ => id) fun _ _ => id

lemma of_pure {h : Prop} (hP : ∀ v, P v → h) (hp : h → Spec sha256 P p ok bad) :
    Spec sha256 P p ok bad :=
  fun w hw => hp (hP _ hw.2) w hw

/-- What holds whether or not a stop came last. -/
lemma of_halted (h : ∀ b, Spec sha256 (fun v => P v ∧ v.halted = b) p ok bad) :
    Spec sha256 P p ok bad :=
  fun w hw => h w.view.halted w ⟨hw.1, hw.2, rfl⟩

/-- A part whose errors are looked at. -/
lemma attempt_bind {f : Except ClientError α → Op β} {q : β → View → Prop}
    (hp : Spec sha256 P p ok bad) (hok : ∀ a, Spec sha256 (ok a) (f (.ok a)) q bad')
    (hbad : ∀ e, Spec sha256 (bad e) (f (.error e)) q bad') :
    Spec sha256 P (Program.attempt p >>= f) q bad' := by
  refine Triple.bind (Triple.attempt hp) fun r => ?_
  cases r with
  | ok a => exact hok a
  | error e => exact hbad e

protected lemma command {c : Command} {ok : Answer c → View → Prop}
    (hstarts : ∀ v, P v → c.starts = true → v.halted = false)
    (hrun : ∀ (w : World) (a : Answer c) (w' : World), w.view.Quiet → P w.view →
      w.reply sha256 c a = some w' → w'.view.Quiet ∧ ok a w'.view) :
    Spec sha256 P (Op.perform c) ok bad := by
  refine Triple.command (fun w w' hothers hw => ?_) (fun w hw => ⟨hw.1, hstarts _ hw.2⟩)
    fun w a w' hw ha => ?_
  · rw [view_of_others hothers]
    exact hw
  · exact hrun w a w' hw.1 hw.2 ha

lemma ask {c : Command} (hc : c.asks = true) :
    Spec sha256 P (Op.perform c) (fun _ => P) bad := by
  refine Spec.command (fun v _ hstarts => ?_) fun w a w' hquiet hP hreply => ?_
  · cases c <;> cases hstarts
    cases hc
  · rw [World.view_of_reply hc hreply]
    exact ⟨hquiet, hP⟩

protected lemma runtime {f : Runtime → Runtime} {ok : Runtime → View → Prop}
    (h : ∀ v r, v.Agrees r → v.Quiet → P v →
      (v.withRuntime (f r)).Quiet ∧ ok r (v.withRuntime (f r))) :
    Spec sha256 P (Op.runtime f) ok bad := by
  refine Spec.command (fun _ _ hstarts => by cases hstarts) fun w r w' hquiet hP hreply => ?_
  obtain ⟨rfl, rfl⟩ := of_guard hreply
  exact h w.view w.runtime w.agrees_view hquiet hP

protected lemma readRuntime : Spec sha256 P Op.readRuntime (fun r v => P v ∧ v.Agrees r) bad := by
  refine Spec.runtime fun v r hagrees hquiet hP => ?_
  have heq : v.withRuntime (id r) = v := hagrees.withRuntime_eq rfl rfl rfl
  rw [heq]
  exact ⟨hquiet, hP, hagrees⟩

lemma runtime_same {f : Runtime → Runtime} (hsession : ∀ r, (f r).session.isSome = r.session.isSome)
    (htunnel : ∀ r, (f r).tunnel = r.tunnel)
    (hrequested : ∀ r, (f r).connectionRequested = r.connectionRequested) :
    Spec sha256 P (Op.runtime f) (fun r v => P v ∧ v.Agrees r) bad := by
  refine Spec.runtime fun v r hagrees hquiet hP => ?_
  rw [hagrees.withRuntime_eq (hsession r) (htunnel r) (hrequested r)]
  exact ⟨hquiet, hP, hagrees⟩

lemma runtime_keep {f : Runtime → Runtime} (hsession : ∀ r, (f r).session.isSome = r.session.isSome)
    (htunnel : ∀ r, (f r).tunnel = r.tunnel)
    (hrequested : ∀ r, (f r).connectionRequested = r.connectionRequested) :
    Spec sha256 P (Op.runtime f) (fun _ => P) bad :=
  (runtime_same hsession htunnel hrequested).mono (fun _ _ => id) (fun _ _ h => h.1) fun _ _ => id

variable {f : ClientSnapshot → ClientSnapshot}

protected lemma updateSnapshot
    (h : ∀ (s : ClientSnapshot) (v : View), s.phase = v.phase → P v →
      Q { v with phase := (f s).phase }) :
    Spec sha256 P (Op.updateSnapshot f) (fun _ => Q) bad := by
  have hupdate : Spec sha256 P (Op.perform (.snapshot f)) (fun _ => Q) bad := by
    refine Spec.command (fun _ _ hstarts => by cases hstarts) fun w r w' hquiet hP hreply => ?_
    obtain ⟨rfl, rfl⟩ := of_guard hreply
    exact ⟨hquiet, h _ _ rfl hP⟩
  exact hupdate.bind fun _ => Spec.pure fun _ => id

lemma show_phase {phase : ClientPhase}
    (hf : ∀ s, (f s).phase = phase) :
    Spec sha256 (fun v => Q { v with phase := phase }) (Op.updateSnapshot f) (fun _ => Q) bad :=
  Spec.updateSnapshot fun s v _ hQ => by rw [hf]; exact hQ

lemma show_same (hf : ∀ s, (f s).phase = s.phase) :
    Spec sha256 P (Op.updateSnapshot f) (fun _ => P) bad :=
  Spec.updateSnapshot fun s v hs hP => by rw [hf, hs]; exact hP

protected lemma snapshot : Spec sha256 P Op.snapshot (fun _ => P) bad := by
  refine Spec.command (fun _ _ hstarts => by cases hstarts) fun w r w' hquiet hP hreply => ?_
  obtain ⟨rfl, rfl⟩ := of_guard hreply
  exact ⟨hquiet, hP⟩

/-- The end of many operations: the snapshot is returned. -/
lemma then_snapshot {p : Op Unit} (h : Spec sha256 P p (fun _ => Q) bad) :
    Spec sha256 P (p >>= fun _ => Op.snapshot) (fun _ => Q) bad :=
  h.bind fun _ => Spec.snapshot

/-- An error is returned after something was done. -/
lemma then_throw {p : Op Unit} {e : ClientError} (h : Spec sha256 P p (fun _ => Q) bad)
    (hbad : ∀ v, Q v → bad e v) : Spec sha256 P (p >>= fun _ => (throw e : Op α)) ok bad :=
  h.bind fun _ => Spec.throw hbad

end Spec

/-! ### Assertions -/

namespace View

/-- Each tunnel that was started is held or was stopped. -/
def Owned (v : View) : Prop := ∀ t ∈ v.started, v.tunnel = some t ∨ t ∈ v.stopped

/-- What each operation finds and leaves. -/
structure Resting (v : View) : Prop where
  owned : v.Owned
  session : v.tunnel.isSome = true → v.session = true
  requested : v.requested = true → v.session = true
  phase : v.phase = .connected → v.tunnel.isSome = true

/-- A session is there, and no stop came last. -/
structure Active (v : View) : Prop where
  enrolled : v.session = true
  running : v.halted = false

/-- No tunnel is held and none has to be stopped. -/
structure Clear (v : View) : Prop where
  tunnel : v.tunnel = none
  stopped : ∀ t ∈ v.started, t ∈ v.stopped

/-- The tunnel that was held is in the hands of the operation. -/
structure Taken (t : Tunnel) (v : View) : Prop extends Active v where
  tunnel : v.tunnel = none
  stopped : ∀ t' ∈ v.started, t' = t ∨ t' ∈ v.stopped

/-- A tunnel may be started. -/
structure Ready (v : View) : Prop extends Clear v, Active v

/-- No tunnel is held, and none is asked for. -/
structure Released (halted : Bool) (v : View) : Prop extends Clear v where
  requested : v.requested = false
  halted : v.halted = halted

/-- The same, but for a tunnel that the operation has yet to stop. -/
def InHand (halted : Bool) : Option Tunnel → View → Prop
  | none, v => v.Released halted
  | some t, v => v.Taken t ∧ v.requested = false ∧ v.halted = halted

/-- An operation may end here, or go on to connect. -/
structure Kept (v : View) : Prop extends Resting v, Active v

variable {v v' : View} {t : Tunnel}

lemma Clear.owned (h : v.Clear) : v.Owned := fun t ht => .inr (h.stopped t ht)

lemma Clear.resting (h : v.Clear) (hrequested : v.requested = true → v.session = true)
    (hphase : v.phase ≠ .connected) : v.Resting where
  owned := h.owned
  session ht := by simp [h.tunnel] at ht
  requested := hrequested
  phase hconnected := absurd hconnected hphase

lemma Owned.clear (h : v.Owned) (ht : v.tunnel = none) : v.Clear where
  tunnel := ht
  stopped t' ht' := (h t' ht').resolve_left (by simp [ht])

/-- A tunnel that is held makes every phase true. -/
lemma Owned.kept (h : v.Owned) (ht : v.tunnel = some t) (hactive : v.Active) : v.Kept where
  owned := h
  session _ := hactive.enrolled
  requested _ := hactive.enrolled
  phase _ := by rw [ht]; rfl
  toActive := hactive

lemma Owned.stopped (h : v.Owned) (ht : v.tunnel = some t) :
    ∀ t' ∈ v.started, t' = t ∨ t' ∈ v.stopped :=
  fun t' ht' => (h t' ht').imp (fun heq => Option.some.inj (heq.symm.trans ht)) id

/-- A tunnel that is held again, or for the first time. -/
lemma Taken.owned (h : v.Taken t) : { v with tunnel := some t }.Owned :=
  fun t' ht' => (h.stopped t' ht').imp (fun heq => congrArg some heq.symm) id

lemma Taken.mem_stopped (h : v.Taken t) : ∀ t' ∈ v.started, t' ∈ t :: v.stopped := by
  intro t' ht'
  rcases h.stopped t' ht' with rfl | hstopped
  · exact List.mem_cons_self
  · exact List.mem_cons_of_mem _ hstopped

/-- A tunnel is held only while there is a session and no stop came last. -/
lemma Resting.active (h : v.Resting) (hquiet : v.Quiet) (ht : v.tunnel = some t) : v.Active where
  enrolled := h.session (by rw [ht]; rfl)
  running := by
    cases hhalted : v.halted with
    | false => rfl
    | true => simp [(hquiet hhalted).1] at ht

/-- A connection is asked for only while there is a session and no stop came last. -/
lemma Resting.active_of_requested (h : v.Resting) (hquiet : v.Quiet) (hr : v.requested = true) :
    v.Active where
  enrolled := h.requested hr
  running := by
    cases hhalted : v.halted with
    | false => rfl
    | true => simp [(hquiet hhalted).2] at hr

variable {phase : ClientPhase} {b : Bool}

lemma Resting.show (h : v.Resting) (hphase : phase ≠ .connected) :
    { v with phase := phase }.Resting :=
  ⟨h.owned, h.session, h.requested, fun heq => absurd heq hphase⟩

lemma Kept.show (h : v.Kept) (hphase : phase ≠ .connected) : { v with phase := phase }.Kept :=
  ⟨h.toResting.show hphase, h.enrolled, h.running⟩

lemma Released.resting (h : v.Released b) (hphase : phase ≠ .connected) :
    { v with phase := phase }.Resting :=
  Clear.resting ⟨h.tunnel, h.stopped⟩ (fun hr => by simp [h.requested] at hr) hphase

lemma Released.show (h : v.Released b) (phase : ClientPhase) :
    { v with phase := phase }.Released b :=
  ⟨⟨h.tunnel, h.stopped⟩, h.requested, h.halted⟩

lemma InHand.show {tunnel : Option Tunnel} (h : v.InHand b tunnel) (phase : ClientPhase) :
    { v with phase := phase }.InHand b tunnel := by
  cases tunnel with
  | none => exact Released.show h phase
  | some t => exact ⟨⟨⟨h.1.enrolled, h.1.running⟩, h.1.tunnel, h.1.stopped⟩, h.2⟩

lemma Ready.kept (h : v.Ready) (hphase : phase ≠ .connected) : { v with phase := phase }.Kept :=
  ⟨Clear.resting ⟨h.tunnel, h.stopped⟩ (fun _ => h.enrolled) hphase, h.enrolled, h.running⟩

end View

/-! ### Parts of the operations -/

namespace KetClient

open View

variable {K : KetClient} {P Q : View → Prop} {bad : ClientError → View → Prop}

variable {e : ClientError} {transportId : String} {report : ProbeReport}
  {transport : SessionTransport} {f : Runtime → Runtime} {t : Tunnel}
  {reconnecting surfaceErrors b renew : Bool} {index : ℕ} {tunnel : Option Tunnel}
  {op : Operation} {w : World}

lemma spec_fail :
    Spec sha256 (fun v => Q { v with phase := .error }) (fail e) (fun _ => Q) bad :=
  Spec.show_phase fun _ => rfl

lemma spec_noteFallback {fallback : TransportFallback} :
    Spec sha256 P (noteFallback fallback) (fun _ => P) bad :=
  Spec.show_same fun _ => rfl

lemma spec_record {recording : Recording} : Spec sha256 P (record recording) (fun _ => P) bad :=
  (Spec.ask rfl).bind fun _ => Spec.pure fun _ => id

lemma spec_coolDown : Spec sha256 P (K.coolDown transportId) (fun _ => P) bad :=
  (Spec.ask rfl).bind fun _ => spec_record

lemma spec_recordFailure {transport : TransportSummary} {stage : FallbackStage} :
    Spec sha256 P (K.recordFailure transport e stage) (fun _ => P) bad :=
  spec_coolDown.bind fun _ => (Spec.ask rfl).bind fun _ => spec_noteFallback

lemma spec_recordLostTunnel {code message : String} :
    Spec sha256 P (K.recordLostTunnel transportId code message) (fun _ => P) bad := by
  refine spec_coolDown.bind fun _ => Spec.snapshot.bind fun s => ?_
  split
  · exact spec_noteFallback
  · exact Spec.pure fun _ => id

lemma spec_cacheProbe : Spec sha256 P (cacheProbe transport report) (fun _ => P) bad := by
  have hupdate : Spec sha256 P (Op.runtime fun r =>
      { r with probes := r.probes.insert transport.profile.id ⟨.of transport, report⟩ })
      (fun _ => P) bad := Spec.runtime_keep (fun _ => rfl) (fun _ => rfl) fun _ => rfl
  exact hupdate.bind fun _ => Spec.pure fun _ => id

lemma spec_cachedProbe : Spec sha256 P (cachedProbe transport e) (fun _ => P) bad := by
  rw [cachedProbe]
  split
  · exact Spec.pure fun _ => id
  · exact Spec.readRuntime.bind fun r => Spec.pure fun _ h => h.1

/-- The tunnel that is held goes into the hands of the operation. -/
lemma spec_take (hP : ∀ v, v.Quiet → P v → v.Owned ∧ v.tunnel = some t ∧ v.Active)
    (hsession : ∀ r, (f r).session.isSome = r.session.isSome)
    (htunnel : ∀ v r, P v → v.Agrees r → (f r).tunnel = none) : Spec sha256 P (Op.runtime f)
      (fun r v => v.Taken t ∧ r.tunnel = some t ∧ v.requested = (f r).connectionRequested) bad := by
  refine Spec.runtime fun v r hagrees hquiet hv => ?_
  obtain ⟨howned, hheld, hactive⟩ := hP v hquiet hv
  have htaken : (v.withRuntime (f r)).Taken t :=
    { enrolled := (hsession r).trans (hagrees.session.symm.trans hactive.enrolled)
      running := hactive.running
      tunnel := htunnel v r hv hagrees
      stopped := howned.stopped hheld }
  exact ⟨quiet_of_running hactive.running, htaken, hagrees.tunnel.symm.trans hheld, rfl⟩

/-- A tunnel is stopped, or held again; what is asked for stays the same. -/
lemma spec_stop_of (R : Bool → Bool → Prop) :
    Spec sha256 (fun v => v.Taken t ∧ R v.requested v.halted) (stopAndRetainOnFailure t)
      (fun _ v => v.Ready ∧ R v.requested v.halted) (fun _ v => v.Kept ∧ R v.requested v.halted) := by
  have hstop : Spec sha256 (fun v => v.Taken t ∧ R v.requested v.halted) (Op.perform (.stop t))
      (fun r v => match r with
        | .ok _ => v.Ready ∧ R v.requested v.halted
        | .error _ => v.Taken t ∧ R v.requested v.halted)
      (fun _ v => v.Kept ∧ R v.requested v.halted) := by
    refine Spec.command (fun _ _ hstarts => by cases hstarts) fun w r w' hquiet hP hreply => ?_
    obtain ⟨htaken, hR⟩ := hP
    cases r with
    | ok u =>
      cases hreply
      exact ⟨quiet_of_running htaken.running,
        ⟨⟨htaken.tunnel, htaken.mem_stopped⟩, htaken.enrolled, htaken.running⟩, hR⟩
    | error e =>
      cases hreply
      exact ⟨hquiet, htaken, hR⟩
  refine hstop.bind fun r => ?_
  cases r with
  | ok u => exact Spec.pure fun _ => id
  | error e =>
    have hretain : Spec sha256 (fun v => v.Taken t ∧ R v.requested v.halted)
        (Op.runtime (Runtime.retain t)) (fun _ v => v.Kept ∧ R v.requested v.halted)
        (fun _ v => v.Kept ∧ R v.requested v.halted) := by
      refine Spec.runtime fun v r hagrees hquiet hP => ?_
      obtain ⟨htaken, hR⟩ := hP
      have htunnel : r.tunnel = none := hagrees.tunnel.symm.trans htaken.tunnel
      have heq : v.withRuntime (Runtime.retain t r) = { v with tunnel := some t } := by
        simp only [withRuntime, Runtime.retain, htunnel, isNone_none, if_true,
          ← hagrees.session, ← hagrees.requested]
      rw [heq]
      exact ⟨quiet_of_running htaken.running,
        htaken.owned.kept rfl ⟨htaken.enrolled, htaken.running⟩, hR⟩
    exact hretain.bind fun _ => Spec.throw fun _ => id

lemma spec_stop : Spec sha256 (Taken t) (stopAndRetainOnFailure t)
    (fun _ => Ready) (fun _ => Kept) :=
  (spec_stop_of fun _ _ => True).mono (fun _ _ hv => ⟨hv, trivial⟩) (fun _ _ hv => hv.1)
    fun _ _ hv => hv.1

/-! ### Connecting -/

lemma spec_stopStaleTunnel : Spec sha256 (fun v => v.Owned ∧ v.Active) stopStaleTunnel
    (fun _ => Ready) (fun _ => Kept) := by
  refine Spec.readRuntime.bind fun r => ?_
  cases htunnel : r.tunnel with
  | none => exact Spec.pure fun v hv => ⟨hv.1.1.clear (hv.2.tunnel.trans htunnel), hv.1.2⟩
  | some t =>
    refine (Spec.ask rfl).bind fun status => ?_
    split
    · refine Spec.throw fun v hv => ?_
      exact hv.1.1.kept (hv.2.tunnel.trans htunnel) hv.1.2
    · have htake : Spec sha256 (fun v => (v.Owned ∧ v.Active) ∧ v.Agrees r)
          (Op.runtime Runtime.withoutTunnel)
          (fun r v => v.Taken t ∧ r.tunnel = some t ∧ v.requested = r.connectionRequested)
          (fun _ => Kept) :=
        spec_take (fun v _ hv => ⟨hv.1.1, hv.2.tunnel.trans htunnel, hv.1.2⟩)
          (fun _ => rfl) (fun _ _ _ _ => rfl)
      exact htake.bind fun _ => spec_stop.weaken fun _ _ hv => hv.1

lemma spec_candidates : Spec sha256 Ready K.candidates (fun _ => Ready) (fun _ => Kept) := by
  refine (Spec.ask rfl).bind fun _ => (Spec.ask rfl).bind fun now =>
    Spec.readRuntime.bind fun r => ?_
  cases hsession : r.session with
  | none =>
    -- there is a session
    refine Spec.throw fun v hv => ?_
    have hsome := hv.2.session.symm.trans hv.1.enrolled
    rw [hsession] at hsome
    cases hsome
  | some session => exact Spec.pure fun v hv => hv.1

lemma spec_finishCancelledConnection :
    Spec sha256 Ready finishCancelledConnection (fun _ => Kept) bad := by
  have hupdate : Spec sha256 Ready
      (Op.runtime fun r => { r with connectionRequested := false }) (fun _ => Ready) bad := by
    refine Spec.runtime fun v r hagrees hquiet hv => ⟨quiet_of_running hv.running, ?_⟩
    exact ⟨⟨hagrees.tunnel.symm.trans hv.tunnel, hv.stopped⟩,
      hagrees.session.symm.trans hv.enrolled, hv.running⟩
  refine hupdate.bind fun _ => Spec.then_snapshot ?_
  exact Spec.updateSnapshot fun s v _ hv => hv.kept nofun

lemma spec_keepTunnel {started : StartedTunnel} :
    Spec sha256 (Taken started.tunnel) (keepTunnel transport report started) (fun _ => Kept)
      (fun _ => Kept) := by
  refine (Spec.ask rfl).bind fun changed => ?_
  cases changed with
  | true =>
    refine spec_stop.attempt_bind (fun _ => spec_finishCancelledConnection) fun e => ?_
    exact Spec.then_throw (spec_fail.weaken fun v _ hv => hv.show nofun) fun _ => id
  | false =>
    refine spec_cacheProbe.bind fun _ => spec_record.bind fun _ =>
      (Spec.ask rfl).bind fun network => ?_
    have hkeep : Spec sha256 (Taken started.tunnel)
        (Op.runtime fun r => { r with
          networkGeneration := network.generation, tunnel := some started.tunnel })
        (fun _ v => v.Owned ∧ v.tunnel = some started.tunnel ∧ v.Active) (fun _ => Kept) := by
      refine Spec.runtime fun v r hagrees hquiet hv => ⟨quiet_of_running hv.running, ?_, rfl, ?_⟩
      · exact hv.owned
      · exact ⟨hagrees.session.symm.trans hv.enrolled, hv.running⟩
    refine hkeep.bind fun _ => (Spec.ask rfl).bind fun now => Spec.then_snapshot ?_
    refine Spec.updateSnapshot fun s v _ hv => ?_
    exact Owned.kept hv.1 hv.2.1 ⟨hv.2.2.enrolled, hv.2.2.running⟩

/-- What a trial leaves. -/
def AfterTrial : Trial → View → Prop
  | .finished _, v => v.Kept
  | .next _, v => v.Ready

/-- An adapter is asked for a tunnel. -/
lemma spec_connect : Spec sha256 Ready (Op.perform (.connect transport report))
      (fun a v => match a with
        | some (.ok started) => v.Taken started.tunnel
        | _ => v.Ready) bad := by
  refine Spec.command (fun v hv _ => hv.running) fun w a w' hquiet hv hreply => ?_
  rcases a with _ | (e | started)
  · obtain ⟨-, rfl⟩ := of_guard hreply
    exact ⟨hquiet, hv⟩
  · cases hreply
    exact ⟨hquiet, hv⟩
  · simp only [World.reply, ite_none_left_eq_some, Option.some.injEq] at hreply
    obtain ⟨-, rfl⟩ := hreply
    have htaken : ∀ t ∈ started.tunnel :: w.started, t = started.tunnel ∨ t ∈ w.stopped :=
      fun t ht => (List.mem_cons.mp ht).imp id (hv.stopped t)
    exact ⟨hquiet, ⟨hv.enrolled, hv.running⟩, hv.tunnel, htaken⟩

lemma spec_startTransport :
    Spec sha256 Ready (K.startTransport reconnecting transport report) AfterTrial
      (fun _ => Kept) := by
  have hshow : Spec sha256 Ready (Op.updateSnapshot fun s =>
      { s with phase := if reconnecting then .reconnecting else .connecting })
      (fun _ => Ready) (fun _ => Kept) :=
    Spec.updateSnapshot fun s v _ hv => ⟨⟨hv.tunnel, hv.stopped⟩, hv.enrolled, hv.running⟩
  refine hshow.bind fun _ => spec_connect.bind fun a => ?_
  rcases a with _ | (e | started)
  · exact spec_finishCancelledConnection.bind fun s => Spec.pure fun _ => id
  · exact spec_recordFailure.bind fun _ => Spec.pure fun _ => id
  · exact spec_keepTunnel.bind fun s => Spec.pure fun _ => id

lemma spec_tryTransport :
    Spec sha256 Ready (K.tryTransport reconnecting index transport) AfterTrial
      (fun _ => Kept) := by
  have hshow : ∀ f : ClientSnapshot → ClientSnapshot,
      Spec sha256 Ready (Op.updateSnapshot f) (fun _ => Ready) (fun _ => Kept) := fun f =>
    Spec.updateSnapshot fun s v _ hv => ⟨⟨hv.tunnel, hv.stopped⟩, hv.enrolled, hv.running⟩
  refine (hshow _).bind fun _ => (Spec.ask rfl).bind fun a => ?_
  rcases a with _ | (e | report)
  · exact spec_finishCancelledConnection.bind fun s => Spec.pure fun _ => id
  · refine spec_cachedProbe.bind fun cached => ?_
    cases cached with
    | some report => exact spec_startTransport
    | none => exact spec_recordFailure.bind fun _ => Spec.pure fun _ => id
  · exact spec_startTransport

lemma spec_tryEach {lastError : Option ClientError} {candidates : List SessionTransport} :
    Spec sha256 Ready (K.tryEach reconnecting index lastError candidates) (fun _ => Kept)
      (fun _ => Kept) := by
  induction candidates generalizing index lastError with
  | nil => exact Spec.then_throw (spec_fail.weaken fun v _ hv => hv.kept nofun) fun _ => id
  | cons transport rest ih =>
    refine spec_tryTransport.bind fun trial => ?_
    cases trial with
    | finished s => exact Spec.pure fun _ => id
    | next e => exact ih

lemma spec_connectLocked :
    Spec sha256 (fun v => v.Owned ∧ v.Active) (K.connectLocked reconnecting) (fun _ => Kept)
      (fun _ => Kept) := by
  refine (Spec.ask rfl).bind fun _ => spec_stopStaleTunnel.bind fun _ =>
    spec_candidates.bind fun found => ?_
  have hclear : Spec sha256 Ready (clearFallbacks reconnecting) (fun _ => Ready)
      (fun _ => Kept) := by
    rw [clearFallbacks]
    split
    · exact Spec.pure fun _ => id
    · exact Spec.show_same fun _ => rfl
  refine hclear.bind fun _ => ?_
  split
  · exact Spec.then_throw (spec_fail.weaken fun v _ hv => hv.kept nofun) fun _ => id
  · exact spec_tryEach

/-! ### The session -/

lemma spec_surface : Spec sha256 P (surface surfaceErrors e) (fun _ => P) bad := by
  rw [surface]
  split
  · exact Spec.show_same fun _ => rfl
  · exact Spec.pure fun _ => id

lemma spec_applyStatus {status : SessionStatus} {renewed : Bool} :
    Spec sha256 P (applyStatus status renewed) (fun _ => P) bad := by
  refine (Spec.ask rfl).bind fun now => ?_
  have hupdate : ∀ deadline, Spec sha256 P (Op.runtime (Runtime.applyStatus status deadline))
      (fun _ => P) bad := fun deadline =>
    Spec.runtime_keep (fun _ => isSome_map) (fun _ => rfl) fun _ => rfl
  exact (hupdate _).bind fun _ => Spec.show_same fun _ => rfl

/-- The request for a connection is withdrawn, and the tunnel is taken. -/
lemma spec_release (hsession : ∀ r, (f r).session.isSome = r.session.isSome)
    (htunnel : ∀ r, (f r).tunnel = none) (hrequested : ∀ r, (f r).connectionRequested = false) :
    Spec sha256 (fun v => v.Resting ∧ v.halted = b) (Op.runtime f)
      (fun r v => v.InHand b r.tunnel ∧ v.session = r.session.isSome) bad := by
  refine Spec.runtime fun v r hagrees hquiet hv => ?_
  refine ⟨fun _ => ⟨htunnel r, hrequested r⟩, ?_, hsession r⟩
  cases hr : r.tunnel with
  | none =>
    have hclear := hv.1.owned.clear (hagrees.tunnel.trans hr)
    exact ⟨⟨htunnel r, hclear.stopped⟩, hrequested r, hv.2⟩
  | some t =>
    have hheld := hagrees.tunnel.trans hr
    have hactive := hv.1.active hquiet hheld
    refine ⟨⟨⟨?_, hactive.running⟩, htunnel r, hv.1.owned.stopped hheld⟩, hrequested r, hv.2⟩
    exact (hsession r).trans (hagrees.session.symm.trans hactive.enrolled)

lemma spec_stopOrShow : Spec sha256 (InHand b tunnel) (stopOrShow tunnel) (fun _ => Released b)
      (fun _ v => v.Kept ∧ v.halted = b) := by
  cases tunnel with
  | none => exact Spec.pure fun _ => id
  | some t =>
    have hstop : Spec sha256 (InHand b (some t)) (stopAndRetainOnFailure t)
        (fun _ v => v.Ready ∧ v.requested = false ∧ v.halted = b)
        (fun _ v => v.Kept ∧ v.requested = false ∧ v.halted = b) :=
      spec_stop_of fun requested halted => requested = false ∧ halted = b
    refine hstop.attempt_bind (fun _ => Spec.pure fun v hv => ?_) fun e => ?_
    · exact ⟨hv.1.toClear, hv.2.1, hv.2.2⟩
    · refine Spec.then_throw (Spec.updateSnapshot fun s v _ hv => ?_) fun _ => id
      exact ⟨hv.1.show nofun, hv.2.2⟩

/-- The session changes where no tunnel is held. -/
lemma spec_session_changed (htunnel : ∀ r, (f r).tunnel = r.tunnel)
    (hrequested : ∀ r, (f r).connectionRequested = r.connectionRequested) :
    Spec sha256 (Released b) (Op.runtime f) (fun _ => Released b) bad := by
  refine Spec.runtime fun v r hagrees hquiet hv => ?_
  have ht : (f r).tunnel = none := (htunnel r).trans (hagrees.tunnel.symm.trans hv.tunnel)
  have hr : (f r).connectionRequested = false :=
    (hrequested r).trans (hagrees.requested.symm.trans hv.requested)
  exact ⟨fun _ => ⟨ht, hr⟩, ⟨ht, hv.stopped⟩, hr, hv.halted⟩

/-- What a refresh leaves when it fails. -/
def AfterRefresh (b : Bool) (e : ClientError) (v : View) : Prop :=
  v.Resting ∧ v.halted = b ∧ (e.isNetwork = true → v.session = true)

lemma isNetwork_of_endsSession (h : e.endsSession = true) : e.isNetwork = false := by
  cases e <;> first | rfl | cases h

lemma spec_endSession (he : e.endsSession = true) :
    Spec sha256 (fun v => v.Resting ∧ v.halted = b) (endSession e)
      (fun _ v => v.Resting ∧ v.halted = b ∧ v.session = true) (AfterRefresh b) := by
  have hrelease : Spec sha256 (fun v => v.Resting ∧ v.halted = b)
      (Op.runtime fun r => { r with
        connectionRequested := false, preferredProtocol := none, tunnel := none })
      (fun r v => v.InHand b r.tunnel ∧ v.session = r.session.isSome) (AfterRefresh b) :=
    spec_release (fun _ => rfl) (fun _ => rfl) fun _ => rfl
  refine hrelease.bind fun r => ?_
  have hstop : Spec sha256 (fun v => v.InHand b r.tunnel ∧ v.session = r.session.isSome)
      (stopOrShow r.tunnel) (fun _ => Released b) (AfterRefresh b) :=
    spec_stopOrShow.mono (fun _ _ hv => hv.1) (fun _ _ => id)
      fun _ _ hv => ⟨hv.1.toResting, hv.2, fun _ => hv.1.enrolled⟩
  have hforget : Spec sha256 (Released b) (Op.runtime Runtime.withoutSession)
      (fun _ => Released b) (AfterRefresh b) := spec_session_changed (fun _ => rfl) fun _ => rfl
  refine hstop.bind fun _ => hforget.bind fun _ =>
    Spec.then_throw (Q := fun v => v.Resting ∧ v.halted = b) ?_ fun v hv => ?_
  · exact Spec.updateSnapshot fun s v _ hv => ⟨hv.resting nofun, hv.halted⟩
  · refine ⟨hv.1, hv.2, fun hnetwork => ?_⟩
    rw [isNetwork_of_endsSession he] at hnetwork
    cases hnetwork

lemma spec_requestStatus {token : String} :
    Spec sha256 P (requestStatus renew token) (fun _ => P) bad := by
  cases renew with
  | _ => exact Spec.ask rfl

lemma spec_refreshLocked :
    Spec sha256 (fun v => v.Resting ∧ v.halted = b) (K.refreshLocked renew surfaceErrors)
      (fun _ v => v.Resting ∧ v.halted = b ∧ v.session = true) (AfterRefresh b) := by
  refine Spec.readRuntime.bind fun r => ?_
  cases hsession : r.session with
  | none => exact Spec.throw fun v hv => ⟨hv.1.1, hv.1.2, nofun⟩
  | some session =>
    have henrolled : ∀ v : View, v.Agrees r → v.session = true := fun v hagrees =>
      hagrees.session.trans (by rw [hsession]; rfl)
    refine spec_requestStatus.bind fun answer => ?_
    cases answer with
    | ok status =>
      refine (Spec.ask rfl).bind fun now => ?_
      split
      · exact Spec.then_throw spec_surface fun v hv =>
          ⟨hv.1.1, hv.1.2, fun _ => henrolled v hv.2⟩
      · refine spec_applyStatus.bind fun _ => ?_
        exact Spec.snapshot.mono (fun _ _ => id)
          (fun _ v hv => ⟨hv.1.1, hv.1.2, henrolled v hv.2⟩) fun _ _ => id
    | error e =>
      show Spec sha256 _ (if e.endsSession = true then endSession e else _) _ _
      split
      · rename_i he
        exact (spec_endSession he).weaken fun _ _ hv => hv.1
      · exact Spec.then_throw spec_surface fun v hv =>
          ⟨hv.1.1, hv.1.2, fun _ => henrolled v hv.2⟩

/-- A refresh, where nothing but the rest matters. -/
lemma spec_refreshLocked_resting :
    Spec sha256 Resting (K.refreshLocked renew surfaceErrors) (fun _ => Resting)
      (fun _ => Resting) :=
  Spec.of_halted fun _ => spec_refreshLocked.mono (fun _ _ => id) (fun _ _ hv => hv.1)
    fun _ _ hv => hv.1

lemma spec_reconnectLocked : Spec sha256 (fun v => v.Owned ∧ v.Active) K.reconnectLocked
    (fun _ => Resting) (fun _ => Resting) := by
  refine spec_connectLocked.attempt_bind (fun s => Spec.pure fun _ hv => hv.toResting)
    fun connectionError => ?_
  have hfail : Spec sha256 Resting (do
      fail connectionError
      throw connectionError : Op ClientSnapshot) (fun _ => Resting) (fun _ => Resting) :=
    Spec.then_throw (spec_fail.weaken fun _ _ hv => hv.show nofun) fun _ => id
  refine (Spec.ask rfl).bind fun now => Spec.readRuntime.bind fun r => ?_
  refine (spec_refreshLocked_resting.weaken fun _ _ hv => hv.1.toResting).attempt_bind
    (fun s => hfail) fun e => ?_
  show Spec sha256 Resting (if e.endsSession = true then _ else _) _ _
  split
  · exact Spec.throw fun _ => id
  · exact hfail

lemma spec_renewBeforeConnectLocked : Spec sha256 Kept K.renewBeforeConnectLocked
    (fun _ => Kept) (fun _ v => v.Resting ∧ v.halted = false) := by
  refine (Spec.ask rfl).bind fun now => Spec.readRuntime.bind fun r => ?_
  cases hsession : r.session with
  | none => exact Spec.throw fun v hv => ⟨hv.1.toResting, hv.1.running⟩
  | some session =>
    show Spec sha256 _ (if r.isRenewalDue now = true then _ else _) _ _
    split
    · have hrefresh : Spec sha256 (fun v => v.Kept ∧ v.Agrees r) (K.refreshLocked true false)
          (fun _ v => v.Resting ∧ v.halted = false ∧ v.session = true) (AfterRefresh false) :=
        spec_refreshLocked.weaken fun _ _ hv => ⟨hv.1.toResting, hv.1.running⟩
      refine hrefresh.attempt_bind (fun s => Spec.pure fun v hv => ⟨hv.1, hv.2.2, hv.2.1⟩)
        fun e => ?_
      refine (Spec.ask rfl).bind fun later => ?_
      split
      · rename_i hnetwork
        refine Spec.weaken (P := Kept) (Spec.show_same fun _ => rfl) fun v _ hv => ?_
        exact ⟨hv.1, hv.2.2 (Bool.and_eq_true_iff.mp hnetwork).1, hv.2.1⟩
      · exact Spec.throw fun v hv => ⟨hv.1, hv.2.1⟩
    · exact Spec.pure fun _ hv => hv.1

/-! ### The operations -/

/-- An error is shown that ends an operation at rest. -/
lemma spec_fail_throw :
    Spec sha256 (Released b) (do
      fail e
      throw e : Op ClientSnapshot) (fun _ => Resting) (fun _ => Resting) :=
  Spec.then_throw (spec_fail.weaken fun _ _ hv => hv.resting nofun) fun _ => id

lemma spec_acceptManifest {manifest : SessionManifest} :
    Spec sha256 (Released b) (K.acceptManifest manifest) (fun _ => Resting)
      (fun _ => Resting) := by
  refine (Spec.ask rfl).bind fun now => ?_
  split
  · split
    · exact (Spec.ask rfl).bind fun _ => spec_fail_throw
    · exact spec_fail_throw
  · refine (Spec.ask rfl).bind fun now => ?_
    have hupdate : Spec sha256 (Released b) (Op.runtime fun r => { r with
        renewAt := some (renewalDeadline now manifest.sessionExpiresAt)
        session := some manifest }) (fun _ => Released b) (fun _ => Resting) :=
      spec_session_changed (fun _ => rfl) fun _ => rfl
    refine hupdate.bind fun _ => Spec.then_snapshot ?_
    exact Spec.updateSnapshot fun s v _ hv => hv.resting nofun

lemma spec_enroll {accessCode : String} :
    Spec sha256 Resting (K.enroll accessCode) (fun _ => Resting) (fun _ => Resting) := by
  refine Spec.of_halted fun b => ?_
  rw [enroll]
  split
  · exact Spec.throw fun _ hv => hv.1
  · refine Spec.readRuntime.bind fun r => ?_
    split
    · exact Spec.throw fun _ hv => hv.1.1
    · rename_i hsession
      have hshow : Spec sha256 (fun v => (v.Resting ∧ v.halted = b) ∧ v.Agrees r)
          (Op.updateSnapshot fun s =>
            { s with phase := .enrolling, issue := none, reconnectAttempt := 0 })
          (fun _ => Released b) (fun _ => Resting) := by
        refine Spec.updateSnapshot fun s v _ hv => Released.show ?_ _
        -- without a session there is no tunnel, and none is asked for
        have hnone : v.session = false := hv.2.session.trans (by simpa using hsession)
        have htunnel : v.tunnel = none := by
          by_contra hsome
          have := hv.1.1.session (isSome_iff_ne_none.mpr hsome)
          simp [hnone] at this
        have hrequested : v.requested = false := by
          by_contra hsome
          have := hv.1.1.requested (by simpa using hsome)
          simp [hnone] at this
        exact ⟨hv.1.1.owned.clear htunnel, hrequested, hv.1.2⟩
      refine hshow.bind fun _ => (Spec.ask rfl).bind fun answer => ?_
      cases answer with
      | ok manifest => exact spec_acceptManifest
      | error e => exact spec_fail_throw

lemma spec_withdrawRequest : Spec sha256 (fun v => v.Resting ∧ v.halted = false)
    withdrawRequest (fun _ => Resting) bad := by
  have hupdate : Spec sha256 (fun v => v.Resting ∧ v.halted = false)
      (Op.runtime fun r => { r with connectionRequested := false }) (fun _ => Resting) bad := by
    refine Spec.runtime fun v r hagrees hquiet hv => ⟨quiet_of_running hv.2, ?_⟩
    obtain ⟨howned, hsession, -, hphase⟩ := hv.1
    rw [hagrees.tunnel, hagrees.session] at hsession
    rw [hagrees.tunnel] at hphase
    refine ⟨fun t ht => ?_, hsession, nofun, hphase⟩
    exact (howned t ht).imp hagrees.tunnel.symm.trans id
  exact hupdate.bind fun _ => Spec.pure fun _ => id

lemma spec_connectWithProtocol {preferredProtocol : Option TransportProtocol} :
    Spec sha256 (fun v => v.Resting ∧ v.halted = false)
      (K.connectWithProtocol preferredProtocol) (fun _ => Resting) (fun _ => Resting) := by
  refine Spec.readRuntime.bind fun r => ?_
  split
  · exact Spec.throw fun _ hv => hv.1.1
  · rename_i hsession
    have hrequest : Spec sha256 (fun v => (v.Resting ∧ v.halted = false) ∧ v.Agrees r)
        (Op.runtime fun r => { r with
          connectionRequested := true, preferredProtocol := preferredProtocol })
        (fun _ => Kept) (fun _ => Resting) := by
      refine Spec.runtime fun v r' hagrees hquiet hv => ⟨quiet_of_running hv.1.2, ?_⟩
      have henrolled : r'.session.isSome = true :=
        hagrees.session.symm.trans
          (hv.2.session.trans (by simpa [isSome_iff_ne_none] using hsession))
      obtain ⟨howned, -, -, hphase⟩ := hv.1.1
      rw [hagrees.tunnel] at hphase
      refine ⟨⟨fun t ht => ?_, fun _ => henrolled, fun _ => henrolled, hphase⟩, henrolled, hv.1.2⟩
      exact (howned t ht).imp hagrees.tunnel.symm.trans id
    refine hrequest.bind fun _ => ?_
    have hshow : Spec sha256 Kept (Op.updateSnapshot fun s =>
        { s with preferredProtocol := preferredProtocol }) (fun _ => Kept) (fun _ => Resting) :=
      Spec.show_same fun _ => rfl
    have hwithdraw : ∀ e, Spec sha256 (fun v => v.Resting ∧ v.halted = false) (do
        withdrawRequest
        throw e : Op ClientSnapshot) (fun _ => Resting) (fun _ => Resting) := fun e =>
      Spec.then_throw spec_withdrawRequest fun _ => id
    refine hshow.bind fun _ => spec_renewBeforeConnectLocked.attempt_bind (fun _ => ?_) hwithdraw
    refine (spec_connectLocked.weaken fun _ _ hv => ⟨hv.owned, hv.toActive⟩).attempt_bind
      (fun s => Spec.pure fun _ hv => hv.toResting) fun e => ?_
    exact (hwithdraw e).weaken fun _ _ hv => ⟨hv.toResting, hv.running⟩

/-- A tunnel that is held, and asked for. -/
lemma held_of_filter {v : View} {r : Runtime} (hagrees : v.Agrees r)
    (h : (r.tunnel.filter fun _ => r.connectionRequested) = some t) :
    v.tunnel = some t ∧ v.requested = true := by
  obtain ⟨htunnel, hrequested⟩ := filter_eq_some_iff.mp h
  exact ⟨hagrees.tunnel.trans htunnel, hagrees.requested.trans hrequested⟩

lemma spec_take_resting {r : Runtime} (hheld : ∀ v : View, v.Agrees r → v.tunnel = some t) :
    Spec sha256 (fun v => v.Resting ∧ v.Agrees r) (Op.runtime Runtime.withoutTunnel)
      (fun r v => v.Taken t ∧ r.tunnel = some t ∧ v.requested = r.connectionRequested)
      (fun _ => Resting) := by
  refine spec_take (fun v hquiet hv => ?_) (fun _ => rfl) fun _ _ _ _ => rfl
  have hheld := hheld v hv.2
  exact ⟨hv.1.owned, hheld, hv.1.active hquiet hheld⟩

lemma spec_stop_resting :
    Spec sha256 (Taken t) (stopAndRetainOnFailure t) (fun _ => Ready) (fun _ => Resting) :=
  spec_stop.mono (fun _ _ => id) (fun _ _ => id) fun _ _ hv => hv.toResting

lemma spec_reconnect_ready :
    Spec sha256 Ready K.reconnectLocked (fun _ => Resting) (fun _ => Resting) :=
  spec_reconnectLocked.weaken fun _ _ hv => ⟨hv.owned, hv.toActive⟩

lemma spec_recoverRoute :
    Spec sha256 Resting (K.recoverRoute e) (fun _ => Resting) (fun _ => Resting) := by
  have htake : Spec sha256 Resting (Op.runtime fun r =>
      if r.connectionRequested then { r with controlFailures := 0, tunnel := none } else r)
      (fun r v => (r.tunnel.filter fun _ => r.connectionRequested).elim v.Resting v.Taken)
      (fun _ => Resting) := by
    refine Spec.runtime fun v r hagrees hquiet hv => ?_
    cases hrequested : r.connectionRequested with
    | false =>
      have hnone : (r.tunnel.filter fun _ => false) = none := by cases r.tunnel <;> rfl
      have heq : v.withRuntime r = v := hagrees.withRuntime_eq rfl rfl rfl
      simp only [Bool.false_eq_true, if_false, hnone, heq]
      exact ⟨hquiet, hv⟩
    | true =>
      have hall : (r.tunnel.filter fun _ => true) = r.tunnel := by cases r.tunnel <;> rfl
      simp only [if_true, hall]
      cases htunnel : r.tunnel with
      | none =>
        have heq : v.withRuntime { r with controlFailures := 0, tunnel := none } = v :=
          hagrees.withRuntime_eq rfl htunnel.symm rfl
        rw [hrequested] at heq
        rw [heq]
        exact ⟨hquiet, hv⟩
      | some t =>
        have hheld := hagrees.tunnel.trans htunnel
        have hactive := hv.active hquiet hheld
        refine ⟨quiet_of_running hactive.running, ?_⟩
        exact ⟨⟨hagrees.session.symm.trans hactive.enrolled, hactive.running⟩, rfl,
          hv.owned.stopped hheld⟩
  refine htake.bind fun r => ?_
  cases hr : r.tunnel.filter fun _ => r.connectionRequested with
  | none => exact Spec.throw fun _ => id
  | some t =>
    exact spec_stop_resting.bind fun _ => spec_recordLostTunnel.bind fun _ => spec_reconnect_ready

lemma spec_checkRoute :
    Spec sha256 Resting (K.checkRoute e) (fun _ => Resting) (fun _ => Resting) := by
  have hcount : Spec sha256 Resting (Op.runtime fun r =>
      { r with controlFailures := min (r.controlFailures + 1) 255 }) (fun _ => Resting)
      (fun _ => Resting) := Spec.runtime_keep (fun _ => rfl) (fun _ => rfl) fun _ => rfl
  refine hcount.bind fun r => ?_
  split
  · exact Spec.throw fun _ => id
  · refine (Spec.ask rfl).bind fun network => ?_
    split
    · exact Spec.then_snapshot (Spec.show_same fun _ => rfl)
    · split
      · exact Spec.then_snapshot (Spec.show_same fun _ => rfl)
      · refine (Spec.ask rfl).bind fun healthy => ?_
        split
        · exact Spec.then_snapshot (Spec.show_same fun _ => rfl)
        · exact spec_recoverRoute

lemma spec_maintainSession :
    Spec sha256 Resting K.maintainSession (fun _ => Resting) (fun _ => Resting) := by
  refine (Spec.ask rfl).bind fun now => Spec.readRuntime.bind fun r => ?_
  refine (spec_refreshLocked_resting.weaken fun _ _ hv => hv.1).attempt_bind
    (fun s => Spec.pure fun _ => id) fun e => ?_
  show Spec sha256 Resting (if e.isNetwork = true then _ else _) _ _
  split
  · exact spec_checkRoute
  · exact Spec.throw fun _ => id

lemma spec_maintainOnce :
    Spec sha256 Resting K.maintainOnce (fun _ => Resting) (fun _ => Resting) := by
  refine Spec.readRuntime.bind fun r => ?_
  cases htunnel : r.tunnel with
  | none =>
    show Spec sha256 _ (if r.connectionRequested = true then _ else _) _ _
    split
    · rename_i hrequested
      refine spec_reconnectLocked.weaken fun v hquiet hv => ⟨hv.1.owned, ?_⟩
      exact hv.1.active_of_requested hquiet (hv.2.requested.trans hrequested)
    · exact spec_maintainSession.weaken fun _ _ hv => hv.1
  | some t =>
    refine (Spec.ask rfl).bind fun status => ?_
    split
    · exact spec_maintainSession.weaken fun _ _ hv => hv.1
    · refine (spec_take_resting fun _ hagrees => hagrees.tunnel.trans htunnel).bind fun _ => ?_
      refine (spec_stop_resting.weaken fun _ _ hv => hv.1).bind fun _ => ?_
      split
      · exact spec_recordLostTunnel.bind fun _ => spec_reconnect_ready
      · refine Spec.readRuntime.bind fun r => ?_
        have hshow : Spec sha256 (fun v => v.Ready ∧ v.Agrees r)
            (Op.updateSnapshot (showStopped r.session.isSome)) (fun _ => Resting)
            (fun _ => Resting) := by
          refine Spec.updateSnapshot fun s v _ hv => (hv.1.kept ?_).toResting
          rw [showStopped]
          split <;> exact nofun
        refine hshow.bind fun _ => ?_
        split
        · exact Spec.snapshot
        · exact spec_maintainSession

/-- Nothing is held or asked for any more. -/
def AtRest (v : View) : Prop := v.Resting ∧ v.tunnel = none ∧ v.requested = false

/-- A snapshot of a phase without a tunnel. -/
lemma spec_show_released {f : ClientSnapshot → ClientSnapshot} (hf : ∀ s, (f s).phase ≠ .connected)
    : Spec sha256 (Released b) (Op.updateSnapshot f >>= fun _ => Op.snapshot) (fun _ => AtRest)
      bad :=
  Spec.then_snapshot (Spec.updateSnapshot fun s _ _ hv =>
    ⟨hv.resting (hf s), hv.tunnel, hv.requested⟩)

lemma spec_forgetSession : Spec sha256 (Released b) forgetSession (fun _ => AtRest) bad := by
  have hforget : Spec sha256 (Released b) (Op.runtime Runtime.withoutSession)
      (fun _ => Released b) bad := spec_session_changed (fun _ => rfl) fun _ => rfl
  exact hforget.bind fun _ => spec_show_released fun _ => nofun

lemma spec_releaseAndForget {session : Option SessionManifest} :
    Spec sha256 (Released b) (releaseAndForget session) (fun _ => AtRest) (fun _ => Resting) := by
  cases session with
  | none => exact spec_forgetSession
  | some session =>
    refine (Spec.ask rfl).bind fun released => ?_
    cases released with
    | ok u => exact spec_forgetSession
    | error e =>
      show Spec sha256 _ (if e.isUnauthorized = true then _ else _) _ _
      split
      · exact spec_forgetSession
      · refine Spec.then_throw (Spec.updateSnapshot fun s v _ hv => ?_) fun _ => id
        exact hv.resting nofun

/-- The first part of `disconnect` and of `stop_tunnel`. -/
lemma spec_stopOrShow_resting :
    Spec sha256 (InHand b tunnel) (stopOrShow tunnel) (fun _ => Released b) (fun _ => Resting) :=
  spec_stopOrShow.mono (fun _ _ => id) (fun _ _ => id) fun _ _ hv => hv.1.toResting

lemma spec_disconnect :
    Spec sha256 Resting disconnect (fun _ => AtRest) (fun _ => Resting) := by
  refine Spec.of_halted fun b => ?_
  have hrelease : Spec sha256 (fun v => v.Resting ∧ v.halted = b)
      (Op.runtime fun r => { r with
        connectionRequested := false, preferredProtocol := none, tunnel := none })
      (fun r v => v.InHand b r.tunnel ∧ v.session = r.session.isSome) (fun _ => Resting) :=
    spec_release (fun _ => rfl) (fun _ => rfl) fun _ => rfl
  refine hrelease.bind fun r => ?_
  split
  · rename_i hnone
    obtain ⟨htunnel, -⟩ := Bool.and_eq_true_iff.mp hnone
    rw [isNone_iff_eq_none.mp htunnel]
    refine Spec.weaken (P := Released b) ?_ fun _ _ hv => hv.1
    exact spec_show_released fun _ => nofun
  · have hshow : Spec sha256 (fun v => v.InHand b r.tunnel ∧ v.session = r.session.isSome)
        (Op.updateSnapshot fun s => { s with phase := .disconnecting, issue := none })
        (fun _ => InHand b r.tunnel) (fun _ => Resting) :=
      Spec.updateSnapshot fun s v _ hv => hv.1.show _
    have hclear : Spec sha256 (Released b) (Op.updateSnapshot ClientSnapshot.clearTunnel)
        (fun _ => Released b) (fun _ => Resting) := Spec.show_same fun _ => rfl
    exact hshow.bind fun _ => spec_stopOrShow_resting.bind fun _ => hclear.bind fun _ =>
      spec_releaseAndForget

lemma spec_stopTunnel :
    Spec sha256 Resting stopTunnel (fun _ => AtRest) (fun _ => Resting) := by
  refine Spec.of_halted fun b => ?_
  have hrelease : Spec sha256 (fun v => v.Resting ∧ v.halted = b)
      (Op.runtime fun r => { r with
        connectionRequested := false, controlFailures := 0, tunnel := none })
      (fun r v => v.InHand b r.tunnel ∧ v.session = r.session.isSome) (fun _ => Resting) :=
    spec_release (fun _ => rfl) (fun _ => rfl) fun _ => rfl
  have hshow : ∀ enrolled s, (showStopped enrolled s).phase ≠ .connected := by
    intro enrolled s
    rw [showStopped]
    split <;> exact nofun
  refine hrelease.bind fun r => ?_
  cases htunnel : r.tunnel with
  | none => exact (spec_show_released (hshow _)).weaken fun _ _ hv => hv.1
  | some t =>
    have hstopping : Spec sha256
        (fun v => v.InHand b (some t) ∧ v.session = r.session.isSome)
        (Op.updateSnapshot fun s => { s with phase := .disconnecting, issue := none })
        (fun _ => InHand b (some t)) (fun _ => Resting) :=
      Spec.updateSnapshot fun s v _ hv => hv.1.show _
    exact hstopping.bind fun _ => spec_stopOrShow_resting.bind fun _ =>
      spec_show_released (hshow _)

lemma spec_verifyAfterNetworkChange :
    Spec sha256 Resting K.verifyAfterNetworkChange (fun _ => Resting) (fun _ => Resting) := by
  refine Spec.readRuntime.bind fun r => ?_
  cases hr : r.tunnel.filter fun _ => r.connectionRequested with
  | none => exact Spec.snapshot.weaken fun _ _ hv => hv.1
  | some t =>
    refine (Spec.ask rfl).bind fun network => ?_
    split
    · exact Spec.snapshot.weaken fun _ _ hv => hv.1
    · refine (Spec.ask rfl).bind fun healthy => ?_
      split
      · exact Spec.snapshot.weaken fun _ _ hv => hv.1
      · refine (spec_take_resting fun _ hagrees => (held_of_filter hagrees hr).1).bind fun r' =>
          Spec.of_pure (fun _ hv => hv.2.1) fun hr' => ?_
        rw [hr']
        exact (spec_stop_resting.weaken fun _ _ hv => hv.1).bind fun _ => spec_reconnect_ready

/-! ### Runs -/

/-- What holds between two operations. -/
def Keeping (w : World) : Prop := w.view.Quiet ∧ w.view.Resting

/-- An operation that is no stop. -/
lemma meets_of_spec (hop : ¬(op = .stopTunnel ∨ op = .disconnect))
    (hspec : Spec sha256 P (K.program op) (fun _ => Resting) (fun _ => Resting))
    (hquiet : w.view.Quiet) (hP : P w.view) :
    (K.program op).run.Meets (semantics sha256) (fun r w' => Keeping (w'.ends op r)) w := by
  refine (hspec w ⟨hquiet, hP⟩).mono fun r w' hr => ?_
  have hends : (w'.ends op r).view = w'.view := by
    simp only [World.ends, World.view, decide_eq_false hop, Bool.false_and, Bool.or_false]
  rw [Keeping, hends]
  cases r with
  | ok s => exact hr
  | error e => exact hr

/-- A stop. -/
lemma meets_of_spec_stop
    (hspec : Spec sha256 Resting (K.program op) (fun _ => AtRest) (fun _ => Resting))
    (hw : Keeping w) :
    (K.program op).run.Meets (semantics sha256) (fun r w' => Keeping (w'.ends op r)) w := by
  refine (hspec w hw).mono fun r w' hr => ?_
  cases r with
  | ok s =>
    obtain ⟨-, hrest, htunnel, hrequested⟩ := hr
    exact ⟨fun _ => ⟨htunnel, hrequested⟩, hrest.owned, hrest.session, hrest.requested,
      hrest.phase⟩
  | error e =>
    have hends : (w'.ends op (.error e)).view = w'.view := by
      simp only [World.ends, World.view, Except.isOk, Except.toBool, Bool.and_false,
        Bool.or_false]
    rw [Keeping, hends]
    exact hr

lemma meets_program (hw : Keeping w) (op : Operation) :
    (K.program op).run.Meets (semantics sha256) (fun r w' => Keeping (w'.ends op r))
      (w.begins op) := by
  cases op with
  | enroll accessCode => exact meets_of_spec (by simp) spec_enroll hw.1 hw.2
  | connect preferredProtocol =>
    refine meets_of_spec (by simp) spec_connectWithProtocol (quiet_of_running rfl) ⟨?_, rfl⟩
    exact ⟨hw.2.owned, hw.2.session, hw.2.requested, hw.2.phase⟩
  | maintain => exact meets_of_spec (by simp) spec_maintainOnce hw.1 hw.2
  | verify => exact meets_of_spec (by simp) spec_verifyAfterNetworkChange hw.1 hw.2
  | stopTunnel => exact meets_of_spec_stop spec_stopTunnel hw
  | disconnect => exact meets_of_spec_stop spec_disconnect hw
  | _ => exact meets_of_spec (by simp) spec_refreshLocked_resting hw.1 hw.2

lemma keeps_of_reachable {network : Option String} {file : Option MemoryFile} {s : Config}
    (hs : (K.machine sha256 network file).system.Reachable (fun _ _ => True) s) :
    (K.machine sha256 network file).Keeps (semantics sha256) Keeping s := by
  refine Machine.invariant ⟨nofun, nofun, nofun, nofun, nofun⟩ ?_ ?_ ?_ ?_ ?_ hs
  · intro w op w' hw hbegins
    cases hbegins
    exact meets_program hw op
  · exact fun w p answers w' _ hreply => hreply
  · intro w running e w' _ hother
    cases hother
    exact .single ⟨e, rfl⟩
  · intro w w' hw hothers
    rw [Keeping, view_of_others hothers]
    exact hw
  · exact fun w p w' _ _ hdrops => by cases hdrops

/-- **A tunnel is not lost, and a stop is final.**  Between two operations, each tunnel that an
adapter returned is the one that is held or was stopped, a tunnel is held only with a session, and
the phase is `connected` only with a tunnel.  From the moment at which a stop has succeeded until
`connect` is called no tunnel is held, and no adapter is asked for one. -/
theorem tunnels_owned (K : KetClient) (sha256 : Sha256) (network : Option String)
    (file : Option MemoryFile) {s : Config}
    (hs : (K.machine sha256 network file).system.Reachable (fun _ _ => True) s) :
    (s.running = none →
      (∀ t ∈ s.state.started, s.state.runtime.tunnel = some t ∨ t ∈ s.state.stopped) ∧
      (s.state.runtime.tunnel.isSome = true → s.state.runtime.session.isSome = true) ∧
      (s.state.snapshot.phase = .connected → s.state.runtime.tunnel.isSome = true)) ∧
    (s.state.halted = true → s.state.runtime.tunnel = none ∧
      ∀ p ∈ s.running, p.command.starts = false) := by
  have hkeeps := keeps_of_reachable hs
  obtain ⟨w, running⟩ := s
  cases running with
  | none =>
    obtain ⟨hquiet, hrest⟩ : Keeping w := hkeeps
    refine ⟨fun _ => ⟨hrest.owned, hrest.session, hrest.phase⟩, fun hhalted => ?_⟩
    exact ⟨(hquiet hhalted).1, fun p hp => absurd hp (not_mem_none p)⟩
  | some p =>
    obtain ⟨hquiet, hstarts⟩ := hkeeps.needs rfl
    refine ⟨fun h => absurd h (some_ne_none p), fun hhalted => ⟨(hquiet hhalted).1, ?_⟩⟩
    intro q hq
    obtain rfl := mem_some_iff.mp hq
    by_contra hq
    have hrunning := hstarts (by simpa using hq)
    rw [show w.halted = true from hhalted] at hrunning
    cases hrunning

/-- A client that joins, connects, stops and connects again. -/
theorem tunnels_owned_reconnected : ∃ s : Config,
    (Sample.client.machine Sample.sha256 none none).system.Reachable (fun _ _ => True) s ∧
    s.state.started.length = 2 ∧ s.state.stopped.length = 1 ∧ s.running.isNone = true ∧
    (s.running = none →
      (∀ t ∈ s.state.started, s.state.runtime.tunnel = some t ∨ t ∈ s.state.stopped) ∧
      (s.state.runtime.tunnel.isSome = true → s.state.runtime.session.isSome = true) ∧
      (s.state.snapshot.phase = .connected → s.state.runtime.tunnel.isSome = true)) := by
  obtain ⟨s, hs, hstarted, hstopped, hrunning⟩ := System.exists_reachable_of_drive
    (Sample.client.machine Sample.sha256 none none).system (fun _ _ => True)
    (fun s => s.state.started.length = 2 ∧ s.state.stopped.length = 1 ∧ s.running.isNone = true)
    (Sample.call (.enroll Sample.accessCode) [] ++ Sample.call (.connect none) [] ++
      Sample.call .stopTunnel [] ++ Sample.call (.connect none) []) (by decide +kernel)
  exact ⟨s, hs, hstarted, hstopped, hrunning,
    (tunnels_owned Sample.client Sample.sha256 none none hs).1⟩

end KetClient

end

end Ket.Client
