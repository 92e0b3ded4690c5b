import Ket.Client.World

/-!
# Histories of different networks

The history under the key of a network should hold nothing but what was seen of transports while the
device was on that network.  It does not: a history is loaded when a connection is attempted and
saved later, under the key of the network that the device is on by then
(`history_of_another_network`).  It does in every run in which the device does not change networks
between a load and a save and no save is made under a key that two of the networks have
(`histories_unmixed`).

A history is explained by what was seen on a network if it records such things only.  The proof shows
for the operations that they record nothing but what was seen since the history was loaded.
-/

namespace Ket.Client.Networks

open Ket.Core Ket.Lib List
open Program (Triple Stable Gives)

/-! ### The property -/

/-- What was seen of transports, with the network that the device was on. -/
abbrev Sightings : Type := List (Option String × Observation)

def replay (recordings : List Recording) : TransportHistory :=
  recordings.foldl TransportHistory.record .empty

/-- A history that records only what was seen on a network. -/
def Explained (seen : Sightings) (network : Option String) (h : TransportHistory) : Prop :=
  ∃ recordings, replay recordings = h ∧ ∀ r ∈ recordings, (network, r.observation) ∈ seen

/-- Networks, and the hash that tells them apart. -/
structure Keys where
  sha256 : Sha256
  networks : List String

/-- The histories under the keys of the networks record only what was seen on each. -/
def Unmixed (keys : Keys) (seen : Sightings) (file : Option MemoryFile) : Prop :=
  let file := MemoryFile.read file
  ∀ network ∈ keys.networks, ∀ remembered,
    file.networks.get? (networkKey keys.sha256 file.salt network) = some remembered →
      Explained seen (some network) remembered.history

variable {keys : Keys} {seen seen' : Sightings} {network : Option String}
  {h : TransportHistory} {file : Option MemoryFile}

lemma explained_empty : Explained seen network .empty := ⟨[], rfl, by simp⟩

lemma Explained.mono (hh : Explained seen network h) (hseen : ∀ o ∈ seen, o ∈ seen') :
    Explained seen' network h := by
  obtain ⟨recordings, hreplay, hrecordings⟩ := hh
  exact ⟨recordings, hreplay, fun r hr => hseen _ (hrecordings r hr)⟩

variable {r : Recording} {c : Command} {e : String × TransportRecord}

lemma Explained.record (hh : Explained seen network h) (hr : (network, r.observation) ∈ seen) :
    Explained seen network (h.record r) := by
  obtain ⟨recordings, rfl, hrecordings⟩ := hh
  refine ⟨recordings ++ [r], by rw [replay, foldl_append]; rfl, fun r' hr' => ?_⟩
  rcases mem_append.mp hr' with hr' | hr'
  · exact hrecordings r' hr'
  · rw [mem_singleton.mp hr']
    exact hr

lemma unmixed_none : Unmixed keys seen none := by
  intro network _ remembered hget
  cases hget

section

variable (hfile : Unmixed keys seen file)
include hfile

lemma Unmixed.mono (hseen : ∀ o ∈ seen, o ∈ seen') : Unmixed keys seen' file :=
  fun network hn remembered hget => (hfile network hn remembered hget).mono hseen

lemma Unmixed.load {network : String} (hn : network ∈ keys.networks) :
    Explained seen (some network) (loadHistory keys.sha256 file (some network)) := by
  rw [loadHistory]
  cases hget : (MemoryFile.read file).networks.get?
      (networkKey keys.sha256 (MemoryFile.read file).salt network) with
  | none => exact explained_empty
  | some remembered => exact hfile network hn remembered hget

lemma Unmixed.salted (freshSalt : String) :
    Unmixed keys seen (some (salted (MemoryFile.read file) freshSalt)) := by
  rw [Client.salted]
  split
  · exact hfile
  · exact fun network _ remembered hget => by cases hget

end

/-- A key that is made with the salt is the key of one of the networks only. -/
def Keys.Separate (keys : Keys) (salt network : String) : Prop :=
  ∀ other ∈ keys.networks,
    networkKey keys.sha256 salt other = networkKey keys.sha256 salt network → other = network

instance (salt network : String) : Decidable (keys.Separate salt network) :=
  inferInstanceAs (Decidable (∀ other ∈ keys.networks, _))

/-- A history is saved under the key of the network that it belongs to. -/
lemma Unmixed.save {network freshSalt : String} {now : ℕ} (hfile : Unmixed keys seen file)
    (hkey : keys.Separate (Client.salted (MemoryFile.read file) freshSalt).salt network)
    (hh : network ∈ keys.networks → Explained seen (some network) h) :
    Unmixed keys seen (some (savedHistory keys.sha256 file network freshSalt now h)) := by
  intro network' hn remembered hget
  let f := Client.salted (MemoryFile.read file) freshSalt
  have hinsert : (f.networks.insert (networkKey keys.sha256 f.salt network) ⟨now, h⟩).get?
      (networkKey keys.sha256 f.salt network') = some remembered := get?_of_get?_forget hget
  by_cases heq : network' = network
  · rw [heq, OrderedMap.get?_insert_self] at hinsert
    cases hinsert
    exact heq ▸ hh (heq ▸ hn)
  · rw [OrderedMap.get?_insert_of_ne _ fun hsame => heq (hkey _ hn hsame)] at hinsert
    exact hfile.salted freshSalt network' hn remembered hinsert

/-! ### What commands do -/

/-- What holds in every state of a run; `earlier` is what was seen in runs before this one. -/
structure Sound (keys : Keys) (earlier : Sightings) (w : World) : Prop where
  file : Unmixed keys (w.observed ++ earlier) w.file
  /-- The history belongs to the network that the device is on. -/
  history : w.loaded = true → ∀ network ∈ w.network, network ∈ keys.networks →
    Explained (w.observed ++ earlier) (some network) w.runtime.history
  /-- So does what was seen since it was loaded. -/
  fresh : w.loaded = true → ∀ o ∈ w.fresh, (w.network, o) ∈ w.observed

/-- A command that fits: it records what was seen since the history was loaded, and changes the
history in no other way. -/
def Fits (w : World) : Command → Prop
  | .record recording => recording.observation ∈ w.fresh
  | .runtime update => ∀ r, (update r).history = r.history
  | _ => True

/-- A command that saves the history. -/
def saves (w : World) : Command → Bool
  | .record _ => w.runtime.memory && w.network.isSome
  | _ => false

/-- The salt of the file that a command writes. -/
def saltOf (w : World) : (c : Command) → Answer c → Option String
  | .record _, (o : SaveOutcome) =>
    some (salted (MemoryFile.read (if o.readable then w.file else none)) o.freshSalt).salt
  | _, _ => none

/-- A history is saved only on the network on which it was loaded, and under a key that no other
network has. -/
structure Proper (keys : Keys) (w : World) (c : Command) (a : Answer c) : Prop where
  loaded : saves w c = true → w.loaded = true
  separate : ∀ salt ∈ saltOf w c a, ∀ network ∈ w.network, keys.Separate salt network

variable {earlier : Sightings} {w w' : World}

namespace Sound

lemma observe (hw : Sound keys earlier w) (o : Observation) : Sound keys earlier (w.observe o) where
  file := hw.file.mono fun _ ho => mem_cons_of_mem _ ho
  history hloaded network hn hk :=
    (hw.history hloaded network hn hk).mono fun _ ho => mem_cons_of_mem _ ho
  fresh hloaded o' ho' := by
    rcases mem_cons.mp ho' with rfl | ho'
    · exact mem_cons_self
    · exact mem_cons_of_mem _ (hw.fresh hloaded o' ho')

lemma observeRoute (hw : Sound keys earlier w) : Sound keys earlier w.observeRoute := by
  rw [World.observeRoute]
  split
  · exact hw.observe _
  · exact hw

lemma load (hw : Sound keys earlier w) (readable : Bool) :
    Sound keys earlier (w.load keys.sha256 readable) := by
  rw [World.load]
  split
  · refine ⟨hw.file, fun _ network hn hk => ?_, fun _ _ ho => by cases ho⟩
    have hnetwork : w.network = some network := hn
    rw [hnetwork]
    cases readable with
    | true => exact hw.file.load hk
    | false => exact unmixed_none.load hk
  · exact hw

lemma record (hw : Sound keys earlier w) {r : Recording} (hfresh : r.observation ∈ w.fresh)
    {o : SaveOutcome} (hproper : Proper keys w (.record r) o) :
    Sound keys earlier (w.record keys.sha256 r o) := by
  have hhistory : w.loaded = true → ∀ network ∈ w.network, network ∈ keys.networks →
      Explained (w.observed ++ earlier) (some network) (w.runtime.history.record r) := by
    intro hloaded network hn hk
    have hseen := hw.fresh hloaded _ hfresh
    rw [Option.mem_def.mp hn] at hseen
    exact (hw.history hloaded network hn hk).record (mem_append_left _ hseen)
  refine ⟨?_, hhistory, hw.fresh⟩
  simp only [World.record, World.save]
  split
  · rename_i hmemory
    split
    · exact hw.file
    · rename_i network hnetwork
      split
      · have hloaded := hproper.loaded (by simp [saves, hmemory, hnetwork])
        have hread : Unmixed keys (w.observed ++ earlier)
            (if o.readable = true then w.file else none) := by
          split
          · exact hw.file
          · exact unmixed_none
        exact hread.save (hproper.separate _ rfl network hnetwork)
          (hhistory hloaded network hnetwork)
      · exact hw.file
  · exact hw.file

lemma other (hw : Sound keys earlier w) (e : World.Other) : Sound keys earlier (w.other e) := by
  cases e with
  | move network =>
    have hsame : (w.other (.move network)).loaded = true → network = w.network ∧ w.loaded = true := by
      intro hloaded
      obtain ⟨hloaded, hnetwork⟩ := Bool.and_eq_true_iff.mp hloaded
      exact ⟨of_decide_eq_true hnetwork, hloaded⟩
    refine ⟨hw.file, fun hloaded => ?_, fun hloaded => ?_⟩
    · obtain ⟨rfl, hstill⟩ := hsame hloaded
      exact hw.history hstill
    · obtain ⟨rfl, hstill⟩ := hsame hloaded
      exact hw.fresh hstill
  | loseFile => exact ⟨unmixed_none, hw.history, hw.fresh⟩
  | _ => exact ⟨hw.file, hw.history, hw.fresh⟩

lemma reply (hw : Sound keys earlier w) {c : Command} {a : Answer c} (hfits : Fits w c)
    (hproper : Proper keys w c a) (hreply : w.reply keys.sha256 c a = some w') :
    Sound keys earlier w' := by
  cases c with
  | runtime update =>
    obtain ⟨-, rfl⟩ := of_guard hreply
    refine ⟨hw.file, fun hloaded => ?_, hw.fresh⟩
    have hhistory := hw.history hloaded
    rw [← hfits w.runtime] at hhistory
    exact hhistory
  | snapshot update =>
    obtain ⟨-, rfl⟩ := of_guard hreply
    exact ⟨hw.file, hw.history, hw.fresh⟩
  | record recording =>
    cases hreply
    exact hw.record hfits hproper
  | load =>
    cases hreply
    exact hw.load a
  | hasChanged =>
    obtain ⟨-, rfl⟩ := of_guard hreply
    exact hw
  | probe transport =>
    rcases a with _ | (_ | _)
    · obtain ⟨-, rfl⟩ := of_guard hreply
      exact hw
    · cases hreply
      exact hw.observe _
    · cases hreply
      exact hw
  | connect transport report =>
    rcases a with _ | (_ | started)
    · obtain ⟨-, rfl⟩ := of_guard hreply
      exact hw
    · cases hreply
      exact hw.observe _
    · simp only [World.reply, Option.ite_none_left_eq_some, Option.some.injEq] at hreply
      obtain ⟨-, rfl⟩ := hreply
      have hseen := hw.observe (.worked transport.profile.id (min started.handshakeLatencyMs u64Max))
      exact ⟨hseen.file, hseen.history, hseen.fresh⟩
  | status tunnel =>
    simp only [World.reply] at hreply
    split at hreply
    · cases hreply
      exact hw
    · cases hreply
      exact hw.observe _
  | isHealthy =>
    simp only [World.reply] at hreply
    split at hreply
    · cases hreply
      exact hw
    · cases hreply
      exact hw.observeRoute
  | stop tunnel =>
    cases a with
    | ok u =>
      cases hreply
      exact ⟨hw.file, hw.history, hw.fresh⟩
    | error e =>
      cases hreply
      exact hw
  | subscribe =>
    cases hreply
    exact ⟨hw.file, hw.history, hw.fresh⟩
  | _ => cases hreply; exact hw

end Sound

/-! ### Rules -/

def semantics (keys : Keys) (earlier : Sightings) : Semantics World Command Answer where
  run w c a w' := w.reply keys.sha256 c a = some w' ∧ Proper keys w c a
  others := Relation.ReflTransGen fun w w' => ∃ e, w.other e = w'
  needs w c := Sound keys earlier w ∧ Fits w c
  refl _ := .refl
  trans h h' := h.trans h'

/-- What the operations look at, of what others do not change. -/
structure Sight where
  fresh : List Observation
  tunnel : Option Tunnel

def sight (w : World) : Sight := ⟨w.fresh, w.runtime.tunnel⟩

lemma sight_other (e : World.Other) : sight (w.other e) = sight w := by
  cases e <;> rfl

/-- What a part of an operation makes of what was seen; it keeps `Sound`. -/
def Spec {α : Type} (keys : Keys) (earlier : Sightings) (P : Sight → Prop) (p : Op α)
    (ok : α → Sight → Prop) : Prop :=
  Triple (semantics keys earlier) (fun w => Sound keys earlier w ∧ P (sight w)) p
    (fun a w => Sound keys earlier w ∧ ok a (sight w))
    (fun _ w => Sound keys earlier w)

lemma stable_sight {P : Sight → Prop} : Stable (semantics keys earlier)
    (fun w => Sound keys earlier w ∧ P (sight w)) := by
  intro w w' hothers hw
  induction hothers with
  | refl => exact hw
  | tail _ hlast ih =>
    obtain ⟨e, rfl⟩ := hlast
    rw [sight_other]
    exact ⟨ih.1.other e, ih.2⟩

/-- A command that neither records nor loads nor looks at a transport. -/
def IsPlain : Command → Prop
  | .runtime update => ∀ r, (update r).history = r.history
  | .record _ | .load | .probe _ | .connect _ _ | .status _ | .isHealthy => False
  | _ => True

lemma fits_of_isPlain (hc : IsPlain c) : Fits w c := by
  cases c <;> first | exact hc | exact trivial | cases hc

/-- Plain commands change nothing of what was seen. -/
lemma fresh_of_isPlain {sha256 : Sha256} {a : Answer c} (hc : IsPlain c)
    (hreply : w.reply sha256 c a = some w') :
    w'.fresh = w.fresh := by
  cases c with
  | runtime update | snapshot update | hasChanged =>
    rw [← (of_guard hreply).2]
  | record recording | load | probe transport | connect transport report | status tunnel
  | isHealthy => cases hc
  | stop tunnel => cases a <;> cases hreply <;> rfl
  | _ => cases hreply; rfl

/-- A part of an operation that gives plain commands only. -/
def Plain {α : Type} (p : Op α) : Prop := p.run.Gives IsPlain

namespace Plain

variable {α β : Type}

protected lemma pure {a : α} : Plain (pure a) := trivial

protected lemma throw {e : ClientError} : Plain (throw e : Op α) := trivial

protected lemma bind {p : Op α} {f : α → Op β} (hp : Plain p) (hf : ∀ a, Plain (f a)) :
    Plain (p >>= f) := Gives.bind_except hp hf

protected lemma attempt {p : Op α} (hp : Plain p) : Plain (Program.attempt p) := Gives.attempt hp

protected lemma perform {c : Command} (hc : IsPlain c) : Plain (Op.perform c) :=
  ⟨hc, fun _ => trivial⟩

protected lemma runtime {f : Runtime → Runtime} (hf : ∀ r, (f r).history = r.history) :
    Plain (Op.runtime f) := Plain.perform hf

protected lemma readRuntime : Plain Op.readRuntime := Plain.runtime fun _ => rfl

protected lemma snapshot : Plain Op.snapshot := Plain.perform trivial

protected lemma updateSnapshot {f : ClientSnapshot → ClientSnapshot} :
    Plain (Op.updateSnapshot f) := by
  have hplain : Plain (Op.perform (.snapshot f)) := Plain.perform trivial
  exact hplain.bind fun _ => Plain.pure

end Plain

/-! ### Plain parts of the operations -/

section Plain

open KetClient

variable {K : KetClient}

variable {e : ClientError} {transport : SessionTransport} {surfaceErrors renew : Bool}

lemma plain_fail : Plain (fail e) := Plain.updateSnapshot

lemma plain_stopAndRetainOnFailure {t : Tunnel} : Plain (stopAndRetainOnFailure t) := by
  have hstop : Plain (Op.perform (.stop t)) := Plain.perform trivial
  have hretain : Plain (Op.runtime (Runtime.retain t)) := by
    refine Plain.runtime fun r => ?_
    rw [Runtime.retain]
    split <;> rfl
  refine hstop.bind fun r => ?_
  cases r with
  | ok u => exact Plain.pure
  | error e => exact hretain.bind fun _ => Plain.throw

lemma plain_noteFallback {fallback : TransportFallback} : Plain (noteFallback fallback) :=
  Plain.updateSnapshot

lemma plain_cacheProbe {report : ProbeReport} : Plain (cacheProbe transport report) := by
  have hcache : Plain (Op.runtime fun r =>
      { r with probes := r.probes.insert transport.profile.id ⟨.of transport, report⟩ }) :=
    Plain.runtime fun _ => rfl
  exact hcache.bind fun _ => Plain.pure

lemma plain_cachedProbe : Plain (cachedProbe transport e) := by
  rw [cachedProbe]
  split
  · exact Plain.pure
  · exact Plain.readRuntime.bind fun _ => Plain.pure

lemma plain_withdrawRequest : Plain withdrawRequest := by
  have hwithdraw : Plain (Op.runtime fun r => { r with connectionRequested := false }) :=
    Plain.runtime fun _ => rfl
  exact hwithdraw.bind fun _ => Plain.pure

lemma plain_finishCancelledConnection : Plain finishCancelledConnection := by
  have hwithdraw : Plain (Op.runtime fun r => { r with connectionRequested := false }) :=
    Plain.runtime fun _ => rfl
  exact hwithdraw.bind fun _ => Plain.updateSnapshot.bind fun _ => Plain.snapshot

lemma plain_clearFallbacks {reconnecting : Bool} : Plain (clearFallbacks reconnecting) := by
  cases reconnecting with
  | true => exact Plain.pure
  | false => exact Plain.updateSnapshot

lemma plain_unixTime : Plain (Op.perform .unixTime) := Plain.perform trivial

lemma plain_applyStatus {status : SessionStatus} {renewed : Bool} :
    Plain (applyStatus status renewed) := by
  have happly : ∀ deadline, Plain (Op.runtime (Runtime.applyStatus status deadline)) := fun _ =>
    Plain.runtime fun _ => rfl
  exact plain_unixTime.bind fun _ => (happly _).bind fun _ => Plain.updateSnapshot

lemma plain_stopOrShow {tunnel : Option Tunnel} : Plain (stopOrShow tunnel) := by
  cases tunnel with
  | none => exact Plain.pure
  | some t =>
    refine plain_stopAndRetainOnFailure.attempt.bind fun r => ?_
    cases r with
    | ok u => exact Plain.pure
    | error e => exact Plain.updateSnapshot.bind fun _ => Plain.throw

lemma plain_endSession : Plain (endSession e) := by
  have htake : Plain (Op.runtime fun r => { r with
      connectionRequested := false, preferredProtocol := none, tunnel := none }) :=
    Plain.runtime fun _ => rfl
  have hforget : Plain (Op.runtime Runtime.withoutSession) := Plain.runtime fun _ => rfl
  exact htake.bind fun r => plain_stopOrShow.bind fun _ => hforget.bind fun _ =>
    Plain.updateSnapshot.bind fun _ => Plain.throw

lemma plain_surface : Plain (surface surfaceErrors e) := by
  cases surfaceErrors with
  | true => exact Plain.updateSnapshot
  | false => exact Plain.pure

lemma plain_requestStatus {token : String} : Plain (requestStatus renew token) := by
  cases renew with
  | _ => exact Plain.perform trivial

lemma plain_refreshLocked : Plain (K.refreshLocked renew surfaceErrors) := by
  refine Plain.readRuntime.bind fun r => ?_
  cases r.session with
  | none => exact Plain.throw
  | some session =>
    refine plain_requestStatus.bind fun answer => ?_
    cases answer with
    | ok status =>
      refine plain_unixTime.bind fun now => ?_
      split
      · exact plain_surface.bind fun _ => Plain.throw
      · exact plain_applyStatus.bind fun _ => Plain.snapshot
    | error e =>
      show Plain (if e.endsSession = true then _ else _)
      split
      · exact plain_endSession
      · exact plain_surface.bind fun _ => Plain.throw

lemma plain_renewBeforeConnectLocked : Plain K.renewBeforeConnectLocked := by
  refine plain_unixTime.bind fun now => Plain.readRuntime.bind fun r => ?_
  cases r.session with
  | none => exact Plain.throw
  | some session =>
    show Plain (if r.isRenewalDue now = true then _ else _)
    split
    · refine plain_refreshLocked.attempt.bind fun refreshed => ?_
      cases refreshed with
      | ok s => exact Plain.pure
      | error e =>
        refine plain_unixTime.bind fun later => ?_
        split
        · exact Plain.updateSnapshot
        · exact Plain.throw
    · exact Plain.pure

lemma plain_acceptManifest {manifest : SessionManifest} : Plain (K.acceptManifest manifest) := by
  have hrelease : Plain (Op.perform (.releaseSession manifest.sessionToken)) :=
    Plain.perform trivial
  have hfail : ∀ e, Plain (do
      fail e
      throw e : Op ClientSnapshot) := fun e => plain_fail.bind fun _ => Plain.throw
  refine plain_unixTime.bind fun now => ?_
  split
  · split
    · exact hrelease.bind fun _ => hfail _
    · exact hfail _
  · refine plain_unixTime.bind fun now => ?_
    have hkeep : Plain (Op.runtime fun r => { r with
        renewAt := some (renewalDeadline now manifest.sessionExpiresAt)
        session := some manifest }) := Plain.runtime fun _ => rfl
    exact hkeep.bind fun _ => Plain.updateSnapshot.bind fun _ => Plain.snapshot

lemma plain_enroll {accessCode : String} : Plain (K.enroll accessCode) := by
  have hcreate : Plain (Op.perform (.createSession accessCode)) := Plain.perform trivial
  rw [enroll]
  split
  · exact Plain.throw
  · refine Plain.readRuntime.bind fun r => ?_
    split
    · exact Plain.throw
    · refine Plain.updateSnapshot.bind fun _ => hcreate.bind fun answer => ?_
      cases answer with
      | ok manifest => exact plain_acceptManifest
      | error e => exact plain_fail.bind fun _ => Plain.throw

lemma plain_forgetSession : Plain forgetSession := by
  have hforget : Plain (Op.runtime Runtime.withoutSession) := Plain.runtime fun _ => rfl
  exact hforget.bind fun _ => Plain.updateSnapshot.bind fun _ => Plain.snapshot

lemma plain_releaseAndForget {session : Option SessionManifest} :
    Plain (releaseAndForget session) := by
  cases session with
  | none => exact plain_forgetSession
  | some session =>
    have hrelease : Plain (Op.perform (.releaseSession session.sessionToken)) :=
      Plain.perform trivial
    refine hrelease.bind fun released => ?_
    cases released with
    | ok u => exact plain_forgetSession
    | error e =>
      show Plain (if e.isUnauthorized = true then _ else _)
      split
      · exact plain_forgetSession
      · exact Plain.updateSnapshot.bind fun _ => Plain.throw

lemma plain_disconnect : Plain disconnect := by
  have htake : Plain (Op.runtime fun r => { r with
      connectionRequested := false, preferredProtocol := none, tunnel := none }) :=
    Plain.runtime fun _ => rfl
  refine htake.bind fun r => ?_
  split
  · exact Plain.updateSnapshot.bind fun _ => Plain.snapshot
  · exact Plain.updateSnapshot.bind fun _ => plain_stopOrShow.bind fun _ =>
      Plain.updateSnapshot.bind fun _ => plain_releaseAndForget

lemma plain_stopTunnel : Plain stopTunnel := by
  have htake : Plain (Op.runtime fun r => { r with
      connectionRequested := false, controlFailures := 0, tunnel := none }) :=
    Plain.runtime fun _ => rfl
  refine htake.bind fun r => ?_
  cases r.tunnel with
  | none => exact Plain.updateSnapshot.bind fun _ => Plain.snapshot
  | some t =>
    exact Plain.updateSnapshot.bind fun _ => plain_stopOrShow.bind fun _ =>
      Plain.updateSnapshot.bind fun _ => Plain.snapshot

end Plain

namespace Spec

variable {α β : Type} {P P' : Sight → Prop} {ok ok' : α → Sight → Prop} {q : β → Sight → Prop}

protected lemma pure {a : α} (h : ∀ v, P v → ok a v) : Spec keys earlier P (pure a) ok :=
  Triple.pure fun _ hw => ⟨hw.1, h _ hw.2⟩

lemma done {a : α} : Spec keys earlier P (pure a) fun _ _ => True :=
  Spec.pure fun _ _ => trivial

protected lemma throw {e : ClientError} : Spec keys earlier P (throw e : Op α) ok :=
  Triple.throw fun _ hw => hw.1

protected lemma bind {p : Op α} {f : α → Op β} (hp : Spec keys earlier P p ok)
    (hf : ∀ a, Spec keys earlier (ok a) (f a) q) : Spec keys earlier P (p >>= f) q :=
  Triple.bind hp hf

lemma weaken {p : Op α} (h : Spec keys earlier P p ok) (hP : ∀ v, P' v → P v) :
    Spec keys earlier P' p ok :=
  Triple.mono h (fun _ hw => ⟨hw.1, hP _ hw.2⟩) (fun _ _ => id) fun _ _ => id

/-- A part whose errors are looked at. -/
lemma attempt_bind {p : Op α} {f : Except ClientError α → Op β}
    (hp : Spec keys earlier P p ok) (hok : ∀ a, Spec keys earlier (ok a) (f (.ok a)) q)
    (hbad : ∀ e, Spec keys earlier (fun _ => True) (f (.error e)) q) :
    Spec keys earlier P (Program.attempt p >>= f) q := by
  refine Triple.bind (Triple.attempt hp) fun r => ?_
  cases r with
  | ok a => exact hok a
  | error e => exact Triple.mono (hbad e) (fun _ hw => ⟨hw, trivial⟩) (fun _ _ => id) fun _ _ => id

lemma command {c : Command} {ok : Answer c → Sight → Prop} (hfits : ∀ w, P (sight w) → Fits w c)
    (hrun : ∀ (w : World) (a : Answer c) (w' : World), P (sight w) →
      w.reply keys.sha256 c a = some w' → ok a (sight w')) :
    Spec keys earlier P (Op.perform c) ok := by
  refine Triple.command stable_sight (fun w hw => ⟨hw.1, hfits w hw.2⟩) fun w a w' hw ha => ?_
  exact ⟨hw.1.reply (hfits w hw.2) ha.2 ha.1, hrun w a w' hw.2 ha.1⟩

/-- Plain parts keep what was seen. -/
lemma plain {p : Op α} (hp : Plain p) (Q : List Observation → Prop) :
    Spec keys earlier (fun v => Q v.fresh) p fun _ v => Q v.fresh := by
  intro w hw
  have hstable : Stable (semantics keys earlier)
      (fun w => Sound keys earlier w ∧ Q (sight w).fresh) :=
    stable_sight (P := fun v => Q v.fresh)
  refine (Gives.meets hstable ?_ ?_ hp hw).mono fun r w' hr => ?_
  · exact fun w c hw hc => ⟨hw.1, fits_of_isPlain hc⟩
  · intro w c a w' hw hc hrun
    refine ⟨hw.1.reply (fits_of_isPlain hc) hrun.2 hrun.1, ?_⟩
    have hfresh : (sight w').fresh = (sight w).fresh := fresh_of_isPlain hc hrun.1
    rw [hfresh]
    exact hw.2
  · cases r with
    | ok a => exact hr
    | error e => exact hr.1

/-- A plain part, where nothing that was seen matters. -/
lemma of_plain {p : Op α} (hp : Plain p) : Spec keys earlier P p fun _ _ => True :=
  (plain hp fun _ => True).weaken fun _ _ => trivial

/-- The same, in front of others. -/
lemma plain_bind {p : Op α} {f : α → Op β} (hp : Plain p)
    (hf : ∀ a, Spec keys earlier (fun _ => True) (f a) q) : Spec keys earlier P (p >>= f) q :=
  (of_plain hp).bind hf

end Spec

/-! ### The operations -/

/-- Something was seen since the history was loaded. -/
def Seen (o : Observation) (v : Sight) : Prop := o ∈ v.fresh

lemma spec_plain_seen {α : Type} {p : Op α} (hp : Plain p) {o : Observation} :
    Spec keys earlier (Seen o) p fun _ => Seen o :=
  Spec.plain hp (o ∈ ·)

lemma spec_record {r : Recording} {P : Sight → Prop} (hP : ∀ v, P v → Seen r.observation v) :
    Spec keys earlier P (KetClient.record r) fun _ _ => True := by
  have hrecord : Spec keys earlier P (Op.perform (.record r)) fun _ _ => True :=
    Spec.command (fun w hw => hP _ hw) fun _ _ _ _ _ => trivial
  exact hrecord.bind fun _ => Spec.done

section

open KetClient

variable {K : KetClient}

variable {transportId : String} {e : ClientError} {P : Sight → Prop} {report : ProbeReport}
  {transport : SessionTransport} {reconnecting : Bool} {index : ℕ}

lemma spec_coolDown : Spec keys earlier (Seen (.failed transportId)) (K.coolDown transportId)
      fun _ _ => True :=
  (spec_plain_seen plain_unixTime).bind fun _ =>
    spec_record fun _ => id

lemma spec_recordFailure {profile : TransportProfile} {stage : FallbackStage} :
    Spec keys earlier (Seen (.failed profile.id)) (K.recordFailure (.of profile) e stage)
      fun _ _ => True := by
  have helapsed : Plain (Op.perform .elapsed) := Plain.perform trivial
  exact spec_coolDown.bind fun _ =>
    Spec.of_plain (helapsed.bind fun _ => plain_noteFallback)

lemma spec_recordLostTunnel {code message : String} : Spec keys earlier (Seen (.failed transportId))
      (K.recordLostTunnel transportId code message) fun _ _ => True := by
  refine spec_coolDown.bind fun _ =>
    Spec.of_plain (Plain.snapshot.bind fun s => ?_)
  split
  · exact plain_noteFallback
  · exact Plain.pure

/-- A command that is neither a section nor a recording. -/
lemma spec_look {c : Command} (hc : ∀ w, Fits w c) :
    Spec keys earlier P (Op.perform c) fun _ _ => True :=
  Spec.command (fun w _ => hc w) fun _ _ _ _ _ => trivial

lemma spec_candidates : Spec keys earlier (fun _ => True) K.candidates fun _ _ => True := by
  have hload : Spec keys earlier (fun _ => True) (Op.perform .load) fun _ _ => True :=
    spec_look fun _ => trivial
  refine hload.bind fun _ => Spec.of_plain ?_
  refine plain_unixTime.bind fun now => Plain.readRuntime.bind fun r => ?_
  cases r.session with
  | none => exact Plain.throw
  | some session => exact Plain.pure

lemma spec_keepTunnel {started : StartedTunnel} : Spec keys earlier
      (Seen (.worked transport.profile.id (min started.handshakeLatencyMs u64Max)))
      (keepTunnel transport report started) fun _ _ => True := by
  have hchanged : Plain (Op.perform .hasChanged) := Plain.perform trivial
  refine (spec_plain_seen hchanged).bind fun changed => ?_
  cases changed with
  | true =>
    refine Spec.of_plain (plain_stopAndRetainOnFailure.attempt.bind fun r => ?_)
    cases r with
    | ok u => exact plain_finishCancelledConnection
    | error e => exact plain_fail.bind fun _ => Plain.throw
  | false =>
    have hnetwork : Plain (Op.perform (.network started.tunnel)) := Plain.perform trivial
    have hkeep : ∀ generation, Plain (Op.runtime fun r => { r with
        networkGeneration := generation, tunnel := some started.tunnel }) := fun _ =>
      Plain.runtime fun _ => rfl
    refine (spec_plain_seen plain_cacheProbe).bind fun _ =>
      Spec.bind (spec_record fun _ hv => hv) fun _ => Spec.of_plain ?_
    exact hnetwork.bind fun network => (hkeep _).bind fun _ => plain_unixTime.bind fun now =>
      Plain.updateSnapshot.bind fun _ => Plain.snapshot

/-- What is seen when an adapter answers. -/
lemma spec_connect : Spec keys earlier (fun _ => True) (Op.perform (.connect transport report))
      fun a v => match a with
        | some (.ok started) =>
          Seen (.worked transport.profile.id (min started.handshakeLatencyMs u64Max)) v
        | some (.error _) => Seen (.failed transport.profile.id) v
        | none => True := by
  refine Spec.command (fun _ _ => trivial) fun w a w' _ hreply => ?_
  rcases a with _ | (e | started)
  · exact trivial
  · cases hreply
    exact mem_cons_self
  · simp only [World.reply, Option.ite_none_left_eq_some, Option.some.injEq] at hreply
    obtain ⟨-, rfl⟩ := hreply
    exact mem_cons_self

lemma spec_probe : Spec keys earlier (fun _ => True) (Op.perform (.probe transport))
      fun a v => match a with
        | some (.error _) => Seen (.failed transport.profile.id) v
        | _ => True := by
  refine Spec.command (fun _ _ => trivial) fun w a w' _ hreply => ?_
  rcases a with _ | (e | report)
  · exact trivial
  · cases hreply
    exact mem_cons_self
  · exact trivial

lemma spec_startTransport :
    Spec keys earlier P (K.startTransport reconnecting transport report) fun _ _ => True := by
  refine Spec.plain_bind Plain.updateSnapshot fun _ => spec_connect.bind fun a => ?_
  rcases a with _ | (e | started)
  · exact Spec.of_plain (plain_finishCancelledConnection.bind fun _ => Plain.pure)
  · exact spec_recordFailure.bind fun _ => Spec.done
  · exact spec_keepTunnel.bind fun _ => Spec.done

lemma spec_tryTransport :
    Spec keys earlier (fun _ => True) (K.tryTransport reconnecting index transport)
      fun _ _ => True := by
  refine Spec.plain_bind Plain.updateSnapshot fun _ => spec_probe.bind fun a => ?_
  rcases a with _ | (e | report)
  · exact Spec.of_plain (plain_finishCancelledConnection.bind fun _ => Plain.pure)
  · refine (spec_plain_seen plain_cachedProbe).bind fun cached => ?_
    cases cached with
    | some report => exact spec_startTransport
    | none => exact spec_recordFailure.bind fun _ => Spec.done
  · exact spec_startTransport

lemma spec_tryEach {lastError : Option ClientError} {candidates : List SessionTransport} :
    Spec keys earlier (fun _ => True)
      (K.tryEach reconnecting index lastError candidates) fun _ _ => True := by
  induction candidates generalizing index lastError with
  | nil => exact Spec.of_plain (plain_fail.bind fun _ => Plain.throw)
  | cons transport rest ih =>
    refine spec_tryTransport.bind fun trial => ?_
    cases trial with
    | finished s => exact Spec.done
    | next e => exact ih

lemma spec_stopStaleTunnel : Spec keys earlier (fun _ => True) stopStaleTunnel fun _ _ => True := by
  refine Spec.plain_bind Plain.readRuntime fun r => ?_
  cases r.tunnel with
  | none => exact Spec.done
  | some t =>
    have hstatus : Spec keys earlier (fun _ => True) (Op.perform (.status t))
        fun _ _ => True := spec_look fun _ => trivial
    refine hstatus.bind fun status => ?_
    have htake : Plain (Op.runtime Runtime.withoutTunnel) := Plain.runtime fun _ => rfl
    split
    · exact Spec.throw
    · exact Spec.of_plain (htake.bind fun _ => plain_stopAndRetainOnFailure)

lemma spec_connectLocked :
    Spec keys earlier (fun _ => True) (K.connectLocked reconnecting) fun _ _ => True := by
  have hsubscribe : Plain (Op.perform .subscribe) := Plain.perform trivial
  refine Spec.plain_bind hsubscribe fun _ => spec_stopStaleTunnel.bind fun _ =>
    spec_candidates.bind fun found => Spec.plain_bind plain_clearFallbacks fun _ => ?_
  split
  · exact Spec.of_plain (plain_fail.bind fun _ => Plain.throw)
  · exact spec_tryEach

lemma spec_reconnectLocked : Spec keys earlier P K.reconnectLocked fun _ _ => True := by
  refine (spec_connectLocked.weaken fun _ _ => trivial).attempt_bind
    (fun s => Spec.done) fun connectionError => ?_
  have hfail : Plain (do
      fail connectionError
      throw connectionError : Op ClientSnapshot) := plain_fail.bind fun _ => Plain.throw
  refine Spec.of_plain (plain_unixTime.bind fun now => Plain.readRuntime.bind fun r =>
    plain_refreshLocked.attempt.bind fun refreshed => ?_)
  cases refreshed with
  | ok s => exact hfail
  | error e =>
    show Plain (if e.endsSession = true then _ else _)
    split
    · exact Plain.throw
    · exact hfail

lemma spec_connectWithProtocol {preferredProtocol : Option TransportProtocol} :
    Spec keys earlier (fun _ => True) (K.connectWithProtocol preferredProtocol) fun _ _ => True := by
  have hrequest : Plain (Op.runtime fun r => { r with
      connectionRequested := true, preferredProtocol := preferredProtocol }) :=
    Plain.runtime fun _ => rfl
  have hwithdraw : ∀ e, Spec keys earlier (fun _ => True) (do
      withdrawRequest
      throw e : Op ClientSnapshot) fun _ _ => True := fun e =>
    Spec.of_plain (plain_withdrawRequest.bind fun _ => Plain.throw)
  refine Spec.plain_bind Plain.readRuntime fun r => ?_
  split
  · exact Spec.throw
  · refine Spec.plain_bind hrequest fun _ => Spec.plain_bind Plain.updateSnapshot fun _ => ?_
    refine (Spec.of_plain plain_renewBeforeConnectLocked).attempt_bind (fun _ => ?_) hwithdraw
    exact spec_connectLocked.attempt_bind (fun s => Spec.done) hwithdraw

/-- The tunnel that is held was seen to fail. -/
def RouteFailed (v : Sight) : Prop :=
  ∀ t, v.tunnel = some t → .failed t.transportId ∈ v.fresh

lemma spec_isHealthy : Spec keys earlier P (Op.perform .isHealthy)
    fun healthy v => healthy = false → RouteFailed v := by
  refine Spec.command (fun _ _ => trivial) fun w healthy w' _ hreply hhealthy t ht => ?_
  subst hhealthy
  simp only [World.reply, Bool.false_eq_true, if_false, Option.some.injEq] at hreply
  subst hreply
  have htunnel : w.runtime.tunnel = some t := by
    rw [← ht, sight, World.observeRoute]
    split <;> rfl
  simp only [sight, World.observeRoute, htunnel]
  exact mem_cons_self

lemma spec_recoverRoute : Spec keys earlier RouteFailed (K.recoverRoute e) fun _ _ => True := by
  have htake : Spec keys earlier RouteFailed (Op.runtime fun r =>
      if r.connectionRequested then { r with controlFailures := 0, tunnel := none } else r)
      fun r v => ∀ t, r.tunnel = some t → Seen (.failed t.transportId) v := by
    refine Spec.command (fun w _ r => ?_) fun w r w' hfailed hreply t ht => ?_
    · show (if r.connectionRequested = true then _ else r).history = r.history
      split <;> rfl
    · obtain ⟨rfl, rfl⟩ := of_guard hreply
      exact hfailed t ht
  refine htake.bind fun r => ?_
  cases hr : r.tunnel.filter fun _ => r.connectionRequested with
  | none => exact Spec.throw
  | some t =>
    have ht := (Option.filter_eq_some_iff.mp hr).1
    refine ((spec_plain_seen plain_stopAndRetainOnFailure).weaken
      fun v hv => hv t ht).bind fun _ => ?_
    exact spec_recordLostTunnel.bind fun _ => spec_reconnectLocked

lemma spec_checkRoute : Spec keys earlier (fun _ => True) (K.checkRoute e) fun _ _ => True := by
  have hcount : Plain (Op.runtime fun r =>
      { r with controlFailures := min (r.controlFailures + 1) 255 }) := Plain.runtime fun _ => rfl
  have hshow : ∀ f, Plain (do
      Op.updateSnapshot f
      Op.snapshot) := fun f => Plain.updateSnapshot.bind fun _ => Plain.snapshot
  refine Spec.plain_bind hcount fun r => ?_
  split
  · exact Spec.throw
  · rename_i t _
    have hnetwork : Plain (Op.perform (.network t)) := Plain.perform trivial
    refine Spec.plain_bind hnetwork fun network => ?_
    split
    · exact Spec.of_plain (hshow _)
    · split
      · exact Spec.of_plain (hshow _)
      · refine spec_isHealthy.bind fun healthy => ?_
        cases healthy with
        | true => exact Spec.of_plain (hshow _)
        | false => exact spec_recoverRoute.weaken fun v hv => hv rfl

lemma spec_maintainSession : Spec keys earlier P K.maintainSession fun _ _ => True := by
  refine Spec.plain_bind plain_unixTime fun now => Spec.plain_bind Plain.readRuntime
    fun r => ?_
  refine (Spec.of_plain plain_refreshLocked).attempt_bind (fun s => Spec.done) fun e => ?_
  show Spec keys earlier _ (if e.isNetwork = true then _ else _) _
  split
  · exact spec_checkRoute
  · exact Spec.throw

/-- A tunnel that is no longer connected was seen to fail. -/
lemma spec_status {t : Tunnel} : Spec keys earlier (fun _ => True) (Op.perform (.status t))
    fun status v => status ≠ .connected → Seen (.failed t.transportId) v := by
  refine Spec.command (fun _ _ => trivial) fun w status w' _ hreply hstatus => ?_
  simp only [World.reply, if_neg hstatus, Option.some.injEq] at hreply
  subst hreply
  exact mem_cons_self

lemma spec_maintainOnce : Spec keys earlier (fun _ => True) K.maintainOnce fun _ _ => True := by
  refine Spec.plain_bind Plain.readRuntime fun r => ?_
  cases r.tunnel with
  | none =>
    show Spec keys earlier _ (if r.connectionRequested = true then _ else _) _
    split
    · exact spec_reconnectLocked
    · exact spec_maintainSession
  | some t =>
    have htake : Plain (Op.runtime Runtime.withoutTunnel) := Plain.runtime fun _ => rfl
    refine spec_status.bind fun status => ?_
    split
    · exact spec_maintainSession
    · rename_i hstatus
      refine ((spec_plain_seen htake).weaken fun v hv => hv hstatus).bind fun _ =>
        (spec_plain_seen plain_stopAndRetainOnFailure).bind fun _ => ?_
      split
      · exact spec_recordLostTunnel.bind fun _ => spec_reconnectLocked
      · refine Spec.plain_bind Plain.readRuntime fun r =>
          Spec.plain_bind Plain.updateSnapshot fun _ => ?_
        split
        · exact Spec.of_plain Plain.snapshot
        · exact spec_maintainSession

lemma spec_verifyAfterNetworkChange :
    Spec keys earlier (fun _ => True) K.verifyAfterNetworkChange fun _ _ => True := by
  refine Spec.plain_bind Plain.readRuntime fun r => ?_
  split
  · exact Spec.of_plain Plain.snapshot
  · rename_i t _
    have hnetwork : Plain (Op.perform (.network t)) := Plain.perform trivial
    have htake : Plain (Op.runtime Runtime.withoutTunnel) := Plain.runtime fun _ => rfl
    have hhealthy : Spec keys earlier (fun _ => True) (Op.perform .isHealthy)
        fun _ _ => True := spec_look fun _ => trivial
    refine Spec.plain_bind hnetwork fun network => ?_
    split
    · exact Spec.of_plain Plain.snapshot
    · refine hhealthy.bind fun healthy => ?_
      split
      · exact Spec.of_plain Plain.snapshot
      · refine Spec.plain_bind htake fun r => ?_
        cases r.tunnel with
        | none => exact spec_reconnectLocked
        | some t =>
          exact Spec.plain_bind plain_stopAndRetainOnFailure fun _ =>
            spec_reconnectLocked

lemma spec_program (op : Operation) :
    Spec keys earlier (fun _ => True) (K.program op) fun _ _ => True := by
  cases op with
  | enroll accessCode => exact Spec.of_plain plain_enroll
  | connect preferredProtocol => exact spec_connectWithProtocol
  | maintain => exact spec_maintainOnce
  | verify => exact spec_verifyAfterNetworkChange
  | stopTunnel => exact Spec.of_plain plain_stopTunnel
  | disconnect => exact Spec.of_plain plain_disconnect
  | _ => exact Spec.of_plain plain_refreshLocked

end

/-! ### Runs -/

/-- A history is saved only on the network on which it was loaded, and which the device has not left
since. -/
def onLoadedNetwork (s : Config) : Event → Prop
  | .reply _ => ∀ p ∈ s.running, saves s.state p.command = true → s.state.loaded = true
  | _ => True

/-- A history is saved only under a key that no other of the networks has. -/
def keysDiffer (keys : Keys) (s : Config) : Event → Prop
  | .reply answers => ∀ p ∈ s.running, ∀ salt ∈ saltOf s.state p.command (answers p.command),
      ∀ network ∈ s.state.network, keys.Separate salt network
  | _ => True

instance : (s : Config) → (e : Event) → Decidable (onLoadedNetwork s e)
  | s, .reply _ => inferInstanceAs
      (Decidable (∀ p ∈ s.running, saves s.state p.command = true → s.state.loaded = true))
  | _, .begin _ => .isTrue trivial
  | _, .drop => .isTrue trivial
  | _, .other _ => .isTrue trivial

instance : (s : Config) → (e : Event) → Decidable (keysDiffer keys s e)
  | s, .reply answers => inferInstanceAs (Decidable (∀ p ∈ s.running,
      ∀ salt ∈ saltOf s.state p.command (answers p.command),
        ∀ network ∈ s.state.network, keys.Separate salt network))
  | _, .begin _ => .isTrue trivial
  | _, .drop => .isTrue trivial
  | _, .other _ => .isTrue trivial

/-- **The histories of different networks are kept apart** in every run in which the device does not
change networks between a load and a save, and in which the hash has no collision among them. -/
theorem histories_unmixed (K : KetClient) (keys : Keys) (network : Option String)
    (file : Option MemoryFile) (earlier : Sightings) (hfile : Unmixed keys earlier file)
    {s : Config} (hs : (K.machine keys.sha256 network file).system.Reachable
      (fun s e => onLoadedNetwork s e ∧ keysDiffer keys s e) s) :
    Unmixed keys (s.state.observed ++ earlier) s.state.file := by
  have hkeeps : (K.machine keys.sha256 network file).Keeps (semantics keys earlier)
      (Sound keys earlier) s := by
    refine Machine.invariant ⟨hfile, nofun, nofun⟩ ?_ ?_ ?_ ?_ ?_ hs
    · intro w op w' hw hbegins
      have hw' : Sound keys earlier w' := by
        cases hbegins
        cases op <;> exact ⟨hw.file, hw.history, hw.fresh⟩
      refine (spec_program op w' ⟨hw', trivial⟩).mono fun r w'' hr => ?_
      have hsound : Sound keys earlier w'' := by
        cases r with
        | ok a => exact hr.1
        | error e => exact hr
      exact ⟨hsound.file, hsound.history, hsound.fresh⟩
    · exact fun w p answers w' hcond hreply => ⟨hreply, hcond.1 p rfl, hcond.2 p rfl⟩
    · intro w running e w' _ hother
      cases hother
      exact .single ⟨e, rfl⟩
    · intro w w' hw hothers
      exact (stable_sight (P := fun _ => True) w w' hothers ⟨hw, trivial⟩).1
    · exact fun w p w' _ _ hdrops => by cases hdrops
  obtain ⟨w, running⟩ := s
  cases running with
  | none => exact Sound.file hkeeps
  | some p => exact (hkeeps.needs rfl).1.file

/-! ### A device that changes networks -/

def sampleKeys : Keys := ⟨Sample.sha256, ["a", "b"]⟩

/-- A device on network "a" that joins, and on which transport "x" fails. -/
def connecting : List (Config → Option Event) :=
  Sample.call (.enroll Sample.accessCode) [] ++ [fun _ => some (.other .setTransportMemory)] ++
    Sample.call (.connect none) ["x"]

/-- The device stops its tunnel, moves to network "b", and connects there. -/
def movingOn : List (Config → Option Event) :=
  connecting ++ Sample.call .stopTunnel [] ++ (fun _ => some (.other (.move (some "b")))) ::
    Sample.call (.connect none) []

theorem histories_unmixed_connected : ∃ s : Config,
    (Sample.client.machine sampleKeys.sha256 (some "a") none).system.Reachable
      (fun s e => onLoadedNetwork s e ∧ keysDiffer sampleKeys s e) s ∧
    (MemoryFile.read s.state.file).networks.size = 2 ∧
    s.state.observed.map Prod.fst = [some "b", some "a", some "a"] ∧
    Unmixed sampleKeys (s.state.observed ++ []) s.state.file := by
  obtain ⟨s, hs, hsize, hobserved⟩ := System.exists_reachable_of_drive
    (Sample.client.machine sampleKeys.sha256 (some "a") none).system
    (fun s e => onLoadedNetwork s e ∧ keysDiffer sampleKeys s e)
    (fun s => (MemoryFile.read s.state.file).networks.size = 2 ∧
      s.state.observed.map Prod.fst = [some "b", some "a", some "a"])
    movingOn (by decide +kernel)
  exact ⟨s, hs, hsize, hobserved, histories_unmixed Sample.client sampleKeys (some "a") none []
    unmixed_none hs⟩

def transportOf : Observation → String
  | .worked transportId _ => transportId
  | .failed transportId => transportId

lemma mem_record (he : e ∈ (h.record r).records.entries) :
    e.1 = transportOf r.observation ∨ e ∈ h.records.entries := by
  cases r with
  | _ =>
    exact (OrderedMap.mem_of_mem_insertInto (mem_of_mem_drop he)).imp_left
      (congrArg Prod.fst)

/-- A history has no record of a transport of which nothing was recorded. -/
lemma exists_of_mem_replay {recordings : List Recording}
    (he : e ∈ (replay recordings).records.entries) :
    ∃ r ∈ recordings, transportOf r.observation = e.1 := by
  induction recordings using List.reverseRecOn with
  | nil => cases he
  | append_singleton recordings r ih =>
    rw [replay, foldl_append] at he
    rcases mem_record he with he | he
    · exact ⟨r, by simp, he.symm⟩
    · obtain ⟨r', hr', heq⟩ := ih he
      exact ⟨r', mem_append_left _ hr', heq⟩

lemma Explained.exists_seen (hh : Explained seen network h) (he : e ∈ h.records.entries) :
    ∃ o ∈ seen, o.1 = network ∧ transportOf o.2 = e.1 := by
  obtain ⟨recordings, rfl, hrecordings⟩ := hh
  obtain ⟨r, hr, heq⟩ := exists_of_mem_replay he
  exact ⟨_, hrecordings r hr, rfl, heq⟩

/-- **A history is saved under another network's key** when the device changes networks while it
connects: under the key of "b", there is a record of a transport that was tried on "a" only. -/
theorem history_of_another_network : ∃ s : Config,
    (Sample.client.machine sampleKeys.sha256 (some "a") none).system.Reachable
      (keysDiffer sampleKeys) s ∧
    ¬ Unmixed sampleKeys s.state.observed s.state.file := by
  -- the device moves when the failure of "x" has been recorded; "y" works on "b"
  obtain ⟨s, hs, remembered, hget, e, he, hseen⟩ := System.exists_reachable_of_drive
    (Sample.client.machine sampleKeys.sha256 (some "a") none).system (keysDiffer sampleKeys)
    (fun s => ∃ remembered ∈ (MemoryFile.read s.state.file).networks.get?
        (networkKey sampleKeys.sha256 (MemoryFile.read s.state.file).salt "b"),
      ∃ e ∈ remembered.history.records.entries,
        ∀ o ∈ s.state.observed, ¬ (o.1 = some "b" ∧ transportOf o.2 = e.1))
    (connecting.map fun choose s =>
      if s.state.network = some "a" ∧ s.state.runtime.history ≠ .empty then
        some (.other (.move (some "b")))
      else choose s)
    (by decide +kernel)
  refine ⟨s, hs, fun hunmixed => ?_⟩
  obtain ⟨o, ho, hsame⟩ := (hunmixed "b" (by decide) remembered hget).exists_seen he
  exact hseen o ho hsame

end Ket.Client.Networks
