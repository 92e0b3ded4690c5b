import Ket.Lib.Disk
import Ket.Server.StateInvariant

/-!
# Stores and cancelled requests (`repository.rs`, `api/mod.rs`)

An operation holds the state lock while it waits for its store, which runs on a blocking thread.
When the request is dropped at that point (a timeout, a client that disconnects) the lock is free
again while the store keeps running, detached, and the state it writes is never made current.
A second store may then run beside it on the same temporary file.

While no request is dropped during its store, the state file and the state in memory differ only
in the running totals of usage whenever no store is in flight, and a restart finds every mutation
that has returned (`durability`).  `file_differs_from_memory` shows what each of the two provisos
is for.
-/

namespace Ket.Server

open Ket.Core Ket.Lib List

/-- The encoding of a state in the file, as a list of units of writing. -/
structure StateCodec (β : Type) where
  encode : PersistedState → List β
  decode : List β → Option PersistedState
  decode_encode : ∀ s, decode (encode s) = some s
  /-- A state is not longer with some of its sessions taken out. -/
  length_encode_filter : ∀ (s : PersistedState) (q : SessionRecord → Bool),
    (encode { s with sessions := s.sessions.filter q }).length ≤ (encode s).length

def maxStateFileBytes : ℕ := 64 * 1024 * 1024

/-- How far a store has come. -/
inductive StorePhase where
  | queued
  /-- The temporary file is open and `written` units are written. -/
  | writing (fd written : ℕ)
  | finished (ok : Bool)
deriving DecidableEq, Repr

/-- A store on its blocking thread; `usageAt` is when counted data was read, for a store of
`record_usage`. -/
structure StoreJob where
  next : PersistedState
  usageAt : Option ℕ
  phase : StorePhase
deriving DecidableEq

inductive StoreStep where
  /-- The checks, and opening the temporary file. -/
  | start
  | write (units : ℕ)
  | rename
  /-- An input or output error. -/
  | fail
deriving DecidableEq, Repr

section Storage

variable {β : Type} (K : StateCodec β) (C : Crypto) (cfg : Config)

/-- The checks of `store_file`, with the size limit. -/
def isWritable (s : PersistedState) : Bool :=
  isStorable C s && decide ((K.encode s).length ≤ maxStateFileBytes)

/-- `store_file`, step by step. -/
def StoreJob.advance [Inhabited β] (d : Disk β) (j : StoreJob) (w : StoreStep) :
    Option (Disk β × StoreJob) :=
  match j.phase, w with
  | .queued, .start =>
    if isWritable K C j.next then
      some (d.openTruncate.1, { j with phase := .writing d.openTruncate.2 0 })
    else some (d, { j with phase := .finished false })
  | .writing fd n, .write units =>
    if 0 < units ∧ n + units ≤ (K.encode j.next).length then
      some (d.write fd n (((K.encode j.next).drop n).take units),
        { j with phase := .writing fd (n + units) })
    else none
  | .writing _ n, .rename =>
    if n = (K.encode j.next).length then
      match d.rename with
      | some d' => some (d', { j with phase := .finished true })
      | none => some (d, { j with phase := .finished false })
    else none
  | .queued, .fail => some (d, { j with phase := .finished false })
  | .writing .., .fail => some (d, { j with phase := .finished false })
  | _, _ => none

/-- The state in memory, the directory, the store that the holder of the lock waits for, and the
stores whose request was dropped. -/
structure Storage (β : Type) where
  mem : PersistedState
  usageStoredAt : ℕ
  disk : Disk β
  current : Option StoreJob
  detached : List StoreJob

inductive StorageEvent where
  /-- An operation acquires the lock and computes its state. -/
  | mutate (m : Mutation)
  /-- The store that the holder of the lock waits for makes a step. -/
  | work (w : StoreStep)
  /-- A detached store makes a step. -/
  | workDetached (i : ℕ) (w : StoreStep)
  /-- The holder of the lock sees that its store is finished and returns. -/
  | resume
  /-- The request of the holder of the lock is dropped while it waits for its store. -/
  | drop
  /-- The process stops and starts again. -/
  | restart (now : ℕ)

def StorageEvent.isDrop : StorageEvent → Bool
  | .drop => true
  | _ => false

namespace Storage

/-- `load_file`: a missing file reads as the empty state. -/
def fileState (s : Storage β) : Option PersistedState :=
  match s.disk.read with
  | none => some PersistedState.empty
  | some content =>
    if content.length ≤ maxStateFileBytes then (K.decode content).bind (loadFile C) else none

/-- `AccessService::load` after a stop. -/
def restart [Inhabited β] (s : Storage β) (now : ℕ) : Option (Storage β) :=
  (s.fileState K C).bind fun loaded =>
    match prepareResourceSlots loaded cfg.maxSessions now with
    | .error _ => none
    | .ok (prepared, false) => some ⟨prepared, now, s.disk, none, []⟩
    | .ok (prepared, true) =>
      if isWritable K C prepared then
        (s.disk.replace (K.encode prepared)).map fun disk => ⟨prepared, now, disk, none, []⟩
      else none

/-- What the holder of the lock does when its store is finished. -/
def finish (s : Storage β) (j : StoreJob) (ok : Bool) : Storage β :=
  if ok then
    { s with mem := j.next, usageStoredAt := j.usageAt.getD s.usageStoredAt, current := none }
  else { s with current := none }

def step [Inhabited β] (s : Storage β) : StorageEvent → Option (Storage β)
  | .mutate m =>
    match s.current, m.compute C cfg s.mem s.usageStoredAt with
    | some _, _ => none
    | none, none => some s
    | none, some (next, true) => some { s with current := some ⟨next, m.usageAt, .queued⟩ }
    | none, some (next, false) => some { s with mem := next }
  | .work w =>
    s.current.bind fun j =>
      (j.advance K C s.disk w).map fun r => { s with disk := r.1, current := some r.2 }
  | .workDetached i w =>
    s.detached[i]?.bind fun j =>
      (j.advance K C s.disk w).map fun r =>
        { s with
          disk := r.1
          detached :=
            match r.2.phase with
            | .finished _ => s.detached.eraseIdx i
            | _ => s.detached.set i r.2 }
  | .resume =>
    s.current.bind fun j =>
      match j.phase with
      | .finished ok => some (s.finish j ok)
      | _ => none
  | .drop =>
    s.current.map fun j =>
      { s with
        current := none
        detached :=
          match j.phase with
          | .finished _ => s.detached
          | _ => s.detached ++ [j] }
  | .restart now => s.restart K C cfg now

/-- The start of the first process: no file, and the empty state. -/
def initial : Storage β := ⟨PersistedState.empty, 0, Disk.empty, none, []⟩

end Storage

/-- The storage of the service, with any requests dropped. -/
def storageSystem [Inhabited β] : System (Storage β) StorageEvent :=
  ⟨Storage.initial, Storage.step K C cfg⟩

/-! ### Usage -/

variable {K C cfg} {s next : PersistedState}

/-- A state without its running totals of usage. -/
def PersistedState.withoutUsage (s : PersistedState) : PersistedState :=
  { s with grants := s.grants.map fun g => { g with usage := none } }

/-- Counting that is not stored changes only the running totals. -/
lemma withoutUsage_recordUsage {moved : String → Option ℕ} {now usageStoredAt : ℕ}
    {u : UsageRecorded} (h : recordUsage s moved now = .ok u)
    (hstores : u.stores usageStoredAt now = false) : u.next.withoutUsage = s.withoutUsage := by
  obtain ⟨ended, -, h⟩ := bind_eq_ok.mp h
  cases h
  simp only [UsageRecorded.stores, Bool.or_eq_false_iff, decide_eq_false_iff_not, ne_eq,
    not_not] at hstores
  have hkept : s.sessions.filter (fun x => !(isUsedUp (chargeGrants s moved now) now x))
      = s.sessions := by
    refine filter_eq_self.mpr fun x hx => ?_
    simpa using filter_eq_nil_iff.mp hstores.1 x hx
  obtain ⟨usage, -, hgrants⟩ := chargeGrants_eq s moved now
  simp only [PersistedState.withoutUsage, hkept]
  rw [hgrants, map_map]
  rfl

lemma withoutUsage_dropExpired {s s' : PersistedState} (h : s.withoutUsage = s'.withoutUsage)
    (now : ℕ) :
    (dropExpiredSessions s now).withoutUsage = (dropExpiredSessions s' now).withoutUsage :=
  congrArg (fun t => dropExpiredSessions t now) h

/-! ### A start from a sound state -/

lemma exists_checkSlots {maxSessions : ℕ} (used : List ℕ) {xs : List SessionRecord}
    (hslotted : ∀ x ∈ xs, ∃ slot < maxSessions, x.resourceSlot = some slot)
    (hused : ∀ x ∈ xs, ∀ slot ∈ x.resourceSlot, slot ∉ used)
    (hpairwise : xs.Pairwise fun x y => x.resourceSlot ≠ y.resourceSlot) :
    ∃ used', checkSlots maxSessions used xs = .ok used' := by
  induction xs generalizing used with
  | nil => exact ⟨used, rfl⟩
  | cons x xs ih =>
    obtain ⟨hx, hxs⟩ := pairwise_cons.mp hpairwise
    obtain ⟨slot, hlt, hslot⟩ := hslotted x mem_cons_self
    have hnew : (!(used.contains slot)) = true := by
      simpa using hused x mem_cons_self slot hslot
    have hrest : ∀ y ∈ xs, ∀ slot' ∈ y.resourceSlot, slot' ∉ used ++ [slot] := by
      intro y hy slot' hslot' hmem
      rcases mem_append.mp hmem with hmem | hmem
      · exact hused y (mem_cons_of_mem _ hy) slot' hslot' hmem
      · rw [mem_singleton.mp hmem] at hslot'
        exact hx y hy (hslot.trans hslot'.symm)
    obtain ⟨used', hcheck⟩ := ih _ (fun y hy => hslotted y (mem_cons_of_mem _ hy)) hrest hxs
    refine ⟨used', ?_⟩
    simp only [checkSlots, hslot, hlt, hnew, decide_true, require_true]
    exact hcheck

/-- The service starts from every state that satisfies the invariant. -/
lemma StateInv.exists_prepare (hs : StateInv C cfg s) (now : ℕ) :
    ∃ changed, prepareResourceSlots s cfg.maxSessions now
        = .ok (dropExpiredSessions s now, changed) ∧
      (changed = false → dropExpiredSessions s now = s) := by
  have hlive : ∀ x ∈ s.sessions.filter (SessionRecord.isLive now), x ∈ s.sessions :=
    fun x hx => mem_of_mem_filter hx
  obtain ⟨used, hused⟩ := exists_checkSlots [] (fun x hx => hs.slotted x (hlive x hx))
    (fun _ _ _ _ => not_mem_nil) (hs.slots_pairwise.sublist filter_sublist)
  have hslotted : ∀ x ∈ s.sessions.filter (SessionRecord.isLive now),
      ∃ slot, x.resourceSlot = some slot := by
    intro x hx
    obtain ⟨slot, -, hslot⟩ := hs.slotted x (hlive x hx)
    exact ⟨slot, hslot⟩
  refine ⟨_, bind_eq_ok.mpr ⟨used, hused, bind_eq_ok.mpr
    ⟨_, assignSlots_of_slotted hslotted, rfl⟩⟩, ?_⟩
  intro hchanged
  simp only [Bool.or_eq_false_iff, decide_eq_false_iff_not, ne_eq, not_not] at hchanged
  have hkept : s.sessions.filter (SessionRecord.isLive now) = s.sessions :=
    List.filter_sublist.eq_of_length hchanged.1
  rw [dropExpiredSessions, hkept]

/-! ### What a store does -/

/-- How far a store that is alone has come: from its checks to the rename it owns the temporary
file. -/
def StoreJob.Progress (K : StateCodec β) (C : Crypto) (d : Disk β) (j : StoreJob) : Prop :=
  ∀ fd n, j.phase = .writing fd n →
    isWritable K C j.next = true ∧ d.Writing fd (K.encode j.next) n

/-- A step of a store leaves the file as it is, or is the rename and replaces it. -/
lemma StoreJob.advance_spec [Inhabited β] {d d' : Disk β} {j j' : StoreJob} {w : StoreStep}
    (hd : d.WellFormed) (hj : j.Progress K C d) (h : j.advance K C d w = some (d', j')) :
    d'.WellFormed ∧ j'.Progress K C d' ∧ j'.next = j.next ∧ (∀ ok, j.phase ≠ .finished ok) ∧
      (d'.read = d.read ∧ j'.phase ≠ .finished true ∨
        d'.read = some (K.encode j.next) ∧ isWritable K C j.next = true ∧
          j'.phase = .finished true) := by
  obtain ⟨next, usageAt, phase⟩ := j
  cases phase with
  | queued =>
    cases w with
    | start =>
      simp only [advance] at h
      split at h
      · rename_i hwritable
        cases h
        have hwriting := Disk.writing_openTruncate hd (K.encode next)
        refine ⟨hwriting.wellFormed, ?_, rfl, nofun, .inl ⟨Disk.read_openTruncate hd, nofun⟩⟩
        rintro fd n ⟨⟩
        exact ⟨hwritable, hwriting⟩
      · cases h
        exact ⟨hd, nofun, rfl, nofun, .inl ⟨rfl, nofun⟩⟩
    | fail =>
      cases h
      exact ⟨hd, nofun, rfl, nofun, .inl ⟨rfl, nofun⟩⟩
    | write units => cases h
    | rename => cases h
  | writing fd n =>
    obtain ⟨hwritable, hwriting⟩ := hj fd n rfl
    cases w with
    | start => cases h
    | fail =>
      cases h
      exact ⟨hd, nofun, rfl, nofun, .inl ⟨rfl, nofun⟩⟩
    | write units =>
      simp only [advance] at h
      split at h
      · rename_i hunits
        cases h
        have hwriting' := hwriting.write hunits.2
        refine ⟨hwriting'.wellFormed, ?_, rfl, nofun, .inl ⟨hwriting.read_write, nofun⟩⟩
        rintro fd' n' ⟨⟩
        exact ⟨hwritable, hwriting'⟩
      · cases h
    | rename =>
      simp only [advance] at h
      split at h
      · rename_i hn
        subst hn
        obtain ⟨d₁, hrename, hd₁, hread⟩ := hwriting.read_rename
        rw [hrename] at h
        cases h
        exact ⟨hd₁, nofun, rfl, nofun, .inr ⟨hread, hwritable, rfl⟩⟩
      · cases h
  | finished ok => cases h

/-! ### Runs without dropped requests -/

namespace Storage

/-- The file holds the state `f`; before the first store there is no file. -/
def FileHolds (K : StateCodec β) (d : Disk β) (f : PersistedState) : Prop :=
  d.read = none ∧ f = PersistedState.empty ∨
    d.read = some (K.encode f) ∧ (K.encode f).length ≤ maxStateFileBytes

/-- The state that was stored last: that of a store which is done and whose request has not seen
it yet, otherwise the state in memory. -/
def written (s : Storage β) : PersistedState :=
  match s.current with
  | some ⟨next, _, .finished true⟩ => next
  | _ => s.mem

lemma written_of_running {s : Storage β} (h : ∀ j ∈ s.current, j.phase ≠ .finished true) :
    s.written = s.mem := by
  unfold written
  split
  · rename_i next usageAt hcurrent
    exact absurd rfl (h _ hcurrent)
  · rfl

/-- The invariant of runs in which no request is dropped during its store. -/
structure Durable (K : StateCodec β) (C : Crypto) (cfg : Config) (s : Storage β) : Prop where
  detached : s.detached = []
  wellFormed : s.disk.WellFormed
  mem : StateInv C cfg s.mem
  written : StateInv C cfg s.written
  job : ∀ j ∈ s.current, j.Progress K C s.disk ∧
    (isStorable C j.next = true → StateInv C cfg j.next)
  file : ∃ f, FileHolds K s.disk f ∧ StateInv C cfg f ∧ f.withoutUsage = s.written.withoutUsage

variable {f : PersistedState}

lemma fileState_of_fileHolds {s : Storage β} (h : FileHolds K s.disk f)
    (hf : StateInv C cfg f) : s.fileState K C = some f := by
  unfold fileState
  rcases h with ⟨hread, rfl⟩ | ⟨hread, hlen⟩
  · rw [hread]
  · rw [hread]
    simp only [if_pos hlen, K.decode_encode, Option.bind_some]
    exact loadFile_of_stateInv hf

lemma isWritable_dropExpired (hf : StateInv C cfg f)
    (hlen : (K.encode f).length ≤ maxStateFileBytes) (now : ℕ) :
    isWritable K C (dropExpiredSessions f now) = true := by
  have hvalid : (dropExpiredSessions f now).Valid C := valid_filter_sessions hf.valid _
  rw [isWritable, Bool.and_eq_true, isStorable_eq_true]
  exact ⟨⟨hf.schema, hvalid⟩, decide_eq_true ((K.length_encode_filter f _).trans hlen)⟩

/-- A process that starts from a file with the state `f` has all of it but the sessions whose
lease has run out. -/
lemma restart_of_fileHolds [Inhabited β] {s : Storage β}
    (hd : s.disk.WellFormed) (h : FileHolds K s.disk f) (hf : StateInv C cfg f) (now : ℕ) :
    ∃ s', s.restart K C cfg now = some s' ∧ s'.mem = dropExpiredSessions f now ∧
      s'.current = none ∧ s'.Durable K C cfg := by
  obtain ⟨changed, hprepare, hsame⟩ := hf.exists_prepare now
  have hinv : StateInv C cfg (dropExpiredSessions f now) :=
    ⟨hf.toSound.of_shrinks (shrinks_dropExpired f now), valid_filter_sessions hf.valid _⟩
  simp only [restart, fileState_of_fileHolds h hf, Option.bind_some, hprepare]
  cases changed with
  | false =>
    have hfile : FileHolds K s.disk (dropExpiredSessions f now) := by
      rwa [hsame rfl]
    exact ⟨_, rfl, rfl, rfl, rfl, hd, hinv, hinv, nofun, _, hfile, hinv, rfl⟩
  | true =>
    rcases h with ⟨hread, rfl⟩ | ⟨hread, hlen⟩
    · -- nothing expires in the empty state, so the flag is not set
      cases (bind_eq_ok.mp hprepare).choose_spec.2
    · have hwritable := isWritable_dropExpired hf hlen now
      obtain ⟨disk, hreplace, hdisk, hread'⟩ :=
        Disk.read_replace hd (K.encode (dropExpiredSessions f now))
      simp only [if_pos hwritable, hreplace, Option.map_some]
      have hfile : FileHolds K disk (dropExpiredSessions f now) :=
        .inr ⟨hread', (K.length_encode_filter f _).trans hlen⟩
      exact ⟨_, rfl, rfl, rfl, rfl, hdisk, hinv, hinv, nofun, _, hfile, hinv, rfl⟩

lemma durable_initial : (initial : Storage β).Durable K C cfg :=
  ⟨rfl, Disk.wellFormed_empty, stateInv_empty, stateInv_empty, nofun, _, .inl ⟨rfl, rfl⟩,
    stateInv_empty, rfl⟩

variable [Inhabited β]

/-- A mutation takes up a store, or changes only running totals in memory. -/
lemma Durable.mutate {s s' : Storage β} {m : Mutation} (hs : s.Durable K C cfg)
    (h : s.step K C cfg (.mutate m) = some s') : s'.Durable K C cfg := by
  simp only [step] at h
  split at h
  · cases h
  · cases h
    exact hs
  · rename_i next hcurrent hcompute
    cases h
    have hwritten : s.written = s.mem := written_of_running (by simp [hcurrent])
    refine ⟨hs.detached, hs.wellFormed, hs.mem, hs.mem, ?_, ?_⟩
    · rintro j ⟨⟩
      exact ⟨nofun, fun hstorable =>
        hs.mem.of_computes (Mutation.computes_of_compute hcompute) fun _ => hstorable⟩
    · exact hwritten ▸ hs.file
  · rename_i next hcurrent hcompute
    cases h
    have hwritten : s.written = s.mem := written_of_running (by simp [hcurrent])
    have hwritten' : ({ s with mem := next } : Storage β).written = next :=
      written_of_running (by simp [hcurrent])
    obtain ⟨moved, now, u, -, hrecord, rfl, hstores⟩ := Mutation.recordUsage_of_compute hcompute
    have hnext := stateInv_recordUsage hs.mem hrecord
    obtain ⟨f, hfile, hf, hsame⟩ := hs.file
    refine ⟨hs.detached, hs.wellFormed, hnext, hwritten'.symm ▸ hnext, hs.job, f, hfile, hf, ?_⟩
    rw [hwritten', withoutUsage_recordUsage hrecord hstores, hsame, hwritten]

lemma Durable.work {s s' : Storage β} {w : StoreStep} (hs : s.Durable K C cfg)
    (h : s.step K C cfg (.work w) = some s') : s'.Durable K C cfg := by
  obtain ⟨j, hcurrent, h⟩ := Option.bind_eq_some_iff.mp h
  obtain ⟨⟨d', j'⟩, hadvance, heq⟩ := Option.map_eq_some_iff.mp h
  cases heq
  obtain ⟨hprogress, hinv⟩ := hs.job j hcurrent
  obtain ⟨hd', hprogress', hnext, hrunning, hread⟩ :=
    StoreJob.advance_spec hs.wellFormed hprogress hadvance
  have hjob : ∀ i ∈ some j', i.Progress K C d' ∧
      (isStorable C i.next = true → StateInv C cfg i.next) := by
    rintro _ ⟨⟩
    exact ⟨hprogress', hnext ▸ hinv⟩
  have hwritten : s.written = s.mem := by
    refine written_of_running fun i hi => ?_
    cases hcurrent.symm.trans hi
    exact hrunning true
  obtain ⟨f, hfile, hf, hsame⟩ := hs.file
  rcases hread with ⟨hread, hphase⟩ | ⟨hread, hwritable, hphase⟩
  · have hwritten' : ({ s with disk := d', current := some j' } : Storage β).written = s.mem :=
      written_of_running (by rintro _ ⟨⟩; exact hphase)
    refine ⟨hs.detached, hd', hs.mem, (congrArg _ hwritten').mpr hs.mem, hjob, f, ?_, hf, ?_⟩
    · rwa [FileHolds, hread]
    · rw [hsame, hwritten, hwritten']
  · obtain ⟨next', usageAt', phase'⟩ := j'
    cases hnext
    cases hphase
    obtain ⟨hstorable, hlen⟩ := Bool.and_eq_true_iff.mp hwritable
    have hinv' := hinv hstorable
    exact ⟨hs.detached, hd', hs.mem, hinv', hjob, j.next, .inr ⟨hread, of_decide_eq_true hlen⟩,
      hinv', rfl⟩

lemma Durable.resume {s s' : Storage β} (hs : s.Durable K C cfg)
    (h : s.step K C cfg .resume = some s') : s'.Durable K C cfg := by
  obtain ⟨⟨next, usageAt, phase⟩, hcurrent, h⟩ := Option.bind_eq_some_iff.mp h
  have hwritten := hs.written
  have hfile := hs.file
  cases phase with
  | queued => cases h
  | writing fd n => cases h
  | finished ok =>
    cases ok with
    | true =>
      cases h
      simp only [Storage.written, hcurrent] at hwritten hfile
      exact ⟨hs.detached, hs.wellFormed, hwritten, hwritten, nofun, hfile⟩
    | false =>
      cases h
      simp only [Storage.written, hcurrent] at hfile
      exact ⟨hs.detached, hs.wellFormed, hs.mem, hs.mem, nofun, hfile⟩

lemma Durable.step {s s' : Storage β} {e : StorageEvent} (hs : s.Durable K C cfg)
    (he : e.isDrop = false) (h : s.step K C cfg e = some s') : s'.Durable K C cfg := by
  cases e with
  | mutate m => exact hs.mutate h
  | work w => exact hs.work h
  | workDetached i w =>
    obtain ⟨j, hj, -⟩ := Option.bind_eq_some_iff.mp h
    rw [hs.detached] at hj
    cases hj
  | resume => exact hs.resume h
  | drop => cases he
  | restart now =>
    obtain ⟨f, hfile, hf, -⟩ := hs.file
    obtain ⟨s₁, hrestart, -, -, hs₁⟩ := restart_of_fileHolds hs.wellFormed hfile hf now
    rw [Storage.step, hrestart] at h
    cases h
    exact hs₁

/-- **Durability.**  In every run in which no request is dropped while it waits for its store,
the file holds the grants and sessions of the state in memory, up to the running totals of
usage, whenever no store is in flight.  At any point of the run a restart succeeds and finds
what was stored last, that is the state in memory or that of a store which is done and not yet
returned, up to those totals and the sessions whose lease has run out. -/
theorem durability {s : Storage β}
    (h : (storageSystem K C cfg).Reachable (fun _ e => e.isDrop = false) s) :
    (s.current = none → ∃ f, s.fileState K C = some f ∧ f.withoutUsage = s.mem.withoutUsage) ∧
      ∀ now, ∃ s', s.restart K C cfg now = some s' ∧
        (s'.mem.withoutUsage = (dropExpiredSessions s.mem now).withoutUsage ∨
          ∃ j ∈ s.current, j.phase = .finished true ∧
            s'.mem.withoutUsage = (dropExpiredSessions j.next now).withoutUsage) := by
  have hs : s.Durable K C cfg :=
    h.invariant durable_initial fun _ _ _ _ hs he hstep => hs.step he hstep
  obtain ⟨f, hfile, hf, hsame⟩ := hs.file
  refine ⟨?_, ?_⟩
  · intro hcurrent
    rw [written, hcurrent] at hsame
    exact ⟨f, fileState_of_fileHolds hfile hf, hsame⟩
  · intro now
    obtain ⟨s', hrestart, hmem, -, -⟩ := restart_of_fileHolds hs.wellFormed hfile hf now
    refine ⟨s', hrestart, ?_⟩
    rw [hmem, withoutUsage_dropExpired hsame now]
    unfold written
    split
    · rename_i next usageAt hcurrent
      exact .inr ⟨_, hcurrent, rfl, rfl⟩
    · exact .inl rfl

end Storage

end Storage

/-! ### Runs -/

namespace Sample

/-- A file that is one unit long. -/
def codec : StateCodec PersistedState where
  encode s := [s]
  decode content := match content with
    | [s] => some s
    | _ => none
  decode_encode _ := rfl
  length_encode_filter _ _ := Nat.le_refl _

instance : Inhabited PersistedState := ⟨PersistedState.empty⟩

/-- The store of the holder of the lock, to its end. -/
def stored : List StorageEvent := [.work .start, .work (.write 1), .work .rename, .resume]

/-- The enrollment of a device with that invite, as the state has it after it is created at 10. -/
def meteredTicket : EnrollmentTicket where
  grant :=
    { id := "Grant00001"
      secretHash := "hash"
      label := "family"
      maxConnections := 2
      expiresAt := some (10 + 24 * 60 * 60)
      createdAt := 10
      paused := false
      protocols := .all
      allowance := some ⟨2 ^ 20, .month⟩
      allowanceSince := some 10
      usage := none }
  secret := "abcdefghijklmnopqrstuv"
  clientName := "phone"

/-- A device is enrolled and counted; the count is not stored yet. -/
def countedRun : List StorageEvent :=
  .mutate (.createGrant metered 10 code "hash") :: stored ++
    .mutate (.admitSession meteredTicket 11 token secret) :: stored ++
      [.mutate (.recordUsage (fun _ => some 500) 12)]

/-- The request that revokes an invite is dropped when its store is queued.  Another invite is
created, and then the store of the first request runs. -/
def droppedRevocation : List StorageEvent :=
  .mutate (.createGrant request 10 code "hash") :: stored ++
    [.mutate (.revokeGrant "Grant00001"), .drop] ++
      .mutate (.createGrant request 11 code' "hash") :: stored ++
        [.workDetached 0 .start, .workDetached 0 (.write 1), .workDetached 0 .rename]

end Sample

namespace Storage

theorem durability_countedRun :
    ∃ s, (storageSystem Sample.codec Sample.crypto Sample.config).Reachable
        (fun _ e => e.isDrop = false) s ∧ (s.current = none ∧ s.mem.sessions.length = 1) ∧
      (∃ f, s.fileState Sample.codec Sample.crypto = some f ∧ f.withoutUsage = s.mem.withoutUsage) ∧
      ∃ s', s.restart Sample.codec Sample.crypto Sample.config 13 = some s' := by
  obtain ⟨s, hs, hcurrent, hlen⟩ := System.exists_reachable_of_run
    (storageSystem Sample.codec Sample.crypto Sample.config) (fun _ e => e.isDrop = false)
    (fun s => s.current = none ∧ s.mem.sessions.length = 1) Sample.countedRun (by decide +kernel)
  obtain ⟨hfile, hrestart⟩ := durability hs
  obtain ⟨s', hs', -⟩ := hrestart 13
  exact ⟨s, hs, ⟨hcurrent, hlen⟩, hfile hcurrent, s', hs'⟩

/-- The file may differ from the state in memory with no store in flight: in the running totals,
which counting writes once a minute, and, after a request is dropped during its store, in
anything.  In the first run the session is gone after a restart when its lease has run out by then.
In the second run the invite that was created after the drop is lost in a restart although its
creation returned. -/
theorem file_differs_from_memory :
    (∃ s, (storageSystem Sample.codec Sample.crypto Sample.config).Reachable
        (fun _ e => e.isDrop = false) s ∧ (s.current = none ∧ s.detached = []) ∧
      s.fileState Sample.codec Sample.crypto ≠ some s.mem ∧
      s.mem.sessions.map SessionRecord.id = ["Session00001"] ∧
      (s.restart Sample.codec Sample.crypto Sample.config 71).any
        (fun s' => decide (s'.mem.sessions = [])) = true) ∧
    ∃ s, (storageSystem Sample.codec Sample.crypto Sample.config).Reachable (fun _ _ => True) s ∧
      (s.current = none ∧ s.detached = []) ∧
      s.mem.grants.map AccessGrantRecord.id = ["Grant00001", "Grant00002"] ∧
      (s.restart Sample.codec Sample.crypto Sample.config 12).any
        (fun s' => decide (s'.mem.grants = [])) = true :=
  ⟨System.exists_reachable_of_run _ _ _ Sample.countedRun (by decide +kernel),
    System.exists_reachable_of_run _ _ _ Sample.droppedRevocation (by decide +kernel)⟩

end Storage

end Ket.Server
