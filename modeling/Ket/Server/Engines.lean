import Ket.Server.Model

/-!
# The data-plane engines (`data_plane.rs`, `wireguard_agent.rs`)

What the engines hold for the sessions of a server, and what a call of a `DataPlaneControl` does
to it.  Xray holds a user for each session, by the session's ID.  Shadowsocks holds a server on
the port of the session's resource slot, and WireGuard a peer, whose key is derived from the
session's ID, with the address of the slot.  Hysteria and OpenVPN ask the control plane at each
connection and hold nothing.

A call is a list of commands to its engine.  One that succeeds has run them all; one that fails
may have run any first part of them.  The agent of WireGuard lists the peers before it removes
any, and refuses to go on when one of them has no address.
-/

namespace Ket.Server

open List

/-- The controls of a server. -/
inductive Control where
  | hysteria
  | xray
  | shadowsocks
  | wireguard
  | openvpn
deriving DecidableEq, Repr

/-- The controls that are configured, as `from_config` collects them, and the first port of the
Shadowsocks pool. -/
structure DataPlane where
  controls : List Control
  portStart : ℕ
  collected : controls.Sublist [.hysteria, .xray, .shadowsocks, .wireguard, .openvpn]

/-- What an engine holds for a session. -/
structure Entry where
  /-- The session whose key it has. -/
  owner : String
  /-- The port or the address it is at.  A peer whose address was given to another has none. -/
  place : Option ℕ
  /-- What its counter shows. -/
  bytes : ℕ
deriving DecidableEq, Repr

/-- What an engine holds; it gives no port or address twice. -/
@[ext]
structure Table where
  entries : List Entry
  places : (entries.filterMap Entry.place).Nodup
deriving DecidableEq

namespace Table

def empty : Table := ⟨[], nodup_nil⟩

def filter (t : Table) (q : Entry → Bool) : Table :=
  ⟨t.entries.filter q, t.places.sublist (List.filter_sublist.filterMap _)⟩

/-- The table with one more entry, where nothing has its place. -/
def add (t : Table) (e : Entry) (h : ∀ x ∈ t.entries, ∀ p ∈ x.place, p ∉ e.place) : Table where
  entries := t.entries ++ [e]
  places := by
    rw [filterMap_append, nodup_append]
    refine ⟨t.places, ?_, ?_⟩
    · cases he : e.place <;> simp [he]
    · intro p hp q hq hpq
      obtain ⟨x, hx, hxp⟩ := mem_filterMap.mp hp
      simp only [filterMap_cons, filterMap_nil] at hq
      cases he : e.place with
      | none => simp [he] at hq
      | some q' =>
        simp only [he, mem_singleton] at hq
        exact h x hx p hxp (by simp [he, hpq, hq])

/-- The table with its entries changed, of which some may lose their place. -/
def adjust (t : Table) (f : Entry → Entry) (hf : ∀ x, ∀ p ∈ (f x).place, p ∈ x.place) : Table where
  entries := t.entries.map f
  places := by
    refine pairwise_filterMap.mpr (pairwise_map.mpr ?_)
    refine (pairwise_filterMap.mp t.places).imp ?_
    intro x y hxy p hp q hq
    exact hxy p (hf x p hp) q (hf y q hq)

/-- The session at a port or an address. -/
def holder (t : Table) (p : ℕ) : Option String :=
  (t.entries.find? fun x => x.place == some p).map Entry.owner

end Table

/-! ### Commands -/

namespace Control

/-- `session_port` and `client_address`, the latter as the number of the host in its network.
Every slot below the capacity of the server has both. -/
def place (d : DataPlane) (slot : ℕ) : Control → Option ℕ
  | .shadowsocks => some (d.portStart + slot)
  | .wireguard => some (slot + 2)
  | _ => none

/-- The control finds what a session has by port or address. -/
def byPlace : Control → Bool
  | .shadowsocks | .wireguard => true
  | _ => false

/-- The engine holds something for a session. -/
def keeps : Control → Bool
  | .hysteria | .openvpn => false
  | _ => true

/-- An entry of `owner` at `at?` is the one the control takes for that of the session: by its port
or address where it has one, by the ID of the session otherwise. -/
def names (d : DataPlane) (c : Control) (a : SessionAllocation) (owner : String)
    (at? : Option ℕ) : Bool :=
  match c.place d a.resourceSlot with
  | some p => at? == some p
  | none => owner == a.id

/-- A control takes for a session's the entry that it installed for it. -/
lemma names_self (d : DataPlane) (c : Control) (a : SessionAllocation) :
    c.names d a a.id (c.place d a.resourceSlot) = true := by
  cases c <;> simp [names, place]

end Control

/-- The commands of the controls to their engines. -/
inductive Command where
  /-- Removes what the session is taken to have. -/
  | remove (a : SessionAllocation)
  /-- Removes a user, server or peer as it was listed. -/
  | evict (x : Entry)
  | install (a : SessionAllocation)
deriving DecidableEq

namespace Table

variable (d : DataPlane)

/-- `add_user`; the counters of Xray are not those of its users. -/
def addUser (t : Table) (a : SessionAllocation) : Table :=
  (t.filter fun x => !(x.owner == a.id)).add ⟨a.id, none, 0⟩ (by simp)

/-- `add_server`: a server on the port begins to count at zero. -/
def addServer (t : Table) (a : SessionAllocation) : Table :=
  (t.filter fun x => !(x.place == some (d.portStart + a.resourceSlot))).add
    ⟨a.id, some (d.portStart + a.resourceSlot), 0⟩ (by
      intro x hx p hp hpe
      have hne := of_mem_filter hx
      simp only [Option.mem_def, Option.some.injEq] at hp hpe
      simp [hp, hpe] at hne)

/-- The kernel gives the address of a peer that is set to that peer alone. -/
def withoutAddress (t : Table) (address : ℕ) : Table :=
  t.adjust (fun x => if x.place = some address then { x with place := none } else x) (by
    intro x p hp
    split at hp
    · cases hp
    · exact hp)

/-- `install_peer`: a peer that exists keeps its counter. -/
def installPeer (t : Table) (a : SessionAllocation) : Table :=
  ((t.filter fun x => !(x.owner == a.id)).withoutAddress (a.resourceSlot + 2)).add
    ⟨a.id, some (a.resourceSlot + 2),
      ((t.entries.find? fun x => x.owner == a.id).map Entry.bytes).getD 0⟩ (by
      intro x hx p hp hpe
      obtain ⟨y, -, rfl⟩ := mem_map.mp hx
      simp only [Option.mem_def, Option.some.injEq] at hp hpe
      split at hp
      · cases hp
      · rename_i hne
        exact hne (hpe ▸ hp))

/-- What a command does to what the engine holds. -/
def exec (c : Control) (t : Table) : Command → Table
  | .remove a => t.filter fun x => !(c.names d a x.owner x.place)
  | .evict x => t.filter fun y => !(y.owner == x.owner && y.place == x.place)
  | .install a =>
    match c with
    | .xray => t.addUser a
    | .shadowsocks => t.addServer d a
    | .wireguard => t.installPeer a
    | .hysteria | .openvpn => t

def run (c : Control) (t : Table) (cmds : List Command) : Table := cmds.foldl (exec d c) t

end Table

/-! ### Calls -/

/-- The calls of a control that change what its engine holds. -/
inductive ControlCall where
  | provision (a : SessionAllocation)
  | kick (sessions : List SessionAllocation)
  | reconcile (sessions : List SessionAllocation)
deriving DecidableEq

/-- How a call ends: it fails after some of its commands. -/
inductive CallOutcome where
  | ok
  | failed (commands : ℕ)
deriving DecidableEq, Repr

namespace Control

variable (d : DataPlane)

variable (c : Control)

/-- What `reconcile` removes before it installs the sessions.  WireGuard keeps the peers that are
at the address of a session, whoever they belong to. -/
def stale (t : Table) (sessions : List SessionAllocation) : List Entry :=
  match c with
  | .wireguard =>
    t.entries.filter fun x =>
      !((sessions.map fun a => some (a.resourceSlot + 2)).contains x.place)
  | _ => t.entries

/-- The commands of a call. -/
def commands (t : Table) : ControlCall → List Command
  | .provision a =>
    match c with
    | .hysteria | .openvpn => []
    | .xray | .wireguard => [.install a]
    | .shadowsocks => [.remove a, .install a]
  | .kick sessions =>
    match c with
    | .hysteria | .openvpn => []
    | _ => sessions.map .remove
  | .reconcile sessions =>
    match c with
    | .hysteria | .openvpn => []
    | _ => (c.stale t sessions).map .evict ++ sessions.map .install

/-- The commands of a call that fails.  Xray takes a user that it could not add to every inbound
out again. -/
def failingCommands (t : Table) : ControlCall → List Command
  | .provision a =>
    match c with
    | .xray => [.install a, .remove a]
    | _ => c.commands t (.provision a)
  | call => c.commands t call

/-- The agent can list the peers where the call makes it list them. -/
def lists (t : Table) : ControlCall → Bool
  | .provision _ => true
  | _ => decide (c ≠ .wireguard) || t.entries.all fun x => x.place.isSome

/-- What a call leaves in the engine, and whether it succeeds. -/
def call (t : Table) (k : ControlCall) (o : CallOutcome) : Table × Bool :=
  if c.lists t k then
    match o with
    | .ok => (t.run d c (c.commands t k), true)
    | .failed n => (t.run d c ((c.failingCommands t k).take n), false)
  else (t, false)

end Control

/-! ### What a call can leave behind -/

/-- The sessions a call installs. -/
def ControlCall.installs : ControlCall → List SessionAllocation
  | .provision a => [a]
  | .kick _ => []
  | .reconcile sessions => sessions

/-- The sessions a call is about. -/
def ControlCall.sessions : ControlCall → List SessionAllocation
  | .provision a => [a]
  | .kick sessions => sessions
  | .reconcile sessions => sessions

namespace Table

variable {d : DataPlane} {c : Control} {t : Table} {a : SessionAllocation} {x : Entry}

@[simp] lemma mem_filter {q : Entry → Bool} :
    x ∈ (t.filter q).entries ↔ x ∈ t.entries ∧ q x = true := List.mem_filter

lemma mem_addUser :
    x ∈ (t.addUser a).entries ↔ (x ∈ t.entries ∧ x.owner ≠ a.id) ∨ x = ⟨a.id, none, 0⟩ := by
  simp [addUser, add]

lemma mem_addServer : x ∈ (t.addServer d a).entries ↔
      (x ∈ t.entries ∧ x.place ≠ some (d.portStart + a.resourceSlot)) ∨
        x = ⟨a.id, some (d.portStart + a.resourceSlot), 0⟩ := by
  simp [addServer, add]

lemma mem_withoutAddress {address : ℕ} : x ∈ (t.withoutAddress address).entries ↔
      (x ∈ t.entries ∧ x.place ≠ some address) ∨
        (x.place = none ∧ ∃ y ∈ t.entries, y.place = some address ∧ x = { y with place := none }) := by
  simp only [withoutAddress, adjust, mem_map]
  constructor
  · rintro ⟨y, hy, rfl⟩
    split
    · rename_i hplace
      exact .inr ⟨rfl, y, hy, hplace, rfl⟩
    · rename_i hplace
      exact .inl ⟨hy, hplace⟩
  · rintro (⟨hx, hplace⟩ | ⟨-, y, hy, hplace, rfl⟩)
    · exact ⟨x, hx, if_neg hplace⟩
    · exact ⟨y, hy, if_pos hplace⟩

lemma mem_installPeer : x ∈ (t.installPeer a).entries ↔
      x ∈ ((t.filter fun x => !(x.owner == a.id)).withoutAddress (a.resourceSlot + 2)).entries ∨
        x = ⟨a.id, some (a.resourceSlot + 2),
          ((t.entries.find? fun x => x.owner == a.id).map Entry.bytes).getD 0⟩ := by
  simp [installPeer, add]

/-- What an installation leaves: the session at its place, and what was there before, where a
peer that was at the place of another session has lost it. -/
lemma mem_install (h : x ∈ (t.exec d c (.install a)).entries) :
    x ∈ t.entries ∨ (x.owner = a.id ∧ x.place = c.place d a.resourceSlot) ∨
      (c = .wireguard ∧ x.place = none ∧ x.owner ≠ a.id ∧
        ∃ y ∈ t.entries, y.owner = x.owner ∧ y.place = c.place d a.resourceSlot) := by
  cases c with
  | hysteria => exact .inl h
  | openvpn => exact .inl h
  | xray =>
    rcases mem_addUser.mp h with ⟨h, -⟩ | rfl
    · exact .inl h
    · exact .inr (.inl ⟨rfl, rfl⟩)
  | shadowsocks =>
    rcases mem_addServer.mp h with ⟨h, -⟩ | rfl
    · exact .inl h
    · exact .inr (.inl ⟨rfl, rfl⟩)
  | wireguard =>
    rcases mem_installPeer.mp h with h | rfl
    · rcases mem_withoutAddress.mp h with ⟨h, -⟩ | ⟨hnone, y, hy, hplace, rfl⟩
      · exact .inl (mem_filter.mp h).1
      · obtain ⟨hy, howner⟩ := mem_filter.mp hy
        exact .inr (.inr ⟨rfl, rfl, by simpa using howner, y, hy, rfl, hplace⟩)
    · exact .inr (.inl ⟨rfl, rfl⟩)

/-- What holds of every entry and of every session that is installed, and is not lost with the
place, holds of every entry afterwards. -/
lemma forall_run {P : String → Option ℕ → Prop} {cmds : List Command}
    (ht : ∀ x ∈ t.entries, P x.owner x.place)
    (hinstall : ∀ a, .install a ∈ cmds → P a.id (c.place d a.resourceSlot))
    (hlost : c = .wireguard → ∀ a, .install a ∈ cmds → ∀ owner ≠ a.id,
      P owner (c.place d a.resourceSlot) → P owner none) :
    ∀ x ∈ (t.run d c cmds).entries, P x.owner x.place := by
  induction cmds generalizing t with
  | nil => exact ht
  | cons cmd cmds ih =>
    refine ih ?_ (fun a ha => hinstall a (mem_cons_of_mem _ ha))
      (fun hc a ha => hlost hc a (mem_cons_of_mem _ ha))
    intro x hx
    cases cmd with
    | install a =>
      rcases mem_install hx with hx | ⟨howner, hplace⟩ | ⟨hc, hplace, hne, y, hy, howner, hyplace⟩
      · exact ht x hx
      · rw [howner, hplace]
        exact hinstall a mem_cons_self
      · rw [hplace]
        refine hlost hc a mem_cons_self x.owner hne ?_
        rw [← howner, ← hyplace]
        exact ht y hy
    | _ => exact ht x (mem_filter.mp hx).1

/-- A kick takes out exactly what its sessions are taken to have. -/
lemma mem_run_remove {sessions : List SessionAllocation} :
    x ∈ (t.run d c (sessions.map .remove)).entries ↔
      x ∈ t.entries ∧ ∀ a ∈ sessions, c.names d a x.owner x.place = false := by
  induction sessions generalizing t with
  | nil => simp [run]
  | cons a sessions ih =>
    have hrun : t.run d c ((a :: sessions).map .remove)
        = (t.exec d c (.remove a)).run d c (sessions.map .remove) := rfl
    rw [hrun, ih, exec, mem_filter, Bool.not_eq_true', and_assoc, forall_mem_cons]

lemma mem_run_evict {ys : List Entry} : x ∈ (t.run d c (ys.map .evict)).entries ↔
      x ∈ t.entries ∧ ∀ y ∈ ys, (x.owner == y.owner && x.place == y.place) = false := by
  induction ys generalizing t with
  | nil => simp [run]
  | cons y ys ih =>
    have hrun : t.run d c ((y :: ys).map .evict)
        = (t.exec d c (.evict y)).run d c (ys.map .evict) := rfl
    rw [hrun, ih, exec, mem_filter, Bool.not_eq_true', and_assoc, forall_mem_cons]

end Table

namespace Control

variable {d : DataPlane} {c : Control} {t : Table} {k : ControlCall} {o : CallOutcome}
  {a : SessionAllocation} {x : Entry}

lemma mem_installs (h : .install a ∈ c.commands t k) : a ∈ k.installs := by
  cases k with
  | kick sessions => cases c <;> simp_all [commands]
  | _ => cases c <;> simp_all [commands, ControlCall.installs]

lemma mem_installs_failing (h : .install a ∈ c.failingCommands t k) : a ∈ k.installs := by
  cases k with
  | provision b => cases c <;> simp_all [failingCommands, commands, ControlCall.installs]
  | _ => exact mem_installs (t := t) h

/-- A call is a run of commands that install only its sessions. -/
lemma exists_run (d : DataPlane) (c : Control) (t : Table) (k : ControlCall) (o : CallOutcome) :
    ∃ cmds, (c.call d t k o).1 = t.run d c cmds ∧ ∀ a, .install a ∈ cmds → a ∈ k.installs := by
  unfold call
  split
  · cases o with
    | ok => exact ⟨_, rfl, fun a ha => mem_installs ha⟩
    | failed n => exact ⟨_, rfl, fun a ha => mem_installs_failing (mem_of_mem_take ha)⟩
  · exact ⟨[], rfl, nofun⟩

variable {P : String → Option ℕ → Prop} {sessions : List SessionAllocation}

/-- `forall_run` for a call, whatever its outcome. -/
lemma forall_call (ht : ∀ x ∈ t.entries, P x.owner x.place)
    (hinstall : ∀ a ∈ k.installs, P a.id (c.place d a.resourceSlot))
    (hlost : c = .wireguard → ∀ a ∈ k.installs, ∀ owner ≠ a.id,
      P owner (c.place d a.resourceSlot) → P owner none) :
    ∀ x ∈ (c.call d t k o).1.entries, P x.owner x.place := by
  obtain ⟨cmds, hrun, hinstalls⟩ := exists_run d c t k o
  rw [hrun]
  exact Table.forall_run ht (fun a ha => hinstall a (hinstalls a ha))
    (fun hc a ha => hlost hc a (hinstalls a ha))

/-- A call for no session but in place of others: a peer is at an address that the call installs
only if it is the session's own. -/
def Free (d : DataPlane) (c : Control) (t : Table) (k : ControlCall) : Prop :=
  c = .wireguard → ∀ a ∈ k.installs, ∀ x ∈ t.entries,
    x.place = c.place d a.resourceSlot → x.owner = a.id

instance (d : DataPlane) (c : Control) (t : Table) (k : ControlCall) : Decidable (c.Free d t k) :=
  inferInstanceAs (Decidable (_ → _))

/-- No peer loses its address to a call that is `Free` and gives no address twice. -/
lemma forall_call_of_free (hfree : c.Free d t k)
    (hslots : ∀ a ∈ k.installs, ∀ b ∈ k.installs, a.resourceSlot = b.resourceSlot → a.id = b.id)
    (ht : ∀ x ∈ t.entries, P x.owner x.place)
    (hinstall : ∀ a ∈ k.installs, P a.id (c.place d a.resourceSlot)) :
    ∀ x ∈ (c.call d t k o).1.entries, P x.owner x.place := by
  have h : ∀ x ∈ (c.call d t k o).1.entries, P x.owner x.place ∧ (c = .wireguard →
      ∀ a ∈ k.installs, x.place = c.place d a.resourceSlot → x.owner = a.id) := by
    refine forall_call (P := fun owner p => P owner p ∧ (c = .wireguard →
        ∀ a ∈ k.installs, p = c.place d a.resourceSlot → owner = a.id))
      (fun x hx => ⟨ht x hx, fun hc a ha => hfree hc a ha x hx⟩)
      (fun a ha => ⟨hinstall a ha, ?_⟩) ?_
    · rintro rfl b hb hplace
      refine hslots a ha b hb ?_
      simpa [place] using hplace
    · rintro rfl a ha owner hne ⟨-, hown⟩
      exact absurd (hown rfl a ha rfl) hne
  exact fun x hx => (h x hx).1

lemma of_call_eq_true (h : (c.call d t k o).2 = true) :
    c.lists t k = true ∧ (c.call d t k o).1 = t.run d c (c.commands t k) := by
  unfold call at h ⊢
  split at h
  · rename_i hlists
    cases o with
    | ok => exact ⟨hlists, by rw [if_pos hlists]⟩
    | failed n => cases h
  · cases h

lemma commands_kick (sessions : List SessionAllocation) :
    c.commands t (.kick sessions) = if c.keeps then sessions.map .remove else [] := by
  cases c <;> rfl

lemma commands_reconcile (sessions : List SessionAllocation) : c.commands t (.reconcile sessions) =
      if c.keeps then (c.stale t sessions).map .evict ++ sessions.map .install else [] := by
  cases c <;> rfl

/-- A kick only takes out. -/
lemma mem_of_mem_kick (h : x ∈ (c.call d t (.kick sessions) o).1.entries) : x ∈ t.entries := by
  have hcommands : ∀ n, ∃ removed : List SessionAllocation,
      (c.failingCommands t (.kick sessions)).take n = removed.map .remove := by
    intro n
    have hsame : c.failingCommands t (.kick sessions) = c.commands t (.kick sessions) := rfl
    rw [hsame, commands_kick]
    split
    · exact ⟨sessions.take n, map_take.symm⟩
    · exact ⟨[], take_nil⟩
  obtain ⟨n, hn⟩ : ∃ n, (c.call d t (.kick sessions) o).1
      = t.run d c ((c.failingCommands t (.kick sessions)).take n) := by
    unfold call
    split
    · cases o with
      | ok => exact ⟨(c.failingCommands t (.kick sessions)).length, by rw [take_length]; rfl⟩
      | failed n => exact ⟨n, rfl⟩
    · exact ⟨0, by simp [Table.run]⟩
  obtain ⟨removed, hremoved⟩ := hcommands n
  rw [hn, hremoved] at h
  exact (Table.mem_run_remove.mp h).1

/-- A kick that succeeds has taken out what its sessions are taken to have. -/
lemma names_eq_false_of_kick (hkeeps : c.keeps = true)
    (h : (c.call d t (.kick sessions) o).2 = true)
    (hx : x ∈ (c.call d t (.kick sessions) o).1.entries) :
    ∀ a ∈ sessions, c.names d a x.owner x.place = false := by
  rw [(of_call_eq_true h).2] at hx
  rw [commands_kick, if_pos hkeeps] at hx
  exact (Table.mem_run_remove.mp hx).2

/-- What is left before `reconcile` installs its sessions. -/
lemma mem_evicted (h : x ∈ (t.run d c ((c.stale t sessions).map .evict)).entries) :
    x ∈ t.entries ∧ c = .wireguard ∧ ∃ a ∈ sessions, x.place = c.place d a.resourceSlot := by
  obtain ⟨hx, hkept⟩ := Table.mem_run_evict.mp h
  have hstale : x ∉ c.stale t sessions := fun hmem => by
    simpa using hkept x hmem
  cases c with
  | wireguard =>
    simp only [stale, List.mem_filter, not_and, Bool.not_eq_true, Bool.not_eq_false',
      contains_iff_mem, mem_map] at hstale
    obtain ⟨a, ha, hplace⟩ := hstale hx
    exact ⟨hx, rfl, a, ha, hplace.symm⟩
  | _ => exact absurd hx hstale

/-- After a `reconcile` that succeeds the engine holds its sessions only. -/
lemma exists_of_mem_reconcile (hkeeps : c.keeps = true) (hfree : c.Free d t (.reconcile sessions))
    (hslots : ∀ a ∈ sessions, ∀ b ∈ sessions, a.resourceSlot = b.resourceSlot → a.id = b.id)
    (h : (c.call d t (.reconcile sessions) o).2 = true) :
    ∀ x ∈ (c.call d t (.reconcile sessions) o).1.entries,
      ∃ a ∈ sessions, x.owner = a.id ∧ x.place = c.place d a.resourceSlot := by
  rw [(of_call_eq_true h).2, commands_reconcile, if_pos hkeeps, Table.run, foldl_append]
  refine Table.forall_run
    (P := fun owner p => ∃ a ∈ sessions, owner = a.id ∧ p = c.place d a.resourceSlot) ?_ ?_ ?_
  · intro x hx
    obtain ⟨hx, hc, a, ha, hplace⟩ := mem_evicted hx
    exact ⟨a, ha, hfree hc a ha x hx hplace, hplace⟩
  · intro a ha
    obtain ⟨b, hb, heq⟩ := mem_map.mp ha
    cases heq
    exact ⟨a, hb, rfl, rfl⟩
  · rintro rfl a ha owner hne ⟨b, hb, rfl, hplace⟩
    obtain ⟨b', hb', heq⟩ := mem_map.mp ha
    cases heq
    refine absurd (hslots b hb a hb' ?_) hne
    simpa [place] using hplace.symm

/-- An engine that holds nothing is not changed. -/
lemma call_of_keeps_eq_false (h : c.keeps = false) : (c.call d t k o).1 = t := by
  have hcommands : c.commands t k = [] ∧ c.failingCommands t k = [] := by
    cases c with
    | hysteria | openvpn => cases k <;> exact ⟨rfl, rfl⟩
    | _ => cases h
  unfold call
  split
  · cases o with
    | ok =>
      rw [hcommands.1]
      rfl
    | failed n =>
      simp only [hcommands.2, take_nil]
      rfl
  · rfl

end Control

/-! ### What a call leaves as it is -/

/-- The command does not touch the entry. -/
def Command.Spares (d : DataPlane) (c : Control) (x : Entry) : Command → Prop
  | .remove a => c.names d a x.owner x.place = false
  | .evict y => (x.owner == y.owner && x.place == y.place) = false
  | .install a => x.owner ≠ a.id ∧ (c.byPlace = true → x.place ≠ c.place d a.resourceSlot)

namespace Table

variable {d : DataPlane} {c : Control} {t : Table} {x : Entry}

lemma mem_exec_of_spares {cmd : Command} (hx : x ∈ t.entries) (h : cmd.Spares d c x) :
    x ∈ (t.exec d c cmd).entries := by
  cases cmd with
  | install a =>
    cases c with
    | hysteria => exact hx
    | openvpn => exact hx
    | xray => exact mem_addUser.mpr (.inl ⟨hx, h.1⟩)
    | shadowsocks => exact mem_addServer.mpr (.inl ⟨hx, h.2 rfl⟩)
    | wireguard =>
      refine mem_installPeer.mpr (.inl (mem_withoutAddress.mpr (.inl ⟨?_, h.2 rfl⟩)))
      exact mem_filter.mpr ⟨hx, by simpa using h.1⟩
  | _ => exact mem_filter.mpr ⟨hx, (Bool.not_eq_true' _).mpr h⟩

lemma mem_run_of_spares {cmds : List Command} (hx : x ∈ t.entries)
    (h : ∀ cmd ∈ cmds, cmd.Spares d c x) : x ∈ (t.run d c cmds).entries := by
  induction cmds generalizing t with
  | nil => exact hx
  | cons cmd cmds ih =>
    exact ih (mem_exec_of_spares hx (h cmd mem_cons_self))
      fun cmd' hcmd' => h cmd' (mem_cons_of_mem _ hcmd')

lemma holder_eq_some {q : ℕ} {owner : String} :
    t.holder q = some owner ↔ ∃ x ∈ t.entries, x.place = some q ∧ x.owner = owner := by
  unfold holder
  constructor
  · intro h
    obtain ⟨x, hx, rfl⟩ := Option.map_eq_some_iff.mp h
    exact ⟨x, mem_of_find?_eq_some hx, by simpa using find?_some hx, rfl⟩
  · rintro ⟨x, hx, hplace, rfl⟩
    obtain ⟨y, hy⟩ : ∃ y, t.entries.find? (fun x => x.place == some q) = some y := by
      rw [← Option.isSome_iff_exists, find?_isSome]
      exact ⟨x, hx, by simpa using hplace⟩
    have hyplace : y.place = some q := by simpa using find?_some hy
    have heq : x = y := by
      by_contra hne
      have hsymm : Std.Symm fun x y : Entry => ∀ p ∈ x.place, ∀ q ∈ y.place, p ≠ q :=
        ⟨fun _ _ h p hp q hq => (h q hq p hp).symm⟩
      exact (pairwise_filterMap.mp t.places).forall hx (mem_of_find?_eq_some hy) hne q
        hplace q hyplace rfl
    rw [hy, heq]
    rfl

/-- What counts in an engine after a command counted there before, or counts from zero. -/
lemma exists_of_mem_exec {cmd : Command} (h : x ∈ (t.exec d c cmd).entries) :
    x.bytes = 0 ∨ ∃ y ∈ t.entries, y.owner = x.owner ∧ y.bytes = x.bytes := by
  cases cmd with
  | install a =>
    cases c with
    | xray =>
      rcases mem_addUser.mp h with ⟨h, -⟩ | rfl
      · exact .inr ⟨x, h, rfl, rfl⟩
      · exact .inl rfl
    | shadowsocks =>
      rcases mem_addServer.mp h with ⟨h, -⟩ | rfl
      · exact .inr ⟨x, h, rfl, rfl⟩
      · exact .inl rfl
    | wireguard =>
      rcases mem_installPeer.mp h with h | rfl
      · rcases mem_withoutAddress.mp h with ⟨h, -⟩ | ⟨-, y, hy, -, rfl⟩
        · exact .inr ⟨x, (mem_filter.mp h).1, rfl, rfl⟩
        · exact .inr ⟨y, (mem_filter.mp hy).1, rfl, rfl⟩
      · cases hfind : t.entries.find? fun x => x.owner == a.id with
        | none => exact .inl rfl
        | some y =>
          exact .inr ⟨y, mem_of_find?_eq_some hfind, by simpa using find?_some hfind,
            rfl⟩
    | _ => exact .inr ⟨x, h, rfl, rfl⟩
  | _ => exact .inr ⟨x, (mem_filter.mp h).1, rfl, rfl⟩

/-! ### One entry for a session -/

/-- The sessions an engine holds something for, once for each entry. -/
def owners (t : Table) : List String := t.entries.map Entry.owner

lemma owners_filter (t : Table) (q : Entry → Bool) : (t.filter q).owners.Sublist t.owners :=
  List.filter_sublist.map _

lemma nodup_owners_concat {t' : Table} {e : Entry} (heq : t'.entries = t.entries ++ [e])
    (ht : t.owners.Nodup) (hne : ∀ x ∈ t.entries, x.owner ≠ e.owner) : t'.owners.Nodup := by
  have howners : t'.owners = t.owners ++ [e.owner] := by simp [owners, heq]
  rw [howners, nodup_append]
  refine ⟨ht, nodup_singleton _, ?_⟩
  intro owner howner owner' howner'
  obtain ⟨x, hx, rfl⟩ := mem_map.mp howner
  rw [mem_singleton.mp howner']
  exact hne x hx

lemma owners_withoutAddress (t : Table) (address : ℕ) :
    (t.withoutAddress address).owners = t.owners := by
  simp only [owners, withoutAddress, adjust, map_map]
  refine map_congr_left fun x _ => ?_
  simp only [Function.comp_apply]
  split <;> rfl

/-- A command leaves one entry for a session, where a server of the session is on no other port. -/
lemma nodup_owners_exec {cmd : Command} (ht : t.owners.Nodup)
    (hport : ∀ a, cmd = .install a → c = .shadowsocks →
      ∀ x ∈ t.entries, x.owner = a.id → x.place = c.place d a.resourceSlot) :
    (t.exec d c cmd).owners.Nodup := by
  cases cmd with
  | install a =>
    cases c with
    | hysteria => exact ht
    | openvpn => exact ht
    | xray =>
      refine nodup_owners_concat rfl (ht.sublist (owners_filter t _)) fun x hx => ?_
      simpa using (mem_filter.mp hx).2
    | shadowsocks =>
      refine nodup_owners_concat rfl (ht.sublist (owners_filter t _)) fun x hx howner => ?_
      obtain ⟨hx, hplace⟩ := mem_filter.mp hx
      simp [hport a rfl rfl x hx howner, Control.place] at hplace
    | wireguard =>
      refine nodup_owners_concat rfl ?_ fun x hx howner => ?_
      · rw [owners_withoutAddress]
        exact ht.sublist (owners_filter t _)
      · have hkept : ∀ y ∈ (t.filter fun x => !(x.owner == a.id)).entries, y.owner ≠ a.id :=
          fun y hy => by simpa using (mem_filter.mp hy).2
        rcases mem_withoutAddress.mp hx with ⟨hx, -⟩ | ⟨-, y, hy, -, rfl⟩
        · exact hkept x hx howner
        · exact hkept y hy howner
  | _ => exact ht.sublist (owners_filter t _)

lemma nodup_owners_run {cmds : List Command} (ht : t.owners.Nodup)
    (hport : ∀ a, .install a ∈ cmds → c = .shadowsocks →
      ∀ x ∈ t.entries, x.owner = a.id → x.place = c.place d a.resourceSlot)
    (hslots : ∀ a b, .install a ∈ cmds → .install b ∈ cmds → a.id = b.id →
      a.resourceSlot = b.resourceSlot) : (t.run d c cmds).owners.Nodup := by
  induction cmds generalizing t with
  | nil => exact ht
  | cons cmd cmds ih =>
    refine ih (nodup_owners_exec ht fun a ha => hport a (ha ▸ mem_cons_self)) ?_
      (fun a b ha hb => hslots a b (mem_cons_of_mem _ ha) (mem_cons_of_mem _ hb))
    rintro a ha rfl x hx howner
    have ha' := mem_cons_of_mem cmd ha
    cases cmd with
    | install b =>
      rcases mem_install hx with hx | ⟨hb, hplace⟩ | ⟨hc, -⟩
      · exact hport a ha' rfl x hx howner
      · rw [hplace, hslots b a mem_cons_self ha' (hb.symm.trans howner)]
      · cases hc
    | _ => exact hport a ha' rfl x (mem_filter.mp hx).1 howner

end Table

namespace Control

variable {d : DataPlane} {c : Control} {t : Table} {k : ControlCall} {o : CallOutcome}

lemma nodup_owners_call (ht : t.owners.Nodup) (hport : ∀ a ∈ k.installs, c = .shadowsocks →
      ∀ x ∈ t.entries, x.owner = a.id → x.place = c.place d a.resourceSlot)
    (hslots : ∀ a ∈ k.installs, ∀ b ∈ k.installs, a.id = b.id → a.resourceSlot = b.resourceSlot) :
    (c.call d t k o).1.owners.Nodup := by
  obtain ⟨cmds, hrun, hinstalls⟩ := exists_run d c t k o
  rw [hrun]
  exact Table.nodup_owners_run ht (fun a ha => hport a (hinstalls a ha))
    (fun a b ha hb => hslots a (hinstalls a ha) b (hinstalls b hb))

lemma exists_of_mem_call {x : Entry} (h : x ∈ (c.call d t k o).1.entries) :
    x.bytes = 0 ∨ ∃ y ∈ t.entries, y.owner = x.owner ∧ y.bytes = x.bytes := by
  obtain ⟨cmds, hrun, -⟩ := exists_run d c t k o
  rw [hrun] at h
  clear hrun
  induction cmds generalizing t with
  | nil => exact .inr ⟨x, h, rfl, rfl⟩
  | cons cmd cmds ih =>
    rcases ih h with hx | ⟨y, hy, howner, hbytes⟩
    · exact .inl hx
    · rcases Table.exists_of_mem_exec hy with hzero | ⟨z, hz, hzowner, hzbytes⟩
      · exact .inl (hbytes.symm.trans hzero)
      · exact .inr ⟨z, hz, hzowner.trans howner, hzbytes.trans hbytes⟩

/-- The commands of a call that is not `reconcile` are about its sessions. -/
lemma exists_run_sessions (d : DataPlane) (c : Control) (t : Table) (o : CallOutcome)
    (hk : ∀ sessions, k ≠ .reconcile sessions) : ∃ cmds, (c.call d t k o).1 = t.run d c cmds ∧
      ∀ cmd ∈ cmds, ∃ a ∈ k.sessions, cmd = .remove a ∨ cmd = .install a := by
  have hcommands : (∀ cmd ∈ c.commands t k, ∃ a ∈ k.sessions, cmd = .remove a ∨ cmd = .install a) ∧
      ∀ cmd ∈ c.failingCommands t k, ∃ a ∈ k.sessions, cmd = .remove a ∨ cmd = .install a := by
    cases k with
    | provision a => cases c <;> simp [commands, failingCommands, ControlCall.sessions]
    | kick sessions =>
      have hsame : c.failingCommands t (.kick sessions) = c.commands t (.kick sessions) := rfl
      rw [hsame, commands_kick, and_self]
      split
      · simp [ControlCall.sessions]
      · exact nofun
    | reconcile sessions => exact absurd rfl (hk sessions)
  unfold call
  split
  · cases o with
    | ok => exact ⟨_, rfl, hcommands.1⟩
    | failed n => exact ⟨_, rfl, fun cmd hcmd => hcommands.2 cmd (mem_of_mem_take hcmd)⟩
  · exact ⟨[], rfl, nofun⟩

/-- A call that is not `reconcile` leaves what is not at the places of its sessions nor theirs. -/
lemma mem_call_of_other {x : Entry} (hk : ∀ sessions, k ≠ .reconcile sessions) (hx : x ∈ t.entries)
    (hother : ∀ a ∈ k.sessions, x.owner ≠ a.id ∧
      (c.byPlace = true → x.place ≠ c.place d a.resourceSlot)) :
    x ∈ (c.call d t k o).1.entries := by
  obtain ⟨cmds, hrun, hcmds⟩ := exists_run_sessions d c t o hk
  rw [hrun]
  refine Table.mem_run_of_spares hx fun cmd hcmd => ?_
  obtain ⟨a, ha, rfl | rfl⟩ := hcmds cmd hcmd
  · obtain ⟨hid, hplace⟩ := hother a ha
    cases c with
    | shadowsocks | wireguard => exact beq_eq_false_iff_ne.mpr (hplace rfl)
    | _ => exact beq_eq_false_iff_ne.mpr hid
  · exact hother a ha

/-- A session that is provisioned has its port or address. -/
lemma holder_provision {a : SessionAllocation} {q : ℕ}
    (h : (c.call d t (.provision a) o).2 = true) (hq : q ∈ c.place d a.resourceSlot) :
    (c.call d t (.provision a) o).1.holder q = some a.id := by
  rw [(of_call_eq_true h).2]
  cases c with
  | shadowsocks =>
    cases hq
    exact Table.holder_eq_some.mpr ⟨_, Table.mem_addServer.mpr (.inr rfl), rfl, rfl⟩
  | wireguard =>
    cases hq
    exact Table.holder_eq_some.mpr ⟨_, Table.mem_installPeer.mpr (.inr rfl), rfl, rfl⟩
  | _ => cases hq

end Control

end Ket.Server
