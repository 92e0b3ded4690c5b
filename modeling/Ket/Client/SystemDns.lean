import Ket.Lib.Program
import Ket.Lib.Str

/-!
# The system resolver (`system_dns/mod.rs`)

While a tunnel is up, `/etc/resolv.conf` names the resolver of the tunnel.  The content that it had
before is saved first, in a file that is put in place by a rename; `recover_at` writes it back and
deletes the saved copy.  `resolv.conf` itself is written in place: it is truncated when it is
opened, and the new content is written after that.

Each operation is a program of file operations, which may fail.  Between two of them the process
may crash and others may edit `resolv.conf`.
-/

namespace Ket.Client.SystemDns

open Ket.Lib

abbrev Content := List UInt8

def virtualDnsConfiguration : Content := Str.bytes "nameserver 198.18.0.1\n"

def openvpnDnsConfiguration : Content :=
  Str.bytes "nameserver 1.1.1.1\nnameserver 1.0.0.1\noptions timeout:2 attempts:2\n"

/-- What Ket writes to `resolv.conf`, by the kind of tunnel. -/
inductive Configuration where
  | virtualDns
  | openvpn
deriving DecidableEq

def Configuration.content : Configuration → Content
  | .virtualDns => virtualDnsConfiguration
  | .openvpn => openvpnDnsConfiguration

def maxResolverBytes : ℕ := 64 * 1024

/-- `io::Error`, as far as the code looks at it. -/
inductive IoError where
  | notFound
  | invalidData (message : String)
  /-- A write has ended after so many bytes. -/
  | shortWrite (written : ℕ)
  | other
deriving DecidableEq

/-! ### File operations -/

/-- What `resolv.conf` is. -/
inductive Entry where
  /-- A regular file; the number tells it from others that had or will have its name. -/
  | file (inode : ℕ) (content : Content)
  /-- A directory, a device. -/
  | special
deriving DecidableEq

/-- The files that the operations name. -/
inductive Path where
  | resolver
  | state
  | temporary
deriving DecidableEq

structure Metadata where
  isFile : Bool
  len : ℕ
deriving DecidableEq

/-- An open file. -/
inductive Handle where
  | resolver (inode : ℕ)
  | temporary
deriving DecidableEq

inductive Command where
  /-- `fs::metadata` and `fs::symlink_metadata`. -/
  | metadata (path : Path)
  /-- `File::open` and reading at most `maxResolverBytes + 1` bytes. -/
  | read (path : Path)
  /-- `OpenOptions::open` for writing, with `truncate`; the temporary file is created. -/
  | openTruncate (path : Path)
  | writeAll (file : Handle) (content : Content)
  | syncAll (file : Handle)
  /-- Making the directory of the state, with its permissions. -/
  | createParent
  /-- `fs::rename` of the temporary file to the state. -/
  | renameToState
  | removeState
  | syncParent

/-- What a command returns when it succeeds. -/
abbrev Command.Result : Command → Type
  | .metadata _ => Metadata
  | .read _ => Content
  | .openTruncate _ => Handle
  | _ => Unit

abbrev Answer (c : Command) : Type := Except IoError c.Result

abbrev Io := ExceptT IoError (Program Command Answer)

namespace Io

def perform (c : Command) : Io c.Result := ExceptT.mk (Program.perform c)

def metadata (path : Path) : Io Metadata := perform (.metadata path)

def read (path : Path) : Io Content := perform (.read path)

def openTruncate (path : Path) : Io Handle := perform (.openTruncate path)

def writeAll (file : Handle) (content : Content) : Io Unit := perform (.writeAll file content)

def syncAll (file : Handle) : Io Unit := perform (.syncAll file)

def createParent : Io Unit := perform .createParent

def renameToState : Io Unit := perform .renameToState

def syncParent : Io Unit := perform .syncParent

end Io

/-! ### The operations -/

def readBounded (path : Path) : Io Content := do
  let metadata ← Io.metadata path
  if !metadata.isFile || maxResolverBytes < metadata.len then
    throw (.invalidData "the resolver configuration is invalid")
  else do
    let content ← Io.read path
    if maxResolverBytes < content.length then
      throw (.invalidData "the resolver configuration is too large")
    else pure content

def readOptionalState : Io (Option Content) :=
  ExceptT.mk (Program.call (.metadata .state) fun
    | .ok metadata =>
      if !metadata.isFile || maxResolverBytes < metadata.len then
        .done (.error (.invalidData "the saved resolver state is invalid"))
      else (some <$> readBounded .state : Io (Option Content)).run
    | .error .notFound => .done (.ok none)
    | .error e => .done (.error e))

def persistState (content : Content) : Io Unit := do
  Io.createParent
  let file ← Io.openTruncate .temporary
  Io.writeAll file content
  Io.syncAll file
  Io.renameToState
  Io.syncParent

def writeInPlace (content : Content) : Io Unit := do
  let metadata ← Io.metadata .resolver
  if !metadata.isFile then throw (.invalidData "the resolver path is not a regular file")
  else do
    let file ← Io.openTruncate .resolver
    Io.writeAll file content
    Io.syncAll file

def removeState : Io Unit :=
  ExceptT.mk (Program.call .removeState fun
    | .ok () => (Io.syncParent : Io Unit).run
    | .error .notFound => .done (.ok ())
    | .error e => .done (.error e))

def recoverAt : Io Unit := do
  match ← readOptionalState with
  | none => pure ()
  | some original => do
      let current ← readBounded .resolver
      if [virtualDnsConfiguration, openvpnDnsConfiguration].contains current then
        writeInPlace original
        removeState
      else removeState

/-- `acquire_at` when the resolver could not be written: what it had before is written back. -/
def giveUp (original : Content) (error : IoError) : Io Unit :=
  ExceptT.mk do
    let _ ← (writeInPlace original).run
    let _ ← removeState.run
    return .error error

def acquireAt (configuration : Configuration) : Io Unit := do
  recoverAt
  let original ← readBounded .resolver
  persistState original
  ExceptT.mk do
    match ← (writeInPlace configuration.content).run with
    | .ok () => return .ok ()
    | .error e => (giveUp original e).run

/-- `restore`; returns whether the lease is still active. -/
def restore (active : Bool) : Io Bool := do
  if !active then pure false
  else do
    recoverAt
    pure false

/-! ### The files -/

/-- The files, and of their past what the statements speak of. -/
structure World where
  resolver : Option Entry
  state : Option Content
  temporary : Option Content
  /-- Above the numbers of all files that there were. -/
  inodes : ℕ
  /-- The last one to write `resolv.conf` was Ket. -/
  byKet : Bool
  /-- Ket has truncated `resolv.conf` and not written its new content yet. -/
  torn : Bool
  /-- What others wrote to `resolv.conf`. -/
  foreign : List Content
  /-- What was saved last. -/
  original : Option Content
  /-- The last operation was a recovery, and it has succeeded. -/
  recovered : Bool

namespace World

variable (w : World)

def content : Path → Option Content
  | .resolver =>
    match w.resolver with
    | some (.file _ content) => some content
    | _ => none
  | .state => w.state
  | .temporary => w.temporary

def metadata (path : Path) : Option Metadata :=
  match path, w.resolver with
  | .resolver, some .special => some ⟨false, 0⟩
  | path, _ => (w.content path).map fun content => ⟨true, content.length⟩

/-- The file with so many bytes at its start written over. -/
def overwritten (content written : Content) : Content := written ++ content.drop written.length

/-- Writes to an open file. -/
def write (file : Handle) (written : Content) : World :=
  match file with
  | .temporary => { w with temporary := w.temporary.map (overwritten · written) }
  | .resolver inode =>
    match w.resolver with
    | some (.file current content) =>
      -- another file may have taken the name
      if current = inode then
        { w with resolver := some (.file inode (overwritten content written)), byKet := true }
      else w
    | _ => w

/-- An operation that fails changes nothing. -/
def failed (e : IoError) (path : Path) : Option World :=
  if e = .notFound → w.metadata path = none then some w else none

def reply : (c : Command) → Answer c → Option World
  | .metadata path, .ok metadata => if w.metadata path = some metadata then some w else none
  | .metadata path, .error e => w.failed e path
  | .read path, .ok content =>
    if (w.content path).map (·.take (maxResolverBytes + 1)) = some content then some w else none
  | .read path, .error e => w.failed e path
  | .openTruncate .temporary, .ok file =>
    if file = .temporary then some { w with temporary := some [] } else none
  | .openTruncate .resolver, .ok file =>
    match w.resolver with
    | some (.file inode _) =>
      if file = .resolver inode then
        some { w with resolver := some (.file inode []), byKet := true, torn := true }
      else none
    | _ => none
  | .openTruncate .state, .ok _ => none
  | .openTruncate path, .error e => w.failed e path
  | .writeAll .temporary content, .ok () => some (w.write .temporary content)
  | .writeAll (.resolver inode) content, .ok () =>
    some { w.write (.resolver inode) content with torn := false }
  | .writeAll file content, .error (.shortWrite n) => some (w.write file (content.take n))
  | .writeAll _ _, .error _ => some w
  | .syncAll _, _ => some w
  | .createParent, _ => some w
  | .renameToState, .ok () =>
    w.temporary.map fun content =>
      { w with state := some content, temporary := none, original := some content }
  | .renameToState, .error e => w.failed e .temporary
  | .removeState, .ok () => if w.state.isSome then some { w with state := none } else none
  | .removeState, .error e => w.failed e .state
  | .syncParent, _ => some w

end World

/-- What others do to `resolv.conf`. -/
inductive Edit where
  /-- The file is written. -/
  | write (content : Content)
  /-- Another one takes its place. -/
  | replace (content : Content)
  | remove

def World.edit (w : World) : Edit → Option World
  | .write content =>
    match w.resolver with
    | some (.file inode _) =>
      some { w with
        resolver := some (.file inode content)
        byKet := false
        foreign := content :: w.foreign }
    | _ => none
  | .replace content =>
    some { w with
      resolver := some (.file w.inodes content)
      inodes := w.inodes + 1
      byKet := false
      torn := false
      foreign := content :: w.foreign }
  | .remove => some { w with resolver := none, byKet := false, torn := false }

inductive Operation where
  | acquire (configuration : Configuration)
  | restore (active : Bool)
  | recover

/-- The operation is one that recovers. -/
def Operation.recovers : Operation → Bool
  | .restore active => active
  | .recover => true
  | .acquire _ => false

def Operation.program : Operation → Program Command Answer (Except IoError Unit)
  | .acquire configuration => (acquireAt configuration).run
  | .restore active => (do let _ ← SystemDns.restore active : Io Unit).run
  | .recover => recoverAt.run

/-- A computer whose `resolv.conf` has such a content. -/
def machine (content : Content) :
    Machine World Command Answer Operation (Except IoError Unit) Edit where
  start := ⟨some (.file 0 content), none, none, 1, false, false, [content], none, false⟩
  program := Operation.program
  reply := World.reply
  other := World.edit
  begins w _ := some { w with recovered := false }
  ends w op r := { w with recovered := op.recovers && r.isOk }
  -- the files stay as they are when the process ends
  drops w _ := some { w with recovered := false }

end Ket.Client.SystemDns
