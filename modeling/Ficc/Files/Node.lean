import Ficc.Execution.Spec
import Ficc.Foundations.Durable
import Ficc.Foundations.Table

/-!
# File mutations on a machine

`mutate` of `file_actions.py`: a receipt with the state `unknown` is saved, the mutation is
applied with calls relative to opened directories, and the receipt is saved again as succeeded. A
receipt that is there already is returned as it is.

Other programs use the same file system. `Environment` says what they do before each system call,
and which of the calls fail. A request can also be stopped between any two durable steps. An object
is known by its number, as in `same`.
-/

namespace Ficc.Files

open Execution (Identity)
open Durable

/-! ### The file system -/

abbrev Name : Type := String

inductive Kind
  | file | directory | symlink | special
deriving DecidableEq

structure Object where
  kind : Kind
  size : ℕ
  mtime : ℕ
  ctime : ℕ
  /-- The object is owned by the account. -/
  own : Bool
  mode : ℕ
  links : ℕ
deriving DecidableEq

/-- `identity(info)`. The number stands for the device and the inode. -/
structure ObjectIdentity where
  ino : ℕ
  kind : Kind
  size : ℕ
  mtime : ℕ
  ctime : ℕ
deriving DecidableEq

def Object.identity (object : Object) (ino : ℕ) : ObjectIdentity :=
  ⟨ino, object.kind, object.size, object.mtime, object.ctime⟩

/-- `same(current, expected, True)`. -/
def sameObject (current expected : ObjectIdentity) : Prop :=
  current.ino = expected.ino ∧ current.kind = expected.kind

instance (current expected : ObjectIdentity) : Decidable (sameObject current expected) :=
  inferInstanceAs (Decidable (_ ∧ _))

/-- Objects, and their names in directories. The directories of the registered roots are found by
their paths. -/
structure FileSystem where
  roots : Table String ℕ
  objects : Table ℕ Object
  names : Table (ℕ × Name) ℕ

namespace FileSystem

variable (fs : FileSystem)

/-- The object that a directory has under a name. -/
def child (directory : ℕ) (name : Name) : Option ℕ := do
  let object ← fs.objects.lookup directory
  if object.kind = .directory then fs.names.lookup (directory, name) else none

/-- The object under a path. -/
def walk (ino : ℕ) : List Name → Option ℕ
  | [] => some ino
  | name :: rest => (fs.child ino name).bind fun next => walk next rest

def identity (ino : ℕ) : Option ObjectIdentity :=
  (fs.objects.lookup ino).map fun object => object.identity ino

def emptyDirectory (ino : ℕ) : Prop := ∀ row ∈ fs.names.rows, row.1.1 ≠ ino

instance (ino : ℕ) : Decidable (fs.emptyDirectory ino) :=
  inferInstanceAs (Decidable (∀ row ∈ fs.names.rows, row.1.1 ≠ ino))

end FileSystem

/-! ### Requests and receipts -/

/-- A registered root. -/
structure Root where
  path : String
  readOnly : Bool
  identity : ObjectIdentity
deriving DecidableEq

/-- A selected entry: its path below the root, itself, and the directory that it is in. -/
structure Reference where
  parts : List Name
  identity : ObjectIdentity
  parent : ObjectIdentity
deriving DecidableEq

inductive ActionKind
  | mkdir | rename | mode | delete
deriving DecidableEq

structure Mutation where
  action : ActionKind
  entry : Option Reference
  parent : Option Reference
  name : Option Name
  mode : Option ℕ
deriving DecidableEq

/-- What a digest is computed from. -/
structure Signature where
  root : Root
  mutation : Mutation
deriving DecidableEq

structure Request where
  operationId : Identity
  root : Root
  mutation : Mutation
deriving DecidableEq

def Request.signature (request : Request) : Signature := ⟨request.root, request.mutation⟩

inductive ReceiptState
  | unknown | succeeded
deriving DecidableEq

structure Receipt where
  digest : Signature
  state : ReceiptState
  result : Option ActionKind
deriving DecidableEq

/-- What a system call did to the selected object, or made. -/
inductive Effect
  | made | changed | renamed | quarantined | restored
  | removed (ino : ℕ)
deriving DecidableEq

/-- The effect is the one that the mutation is for. An object that is put aside to be deleted is
still there. -/
def Effect.decisive : Effect → Bool
  | .quarantined | .restored => false
  | _ => true

/-- The file system, the receipts, and what the requests have done so far. -/
structure Disk where
  fs : FileSystem
  receipts : Table Identity Receipt
  effects : List (Identity × Effect)

/-! ### Interruptions -/

/-- The places of a request at which others can act, or a call can fail. -/
inductive Point
  | lock | save
  | parent | entry
  /-- Before the call that changes the object, and after it. -/
  | change | sync
  /-- A directory that is opened to rename into it. -/
  | target
  /-- The object that was put aside is looked at, removed, and put back. -/
  | stat | remove | restore
  | settle
deriving DecidableEq

structure Environment where
  others : Point → FileSystem → FileSystem
  fails : Point → Bool
  /-- The folder has room for no receipt more. -/
  full : Bool
  /-- The number of a new object, and the time. -/
  ino : ℕ
  now : ℕ

/-- Nothing fails and nobody else acts. -/
def Environment.quiet (ino now : ℕ) : Environment :=
  { others := fun _ fs => fs, fails := fun _ => false, full := false, ino, now }

abbrev Program (α : Type) : Type := Durable Disk Error α

def fileError (code message : String) : Error := .failure code message 409

def refuse (condition : Prop) [Decidable condition] (code message : String) : Program Unit :=
  refuseIf condition (fileError code message)

def onFiles (f : FileSystem → FileSystem) (disk : Disk) : Disk := { disk with fs := f disk.fs }

/-- Others act, and then a call may fail. -/
def Environment.reach (env : Environment) (point : Point) : Program Unit := do
  perform (onFiles (env.others point))
  refuseIf (env.fails point = true) .os

/-- A system call that changes the file system, for a request. -/
def change (id : Identity) (effect : Effect) (f : FileSystem → FileSystem) : Program Unit :=
  perform fun disk => { disk with
    fs := f disk.fs
    effects := disk.effects ++ [(id, effect)] }

/-! ### Opening -/

def stale : Error := fileError "stale_entry" "The selected entry changed. Refresh the directory."

/-- `root_fd`. -/
def rootFd (root : Root) : Program ℕ := do
  let disk ← disk
  let ino ← demand (disk.fs.roots.lookup root.path) .os
  let current ← demand (disk.fs.identity ino) .os
  refuseIf (current.kind ≠ .directory) .os
  refuse (¬sameObject current root.identity) "root_changed" "The registered directory was replaced."
  return ino

/-- `entry_fd`. A directory may have changed, but not have been replaced. -/
def entryFd (env : Environment) (point : Point) (root : Root) (reference : Reference)
    (directory : Bool) : Program ℕ := do
  env.reach point
  let top ← rootFd root
  let disk ← disk
  let ino ← demand (disk.fs.walk top reference.parts) .os
  let current ← demand (disk.fs.identity ino) .os
  refuseIf (directory = true ∧ current.kind ≠ .directory) .os
  refuseIf (¬(if current.kind = .directory then sameObject current reference.identity
    else current = reference.identity)) stale
  return ino

/-- `parent_fd`: the directory of an entry, and its name there. -/
def parentFd (env : Environment) (root : Root) (reference : Reference) : Program (ℕ × Name) := do
  let name ← demand reference.parts.getLast?
    (fileError "root_action" "The registered root cannot be changed.")
  env.reach .parent
  let top ← rootFd root
  let disk ← disk
  let ino ← demand (disk.fs.walk top reference.parts.dropLast) .os
  let current ← demand (disk.fs.identity ino) .os
  refuseIf (current.kind ≠ .directory) .os
  refuse (¬sameObject current reference.parent) "stale_entry" "The parent directory changed."
  return (ino, name)

/-- `stat` of a name in a directory. -/
def statAt (directory : ℕ) (name : Name) : Program ObjectIdentity := do
  let disk ← disk
  let ino ← demand (disk.fs.names.lookup (directory, name)) .os
  demand (disk.fs.identity ino) .os

/-- `checked_at`. -/
def checkedAt (env : Environment) (directory : ℕ) (name : Name) (expected : ObjectIdentity) :
    Program ObjectIdentity := do
  env.reach .entry
  let current ← statAt directory name
  refuseIf (current ≠ expected) stale
  return current

/-- `new_name`, which also decodes the name. -/
def newName (name : Option Name) : Program Name := do
  let name ← demand name (fileError "invalid_name" "Enter a file name.")
  refuse (name = "" ∨ name = "." ∨ name = ".." ∨ '/' ∈ name.toList ∨ Char.ofNat 0 ∈ name.toList ∨
    255 < name.utf8ByteSize) "invalid_entry" "The entry name is invalid."
  refuse (name.startsWith ".ficc-" = true) "invalid_name"
    "This name is reserved for transfer state."
  return name

/-! ### Mutations -/

/-- `rename` without replacement. -/
def rename (id : Identity) (effect : Effect) (source : ℕ) (name : Name) (target : ℕ)
    (newName : Name) : Program Unit := do
  let disk ← disk
  let ino ← demand (disk.fs.names.lookup (source, name)) .os
  refuseIf (disk.fs.names.lookup (target, newName) ≠ none) .os
  change id effect fun fs => { fs with
    names := (fs.names.erase (source, name)).insert (target, newName) ino }

def mkdir (env : Environment) (request : Request) : Program Unit := do
  let reference ← demand request.mutation.parent .os
  let parent ← entryFd env .target request.root reference true
  let name ← newName request.mutation.name
  env.reach .change
  let disk ← disk
  refuseIf (disk.fs.names.lookup (parent, name) ≠ none ∨ disk.fs.objects.lookup env.ino ≠ none) .os
  change request.operationId .made fun fs => { fs with
    objects := fs.objects.insert env.ino ⟨.directory, 0, env.now, env.now, true, 448, 2⟩
    names := fs.names.insert (parent, name) env.ino }
  env.reach .sync

def changeMode (env : Environment) (request : Request) : Program Unit := do
  let mode ← demand request.mutation.mode
    (fileError "invalid_mode" "Use ordinary owner, group, and other mode bits.")
  refuse (511 < mode) "invalid_mode" "Use ordinary owner, group, and other mode bits."
  let reference ← demand request.mutation.entry .os
  let ino ← entryFd env .entry request.root reference false
  let disk ← disk
  let object ← demand (disk.fs.objects.lookup ino) .os
  refuse (¬(object.kind = .file ∨ object.kind = .directory) ∨ object.own = false ∨
      512 ≤ object.mode ∨ (object.kind = .file ∧ object.links ≠ 1))
    "mode_refused" "This object does not permit a mode change."
  env.reach .change
  change request.operationId .changed fun fs => { fs with
    objects := fs.objects.modify ino fun object => { object with mode, ctime := env.now } }
  env.reach .sync

/-- The name under which an object is put aside. -/
def quarantine (id : Identity) : Name := ".ficc-delete-" ++ toString id.toNat

/-- The object that `rmdir` or `unlink` would remove. -/
def FileSystem.removable (fs : FileSystem) (directory : ℕ) (name : Name) (folder : Bool) :
    Option ℕ := do
  let ino ← fs.names.lookup (directory, name)
  let current ← fs.identity ino
  if folder then
    if current.kind = .directory ∧ fs.emptyDirectory ino then some ino else none
  else if current.kind = .directory then none else some ino

/-- `rmdir` or `unlink`. A file keeps its other names. -/
def FileSystem.remove (fs : FileSystem) (directory : ℕ) (name : Name) (ino : ℕ) (folder : Bool)
    (now : ℕ) : FileSystem :=
  { fs with
    objects := if folder then fs.objects.erase ino else fs.objects.modify ino fun object =>
      { object with links := object.links - 1, ctime := now }
    names := fs.names.erase (directory, name) }

/-- The removal of the object that was put aside. -/
def removal (env : Environment) (request : Request) (parent : ℕ) (name : Name)
    (expected : ObjectIdentity) : Program Unit := do
  let aside := quarantine request.operationId
  let folder := decide (expected.kind = .directory)
  env.reach .stat
  let actual ← statAt parent aside
  refuse (¬sameObject actual expected) "outcome_unknown"
    "An unexpected object was retained for recovery."
  perform (onFiles (env.others .remove))
  let disk ← disk
  match disk.fs.removable parent aside folder, env.fails .remove with
  | some ino, false =>
    change request.operationId (.removed ino) fun fs => fs.remove parent aside ino folder env.now
  | _, _ => do
    -- A directory that cannot be removed goes back to its name.
    if folder then do
      env.reach .restore
      rename request.operationId .restored parent aside parent name
      check (.error .os)
    else check (.error .os)

def renameOrDelete (env : Environment) (request : Request) (delete : Bool) : Program Unit := do
  let reference ← demand request.mutation.entry .os
  let (parent, name) ← parentFd env request.root reference
  let expected ← checkedAt env parent name reference.identity
  refuse (expected.kind = .special) "unsupported_file" "This object cannot be changed."
  if delete then do
    env.reach .change
    rename request.operationId .quarantined parent name parent (quarantine request.operationId)
    removal env request parent name expected
  else do
    let reference ← demand request.mutation.parent .os
    let target ← entryFd env .target request.root reference true
    let renamed ← newName request.mutation.name
    env.reach .change
    rename request.operationId .renamed parent name target renamed
  env.reach .sync

/-- The part of `mutate` between the two receipts. -/
def apply (env : Environment) (request : Request) : Program Unit :=
  match request.mutation.action with
  | .mkdir => mkdir env request
  | .mode => changeMode env request
  | .rename => renameOrDelete env request false
  | .delete => renameOrDelete env request true

/-- `save` of `file_state`. -/
def save (id : Identity) (receipt : Receipt) : Program Unit :=
  perform fun disk => { disk with receipts := disk.receipts.insert id receipt }

/-- The mutation and the receipt of its success. -/
def pursue (env : Environment) (request : Request) : Program Receipt := do
  apply env request
  refuseIf (env.fails .settle = true) .os
  let result : Receipt := ⟨request.signature, .succeeded, some request.mutation.action⟩
  save request.operationId result
  return result

/-- `mutate`. -/
def mutate (env : Environment) (request : Request) : Program Receipt := do
  refuse (request.root.readOnly = true) "read_only" "This root is read-only."
  refuseIf (env.fails .lock = true) .os
  let disk ← disk
  match disk.receipts.lookup request.operationId with
  | some previous => do
    refuse (previous.digest ≠ request.signature) "idempotency_conflict"
      "The operation identity is already in use."
    return previous
  | none => do
    refuse (env.full = true) "capacity" "The retained file operation limit was reached."
    refuseIf (env.fails .save = true) .os
    save request.operationId ⟨request.signature, .unknown, none⟩
    pursue env request

end Ficc.Files
