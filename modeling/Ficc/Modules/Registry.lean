import Ficc.Foundations.Durable
import Ficc.Foundations.Table
import Ficc.Foundations.Transition
import Ficc.Modules.Archive

/-!
# The module registry

The registry keeps a row for each installed package, the rows of the grants, and the published
files. The changes of the database in one operation are committed together at its end, while the
files change one by one before that. Leases are counted in memory. An operation can be stopped
after any of its durable steps, by the end of the controller or by an error of the operating system
or of the database. Opening the registry removes what is left of the stages, and raises when the
module storage has too many entries.

`require_runtime` asks the platform, so its answer is an input. The grouping of the grants in the
answers is left out. So are the limits of one cleanup on its time and on the members that it visits:
a start that reaches one of them raises, as after any other stop, and the next start goes on with
what is left of the stages.
-/

namespace Ficc.Modules

open Execution (Digest)
open Durable (perform disk check refuseIf demand each cut)

def MAX_PACKAGES : ℕ := 64
def MAX_STORAGE : ℕ := 128 * 1024 * 1024
def MAX_GRANTS : ℕ := 16384
def MAX_HISTORY : ℕ := 1024

/-- The entries of the module storage with which the registry can be opened. -/
def MAX_ENTRIES : ℕ := 128

/-- The permissions that are implemented. -/
def SUPPORTED : List String :=
  ["workspace:read", "workspace:write", "audio:playback", "files:read", "files:write",
    "system:read", "vm:read", "vm:power", "vm:console", "provider:admin", "container:read",
    "container:logs", "container:power", "admin:read", "admin:logs", "admin:services",
    "admin:power"]

/-- A row of `module_packages`. -/
structure Package where
  packageId : String
  version : String
  manifest : Bytes
  installed : ℚ
  enabled : Bool
  revision : ℕ
deriving DecidableEq

/-- A row of `module_grants`. -/
structure Grant where
  digest : Digest
  capability : String
  targetId : String
deriving DecidableEq

inductive HistoryAction
  | install | enable | disable | uninstall
deriving DecidableEq

/-- A row of `module_history`. -/
structure History where
  packageId : String
  previousDigest : Option Digest
  newDigest : Option Digest
  action : HistoryAction
  time : ℚ
deriving DecidableEq

structure Database where
  packages : Table Digest Package
  grants : List Grant
  /-- The last row comes first. -/
  history : List History
deriving DecidableEq

/-- The registry with its database, the leases in its memory and the module storage. -/
structure Registry where
  db : Database
  leases : Table Digest ℕ
  directories : Table Digest Directory
  stages : List Directory
  /-- The controller has started, and the registry is open. -/
  opened : Bool
deriving DecidableEq

/-- An entry of the module storage. -/
inductive Entry
  | package (digest : Digest)
  | stage (directory : Directory)
deriving DecidableEq

/-- What `get` returns. -/
structure View where
  digest : Digest
  manifest : Manifest
  enabled : Bool
  revision : ℕ
  installedAt : ℚ
  grants : List Grant
deriving DecidableEq

/-- A grant as it is requested. -/
structure Selection where
  capability : String
  targetIds : List String
deriving DecidableEq

/-! ### Validation of grants -/

def UNSAFE : List String := ["__proto__", "prototype", "constructor"]

/-- The text is short enough for a target and not empty. -/
def boundedText (value : String) : Except Error Unit := do
  raiseIf (128 < value.length ∨ value.toList.contains '\x00')
    (invalid "The module text is invalid or too long.")
  raiseIf (value = "") (invalid "The module list contains an empty value.")

def reference (value : String) : Except Error Unit :=
  raiseIf (value ∈ UNSAFE ∨ value.toList.any fun c => c = '/' ∨ c = '\\' ∨ c = ':')
    (invalid "The component reference must be an opaque identifier.")

/-- A list of targets. -/
def targets (value : List String) : Except Error Unit := do
  raiseIf (64 < value.length) (invalid "The module list exceeds the limit.")
  value.forM boundedText
  raiseIf (¬value.Nodup) (invalid "The module list contains duplicate values.")
  raiseIf (value = []) (invalid "Select at least one module target.")
  value.forM reference

/-- The loop of `validateGrants`, after the given names. -/
def validateEach (declared : List String) : List String → List Selection → Except Error (List String)
  | names, [] => .ok names
  | names, grant :: rest => do
    raiseIf (grant.capability ∉ declared ∨ grant.capability ∈ names)
      (invalid "The module grant is repeated or undeclared.")
    targets grant.targetIds
    validateEach declared (grant.capability :: names) rest

def validateGrants (value : Option (List Selection)) (declared optional : List String) :
    Except Error (List Selection) := do
  raiseIf (¬optional ⊆ declared) (invalid "An optional grant must be declared by the package.")
  let grants ← orRaise value (invalid "Supply an explicit module grant list.")
  raiseIf (32 < grants.length) (invalid "Supply an explicit module grant list.")
  let names ← validateEach declared [] grants
  raiseIf (declared.any fun name => name ∉ optional ∧ name ∉ names)
    (invalid "Every requested capability requires an explicit target grant.")
  pure grants

/-- The permissions that a package cannot do without. -/
def requiredCapabilities (manifest : Manifest) : List String :=
  manifest.capabilities.filter fun value => value ∉ manifest.optionalCapabilities

/-! ### The database -/

namespace Database

def missing : Error := .failure "module_missing" "The module package was not found." 404

def capacity (message : String) : Error := .failure "capacity" message 409

def row (db : Database) (digest : Digest) : Except Error Package :=
  orRaise (db.packages.lookup digest) missing

/-- The grants of one package. -/
def grantsOf (db : Database) (digest : Digest) : List Grant :=
  db.grants.filter fun grant => grant.digest = digest

def get [Format] (db : Database) (digest : Digest) : Except Error View := do
  let row ← db.row digest
  let manifest ← orRaise (Format.manifest row.manifest) (invalid "The module JSON is invalid.")
  pure ⟨digest, manifest, row.enabled, row.revision, row.installed, db.grantsOf digest⟩

def addHistory (db : Database) (entry : History) : Database :=
  { db with history := (entry :: db.history).take MAX_HISTORY }

/-- `_disable` -/
def disable (db : Database) (digest : Digest) : Database :=
  { db with
    grants := db.grants.filter fun grant => grant.digest ≠ digest
    packages := db.packages.modify digest fun row =>
      { row with enabled := false, revision := row.revision + 1 } }

/-- The other versions of the package that are enabled. -/
def others (db : Database) (packageId : String) (digest : Digest) : List Digest :=
  (db.packages.rows.filter fun row =>
    row.2.packageId = packageId ∧ row.2.enabled ∧ row.1 ≠ digest).map Prod.fst

/-- The rows of the requested grants. -/
def rowsOf (digest : Digest) (accepted : List Selection) : List Grant :=
  accepted.flatMap fun grant => grant.targetIds.map fun target => ⟨digest, grant.capability, target⟩

/-- `UPDATE module_packages SET enabled=1` -/
def markEnabled (db : Database) (digest : Digest) : Database :=
  { db with packages := db.packages.modify digest fun row => { row with enabled := true } }

/-- Inserts rows with a primary key. -/
def insertGrants (db : Database) (rows : List Grant) : Except Error Database := do
  raiseIf (¬(db.grants ++ rows).Nodup) .integrity
  pure { db with grants := db.grants ++ rows }

/-- The part of `set_enabled` that gives the grants. -/
def grant (db : Database) (digest : Digest) (accepted : List Selection) :
    Except Error Database := do
  raiseIf (MAX_GRANTS < db.grants.length +
      (accepted.map fun selection => selection.targetIds.length).sum)
    (capacity "The module grant limit was reached.")
  (db.markEnabled digest).insertGrants (rowsOf digest accepted)

/-- The row of a new package. -/
def install (db : Database) (now : ℚ) (checked : Inspection) : Database :=
  addHistory
    { db with
      packages := db.packages.insert checked.digest
        ⟨checked.manifest.id, checked.manifest.version, checked.manifestBytes, now, false, 1⟩ }
    ⟨checked.manifest.id, none, some checked.digest, .install, now⟩

def uninstall (db : Database) (now : ℚ) (packageId : String) (digest : Digest) : Database :=
  addHistory { db with packages := db.packages.erase digest }
    ⟨packageId, some digest, none, .uninstall, now⟩

end Database

/-! ### The operations -/

/-- An operation of the registry. -/
abbrev Operation (α : Type) : Type := Durable Registry Error α

namespace Registry

variable [Format]

/-- Commits a transaction. -/
def commit (db : Database) : Operation Unit := perform fun s => { s with db := db }

/-- Verifies the files of an installed package. -/
def verify (s : Registry) (digest : Digest) : Except Error Unit := do
  let row ← s.db.row digest
  let manifest ← orRaise (Format.manifest row.manifest) (invalid "The module JSON is invalid.")
  Modules.verify (s.directories.lookup digest) manifest row.manifest

omit [Format] in
/-- The bytes of all files in the module storage. -/
def storageBytes (s : Registry) : Except Error ℕ := do
  let found := s.directories.values ++ s.stages
  raiseIf (16640 < (found.map Directory.count).sum)
    (invalid "The module storage contains invalid files.")
  raiseIf (MAX_STORAGE < (found.map Directory.bytes).sum)
    (Database.capacity "The module storage limit was reached.")
  pure (found.map Directory.bytes).sum

/-- A change of the stage that was created last. -/
def onStage (action : StageAction) (s : Registry) : Registry :=
  match s.stages with
  | [] => s
  | stage :: rest => { s with stages := action.apply stage :: rest }

/-- Moves the stage to its destination. -/
def renameStage (digest : Digest) (s : Registry) : Registry :=
  match s.stages with
  | [] => s
  | stage :: rest => { s with directories := s.directories.insert digest stage, stages := rest }

/-- Publishes the files of a package. Files that are there already are verified. -/
def publish (checked : Inspection) : Operation Unit := do
  let s ← disk
  if (s.directories.lookup checked.digest).isSome then
    check (Modules.verify (s.directories.lookup checked.digest) checked.manifest
      checked.manifestBytes)
  else
    perform fun s => { s with stages := ⟨writable, []⟩ :: s.stages }
    each checked.stageActions fun action => perform (onStage action)
    perform (renameStage checked.digest)

/-- The part of `install` for a package that is not in the database. -/
def installNew (now : ℚ) (checked : Inspection) : Operation View := do
  let s ← disk
  refuseIf (MAX_PACKAGES ≤ s.db.packages.entries.length)
    (Database.capacity "The installed module limit was reached.")
  let used ← check s.storageBytes
  refuseIf (MAX_STORAGE < used + checked.expandedBytes)
    (Database.capacity "The module storage limit was reached.")
  publish checked
  let view ← check ((s.db.install now checked).get checked.digest)
  commit (s.db.install now checked)
  pure view

def install (now : ℚ) (archive : Bytes) (expectedDigest : Digest) : Operation View := do
  let checked ← check (inspectArchive archive)
  refuseIf (checked.digest ≠ expectedDigest)
    (.failure "module_changed" "The package differs from the inspected digest." 409)
  let s ← disk
  if (s.db.packages.lookup checked.digest).isSome then
    check (s.verify checked.digest)
    check (s.db.get checked.digest)
  else installNew now checked

/-- What `set_enabled` checks before it changes anything, and the grants that it accepts. -/
def accept (s : Registry) (digest : Digest) (manifest : Manifest) (enabled : Bool)
    (grants : Option (List Selection)) (sandboxReady : Bool) (runtime : Except Error Unit) :
    Except Error (List Selection) :=
  if enabled then do
    s.verify digest
    runtime
    raiseIf (¬requiredCapabilities manifest ⊆ SUPPORTED)
      (.failure "module_capability_unavailable"
        "This package requires a capability that is not available." 409)
    raiseIf (manifest.kind ≠ .declarative ∧ sandboxReady = false)
      (.failure "module_sandbox_unavailable"
        "Executable modules require a successful sandbox check." 503)
    let accepted ← validateGrants grants manifest.capabilities manifest.optionalCapabilities
    raiseIf (accepted.any fun grant => grant.capability ∉ SUPPORTED)
      (.failure "module_capability_unavailable" "A selected module permission is not available."
        409)
    pure accepted
  else .ok []

/-- The database after `set_enabled`. -/
def enabling (s : Registry) (now : ℚ) (digest : Digest) (enabled : Bool)
    (grants : Option (List Selection)) (sandboxReady : Bool) (runtime : Except Error Unit) :
    Except Error Database := do
  let current ← s.db.get digest
  let accepted ← s.accept digest current.manifest enabled grants sandboxReady runtime
  if enabled then
    let others := s.db.others current.manifest.id digest
    let db ← ((others.foldl Database.disable s.db).disable digest).grant digest accepted
    let previous := others.getLast?.getD digest
    pure (db.addHistory ⟨current.manifest.id, some previous, some digest, .enable, now⟩)
  else
    let db := s.db.disable digest
    pure (db.addHistory ⟨current.manifest.id, some digest, some digest, .disable, now⟩)

def setEnabled (now : ℚ) (digest : Digest) (enabled : Bool) (grants : Option (List Selection))
    (sandboxReady : Bool) (runtime : Except Error Unit) : Operation View := do
  let s ← disk
  let db ← check (s.enabling now digest enabled grants sandboxReady runtime)
  let view ← check (db.get digest)
  commit db
  pure view

def revoke (now : ℚ) (digest : Digest) : Operation View :=
  setEnabled now digest false none false (.ok ())

def acquire (digest : Digest) : Operation View := do
  let s ← disk
  let current ← check (s.db.get digest)
  refuseIf (current.enabled = false) (.failure "module_disabled" "The module is disabled." 403)
  check (s.verify digest)
  perform fun s =>
    { s with leases := s.leases.insert digest ((s.leases.lookup digest).getD 0 + 1) }
  pure current

omit [Format] in
def release (digest : Digest) : Operation Unit :=
  perform fun s =>
    let count := (s.leases.lookup digest).getD 0
    if count ≤ 1 then { s with leases := s.leases.erase digest }
    else { s with leases := s.leases.insert digest (count - 1) }

omit [Format] in
/-- The grant has not changed since the revision. -/
def checkRevision (s : Registry) (digest : Digest) (revision : ℕ) : Except Error Unit := do
  let row ← s.db.row digest
  raiseIf (row.enabled = false ∨ row.revision ≠ revision)
    (.failure "module_revoked" "The module grant changed during the operation." 403)

/-- A change of the files of a package. -/
def onDirectory (digest : Digest) (change : Directory → Directory) (s : Registry) : Registry :=
  { s with directories := s.directories.modify digest change }

/-- Makes a directory writable when it is the given one. -/
def openMember (path : Path) : Member → Member
  | .directory found mode => .directory found (if found = path then writable else mode)
  | .file found content mode => .file found content mode

/-- The changes of the files by which a package is removed, but for the last. -/
def removals (directory : Directory) : List (Directory → Directory) :=
  (fun directory => { directory with mode := writable }) ::
    ((directory.members.filter Member.isDirectory).map fun member directory =>
      { directory with members := directory.members.map (openMember member.path) }) ++
    (directory.members.reverse.map fun member directory =>
      { directory with members := directory.members.erase member })

/-- Makes the directories writable and removes the files. -/
def removeFiles (digest : Digest) : Operation Unit := do
  let s ← disk
  let directory ← demand (s.directories.lookup digest) .os
  each (removals directory) fun change => perform (onDirectory digest change)
  perform fun s => { s with directories := s.directories.erase digest }

/-- Revokes first. A package with a lease is not removed. -/
def uninstall (now : ℚ) (digest : Digest) : Operation Unit := do
  let _ ← revoke now digest
  let s ← disk
  refuseIf (0 < (s.leases.lookup digest).getD 0)
    (.failure "module_busy" "Stop active module operations before removal." 409)
  let current ← check (s.db.get digest)
  check (s.verify digest)
  removeFiles digest
  commit (s.db.uninstall now current.manifest.id digest)

omit [Format] in
/-- The entries of the module storage, the packages first. -/
def entries (s : Registry) : List Entry :=
  s.directories.keys.map .package ++ s.stages.map .stage

omit [Format] in
/-- The entries as they are found. The file system may give them in any order. -/
def found (s : Registry) (order : List Entry) : List Entry :=
  if order.Perm s.entries then order else s.entries

omit [Format] in
/-- Removes the stages that are found after `index` entries. -/
def recoverStages : ℕ → List Entry → Operation Unit
  | _, [] => pure ()
  | index, entry :: rest => do
    refuseIf (MAX_ENTRIES ≤ index) (invalid "The module storage entry count exceeds its limit.")
    match entry with
    | .package _ => recoverStages (index + 1) rest
    | .stage directory => do
      perform fun s => { s with stages := s.stages.erase directory }
      recoverStages (index + 1) rest

omit [Format] in
/-- The controller has ended. -/
def closed (s : Registry) : Registry := { s with leases := ∅, opened := false }

omit [Format] in
/-- The controller starts and opens the registry. -/
def reopen (order : List Entry) : Operation Unit := do
  perform closed
  let s ← disk
  recoverStages 0 (s.found order)
  perform fun s => { s with opened := true }

end Registry

/-! ### Runs -/

/-- What is asked of the registry. -/
inductive Event
  | install (now : ℚ) (archive : Bytes) (expectedDigest : Digest)
  | setEnabled (now : ℚ) (digest : Digest) (enabled : Bool) (grants : Option (List Selection))
      (sandboxReady : Bool) (runtime : Except Error Unit)
  | revoke (now : ℚ) (digest : Digest)
  | acquire (digest : Digest)
  | release (digest : Digest)
  | uninstall (now : ℚ) (digest : Digest)
  /-- The controller starts again. The entries of the module storage are found in an order. -/
  | reopen (order : List Entry)

/-- How an operation is stopped. -/
inductive Interruption
  /-- The controller ends. -/
  | crash
  /-- An error. The handler of `publish` removes the stage, unless that fails as well. -/
  | failure (cleaned : Bool)
deriving DecidableEq

/-- What is asked, and the number of durable steps after which it is stopped. -/
structure Step where
  event : Event
  stopped : Option (ℕ × Interruption)

namespace Registry

variable [Format]

/-- The operation of an event. -/
def operate : Event → Operation Unit
  | .install now archive expectedDigest => discard (install now archive expectedDigest)
  | .setEnabled now digest enabled grants sandboxReady runtime =>
    discard (setEnabled now digest enabled grants sandboxReady runtime)
  | .revoke now digest => discard (revoke now digest)
  | .acquire digest => discard (acquire digest)
  | .release digest => release digest
  | .uninstall now digest => uninstall now digest
  | .reopen order => reopen order

omit [Format] in
/-- What an operation that was stopped in `next` leaves behind. -/
def leave (s next : Registry) : Interruption → Registry
  | .crash => next.closed
  -- An opening that is stopped has no handler, and its stages do not come back.
  | .failure cleaned => if cleaned ∧ next.opened then { next with stages := s.stages } else next

omit [Format] in
/-- Only a registry that is open is asked for anything, but for being opened. -/
def allows (s : Registry) : Event → Bool
  | .reopen _ => true
  | _ => s.opened

def step (s : Registry) (step : Step) : Registry :=
  if s.allows step.event then
    let next := cut (operate step.event) s (step.stopped.map Prod.fst)
    match step.stopped with
    | none => next
    | some (_, interruption) => s.leave next interruption
  else s

omit [Format] in
/-- The registry at the first start. -/
def initial : Registry := ⟨⟨∅, [], []⟩, ∅, ∅, [], true⟩

end Registry

end Ficc.Modules
