import Ficc.Execution.Spec
import Ficc.Foundations.Durable

/-!
# Retained copies of an edited file

`editor.py` keeps two copies of an edit beside the file, in a stage directory: the submitted draft,
and the replacement, which is exchanged with the file when the edit is published. A record in the
journal says how far the edit has come. What became of an edit that was interrupted is found out by
`inspect_result`, from the files that are there.

The model is of one operation on one file: the file, the stage directory of the operation and its
record. No one else writes the file. The directories above it stay where they are.

A request can fail or stop at every system call. `Point` names the calls, and `Environment` says
what happens at each: nothing, an error, or the end of the process. The record is replaced
atomically, so there is a point before the replacement and one after it.
-/

namespace Ficc.Editor

open Execution (Digest)
open Durable

abbrev Bytes : Type := List UInt8

def MAX_TEXT : ℕ := 262144

/-- The hash, and which bytes are UTF-8. -/
structure Tools where
  sha256 : Bytes → Digest
  utf8 : Bytes → Bool

/-! ### Files -/

/-- The identity of a regular file. -/
structure FileIdentity where
  ino : ℕ
  size : ℕ
  mtime : ℕ
  ctime : ℕ
deriving DecidableEq

structure File where
  ino : ℕ
  data : Bytes
  mtime : ℕ
  ctime : ℕ
  mode : ℕ
  uid : ℕ
  gid : ℕ
  /-- The file is owned by the account, with one link, ordinary mode bits and no attributes. -/
  editable : Bool
deriving DecidableEq

def File.identity (file : File) : FileIdentity := ⟨file.ino, file.data.length, file.mtime, file.ctime⟩

/-- The stage directory. -/
structure Stage where
  draft : Option Bytes
  replacement : Option File
deriving DecidableEq

/-! ### Records -/

inductive SaveState
  | preparing | unknown | succeeded | failed | conflict
deriving DecidableEq

/-- What the digest of a request is computed from. -/
structure Signature where
  readOnly : Bool
  entry : FileIdentity
  expectedSha256 : Digest
  sha256 : Digest
deriving DecidableEq

structure Record where
  digest : Signature
  entry : FileIdentity
  mode : ℕ
  uid : ℕ
  gid : ℕ
  expectedSha256 : Digest
  sha256 : Digest
  state : SaveState
  retained : Bool
  resolved : Bool
  message : String
  publishedIdentity : Option FileIdentity
  reference : Option FileIdentity
deriving DecidableEq

/-- The reply to a request. -/
structure Receipt where
  state : SaveState
  retained : Bool
  resolved : Bool
  message : String
  sha256 : Digest
  reference : Option FileIdentity
deriving DecidableEq

def Record.receipt (record : Record) : Receipt :=
  ⟨record.state, record.retained, record.resolved, record.message, record.sha256, record.reference⟩

/-- The file, the stage and the journal. The last two fields are not on the disk: what the first
request of the operation has submitted, and how often files were exchanged. -/
structure Disk where
  destination : File
  stage : Option Stage
  record : Option Record
  submitted : Bytes
  exchanges : ℕ
deriving DecidableEq

/-! ### Interruptions -/

inductive Copy
  | draft | replacement
deriving DecidableEq

/-- The system calls at which a request can be interrupted. -/
inductive Point
  | entry
  /-- The record is replaced, for the given time in this request. -/
  | journal (save : ℕ) (written : Bool)
  | parent | mkdir | staged | folder
  | create (copy : Copy) | written (copy : Copy)
  | sync | reread | cancel | rename | exchanged
  /-- The stage is opened to see whether there is one. -/
  | recover
  | listed | unlinked (copy : Copy) | rmdir | removed
deriving DecidableEq

inductive Fault
  | fails | crashes
deriving DecidableEq

/-- What a call of `os.write` does. -/
inductive Write
  | wrote (count : ℕ)
  | cancelled
  | failed
  | crashed
deriving DecidableEq

structure Environment where
  fault : Point → Option Fault
  writes : Copy → List Write
  /-- Files cannot be opened or read while the outcome is inspected. -/
  unreadable : Bool
  /-- Whether other retained edits leave room for this one. -/
  capacity : Except Error Unit
  now : ℕ
  /-- By how much the number of a new file exceeds that of the edited one. -/
  inode : ℕ
  /-- Which copy a directory listing names first. -/
  first : Copy

/-- Why a program did not return. -/
inductive Halt
  | raised (error : Error)
  | crashed
deriving DecidableEq

abbrev Program (α : Type) : Type := Durable Disk Halt α

def fileError (code message : String) : Error := .failure code message 409

/-- A check of something that was read. -/
def checked {α : Type} (x : Except Error α) : Program α := check (x.mapError Halt.raised)

def refuse (condition : Prop) [Decidable condition] (code message : String) : Program Unit :=
  refuseIf condition (.raised (fileError code message))

namespace Environment

variable (env : Environment)

/-- A system call that can be interrupted, with the error that it raises. -/
def pointRaising (point : Point) (error : Error) : Program Unit :=
  match env.fault point with
  | none => pure ()
  | some .fails => check (.error (.raised error))
  | some .crashes => check (.error .crashed)

def point (point : Point) : Program Unit := env.pointRaising point .os

/-- `save` of `file_state`. -/
def save (number : ℕ) (record : Record) : Program Unit := do
  env.point (.journal number false)
  perform fun disk => { disk with record := some record }
  env.point (.journal number true)

end Environment

/-! ### Reading -/

namespace Tools

variable (tools : Tools)

def textBytes (data : Bytes) : Except Error Unit := do
  raiseIf (MAX_TEXT < data.length ∨ 0 ∈ data) (fileError "editor_text"
    "Select UTF-8 text no larger than 256 KiB, without NUL bytes.")
  raiseIf (tools.utf8 data = false) (fileError "editor_text" "The file is not UTF-8 text.")

/-- `read_fd` -/
def readFile (file : File) : Except Error Bytes := do
  raiseIf (MAX_TEXT < file.data.length) (fileError "editor_type"
    "Select a regular text file no larger than 256 KiB.")
  tools.textBytes file.data
  return file.data

/-- `original_matches`, which reads the file first. -/
def originalMatches (file : File) (record : Record) : Option Bool := do
  let data ← (tools.readFile file).toOption
  return decide (file.ino = record.entry.ino ∧ data.length = record.entry.size ∧
    file.mtime = record.entry.mtime ∧ tools.sha256 data = record.expectedSha256 ∧
    file.mode = record.mode ∧ file.editable = true ∧ file.uid = record.uid ∧ file.gid = record.gid)

/-! ### Inspection -/

/-- The file and a copy of the new text: the identity of a file that was published. -/
def isPublished (file : File) (data : Bytes) (record : Record) (published : FileIdentity) : Prop :=
  file.ino = published.ino ∧ tools.sha256 data = record.sha256

instance (file : File) (data : Bytes) (record : Record) (published : FileIdentity) :
    Decidable (tools.isPublished file data record published) :=
  inferInstanceAs (Decidable (_ ∧ _))

/-- What the files say about an unknown outcome. Without a value nothing is found out. -/
def inspected (disk : Disk) (record : Record) (published : FileIdentity) : Option Record := do
  let stage ← disk.stage
  let old ← stage.replacement
  let data ← (tools.readFile disk.destination).toOption
  if tools.isPublished disk.destination data record published then
    let matched ← tools.originalMatches old record
    return if matched then { record with
        state := .succeeded
        message := "Saved. The prior file and submitted text are retained."
        reference := some disk.destination.identity }
      else { record with
        state := .conflict
        message := "The replacement was published, but another edit was retained. " ++
          "Recover both copies." }
  else
    let replacement ← (tools.readFile old).toOption
    if tools.isPublished old replacement record published then
      let matched ← tools.originalMatches disk.destination record
      if matched then
        return { record with
          state := .failed
          message := "Publication did not complete. The submitted draft is retained." }
      else none
    else none

end Tools

/-- The record of a save that has stopped before publication. -/
def stopped (env : Environment) (disk : Disk) (record : Record) : Record :=
  -- Only when the parent can be opened does a missing stage count.
  if env.unreadable = false ∧ disk.stage = none then { record with
    state := .failed
    retained := false
    message := "The save stopped before creating recovery files." }
  else { record with
    state := .failed
    message := "The save stopped before publication. Recover the retained draft." }

/-- The record that an inspection leads to, when it is another one. -/
def inspection (tools : Tools) (env : Environment) (disk : Disk) (record : Record) :
    Option Record :=
  match record.state, record.publishedIdentity with
  | .preparing, _ => some (stopped env disk record)
  | .unknown, some published =>
    if env.unreadable then none else tools.inspected disk record published
  | _, _ => none

/-- Errors are passed over. -/
def passOver (p : Program Unit) : Program Unit := do
  match ← attempt p with
  | .error .crashed => check (.error .crashed)
  | _ => pure ()

/-- The last step of an inspection that has found something out. -/
def saveFound (env : Environment) (record found : Record) : Program Unit :=
  -- A publication that did not complete is saved in the block whose errors are passed over.
  if record.state = .unknown ∧ found.state = .failed then passOver (env.save 2 found)
  else env.save 2 found

/-- `inspect_result` -/
def inspectResult (tools : Tools) (env : Environment) (record : Record) : Program Record := do
  let disk ← disk
  match inspection tools env disk record with
  | none => return record
  | some found => do
    saveFound env record found
    return found

/-! ### Recovery and cleanup -/

/-- The copy that a recovery reads. -/
def recovery (tools : Tools) (env : Environment) (record : Record) (copy : Copy) : Program Bytes := do
  refuse (record.retained = false) "editor_recovery" "The retained copy is not available."
  refuse (copy = .replacement ∧ record.state ≠ .succeeded ∧ record.state ≠ .conflict)
    "editor_unknown" "The save outcome is not resolved. Keep all recovery files."
  env.point .folder
  let disk ← disk
  let stage ← demand disk.stage (.raised .os)
  let data ← match copy with
    | .draft => demand stage.draft (.raised .os)
    | .replacement => demand (stage.replacement.map File.data) (.raised .os)
  checked (tools.textBytes data)
  return data

def unlink (copy : Copy) (stage : Stage) : Stage :=
  match copy with
  | .draft => { stage with draft := none }
  | .replacement => { stage with replacement := none }

/-- The two copies, in the order of the listing. -/
def Copy.both : Copy → List Copy
  | .draft => [.draft, .replacement]
  | .replacement => [.replacement, .draft]

/-- The removal of a stage that is there. -/
def removeStage (env : Environment) (record : Record) : Program Record := do
  env.point .listed
  let record := { record with resolved := true }
  env.save 2 record
  each env.first.both fun copy => do
    perform fun disk => { disk with stage := disk.stage.map (unlink copy) }
    env.point (.unlinked copy)
  env.point .rmdir
  perform fun disk => { disk with stage := none }
  env.point .removed
  let record := { record with retained := false }
  env.save 3 record
  return record

/-- The removal of a stage that is gone. -/
def removedStage (env : Environment) (record : Record) : Program Record := do
  refuseIf (record.resolved = false) (.raised .os)
  env.point .parent
  let record := { record with retained := false }
  env.save 3 record
  return record

/-- Both copies of a conflict have to be readable before the recovery is confirmed. -/
def confirmRecovery (tools : Tools) (env : Environment) (record : Record) (recovered : Bool) :
    Program Record := do
  refuse (recovered = false) "editor_conflict" "Recover both copies and confirm recovery first."
  let _ ← recovery tools env record .replacement
  let _ ← recovery tools env record .draft
  let record := { record with resolved := true }
  env.save 1 record
  return record

def cleanup (tools : Tools) (env : Environment) (record : Record) (readOnly confirm recovered : Bool) :
    Program Record := do
  refuse (confirm = false) "confirmation_required" "Confirm removal of the retained copies."
  refuse (readOnly = true) "read_only" "This root is read-only."
  refuse (record.state = .unknown ∨ record.state = .preparing) "editor_unknown"
    "Resolve the save outcome before removing retained copies."
  let record ← if record.state = .conflict ∧ record.resolved = false then
      confirmRecovery tools env record recovered
    else pure record
  if record.retained = false then return record
  env.point .folder
  let disk ← disk
  if disk.stage = none then removedStage env record else removeStage env record

end Ficc.Editor
