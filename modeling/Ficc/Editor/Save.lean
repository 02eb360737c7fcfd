import Ficc.Editor.Node

/-!
# Saving an edit

`commit` of `editor_save.py` journals the edit, writes the draft and the replacement into a new
stage directory, journals that the outcome is unknown, and exchanges the replacement with the file.
A request with an identity that is in the journal only inspects the outcome.

An error after the first record is handled: the record is marked as failed, unless the exchange may
have happened. The record that the handler sees is the one in memory, so the `try` block is taken
apart where the record changes.
-/

namespace Ficc.Editor

open Execution (Digest)
open Durable

structure SaveRequest where
  readOnly : Bool
  entry : FileIdentity
  expectedSha256 : Digest
  data : Bytes
deriving DecidableEq

def SaveRequest.signature (tools : Tools) (request : SaveRequest) : Signature :=
  ⟨request.readOnly, request.entry, request.expectedSha256, tools.sha256 request.data⟩

/-! ### Writing the copies -/

/-- A change of the stage directory. -/
def onStage (f : Stage → Stage) (disk : Disk) : Disk := { disk with stage := disk.stage.map f }

/-- The content of a copy. The replacement is a new file, with the owner of the edited one. -/
def putCopy (env : Environment) (record : Record) (mode : ℕ) (data : Bytes) :
    Copy → Stage → Stage
  | .draft, stage => { stage with draft := some data }
  | .replacement, stage => { stage with replacement := some {
      ino := record.entry.ino + 1 + env.inode
      data := data
      mtime := env.now
      ctime := env.now
      mode := mode
      uid := record.uid
      gid := record.gid
      editable := true } }

def interrupted : Error := fileError "interrupted" "File verification was interrupted."

/-- The loop of `write_file`. -/
def writeLoop (put : Bytes → Stage → Stage) (data : Bytes) : ℕ → List Write → Program Unit
  | offset, writes =>
    if data.length ≤ offset then pure () else
    match writes with
    | [] => checked (.error .os)
    | .cancelled :: _ => checked (.error interrupted)
    | .failed :: _ => checked (.error .os)
    | .crashed :: _ => check (.error .crashed)
    | .wrote count :: rest => do
      refuseIf (count = 0) (.raised .os)
      perform (onStage (put (data.take (offset + count))))
      writeLoop put data (offset + count) rest

/-- `write_file`. The file has mode `0600` until it is complete. -/
def writeFile (env : Environment) (record : Record) (copy : Copy) (mode : ℕ) (data : Bytes) :
    Program Unit := do
  env.point (.create copy)
  perform (onStage (putCopy env record 384 [] copy))
  writeLoop (fun data => putCopy env record 384 data copy) data 0 (env.writes copy)
  perform (onStage (putCopy env record mode data copy))
  env.pointRaising (.written copy) (fileError "editor_metadata"
    "The file owner, group or extended attributes cannot be preserved.")

/-! ### The steps of a save -/

def stale : Error :=
  fileError "stale_entry" "The selected entry changed. Refresh the directory."

/-- The file is the one that was selected. -/
def checkedAt (entry : FileIdentity) : Program Unit := do
  let disk ← disk
  refuseIf (disk.destination.identity ≠ entry) (.raised stale)

/-- The stage directory and the draft in it. -/
def stageDraft (env : Environment) (record : Record) (data : Bytes) : Program Unit := do
  env.point .parent
  checkedAt record.entry
  env.point .mkdir
  let disk ← disk
  refuseIf (disk.stage ≠ none) (.raised .os)
  perform fun disk => { disk with stage := some ⟨none, none⟩ }
  env.point .staged
  env.point .folder
  writeFile env record .draft 384 data

/-- The replacement, and a last look at the file. -/
def stageReplacement (tools : Tools) (env : Environment) (record : Record) (data : Bytes) :
    Program Unit := do
  writeFile env record .replacement record.mode data
  env.point .sync
  env.point .reread
  checkedAt record.entry
  let disk ← disk
  let prior ← checked (tools.readFile disk.destination)
  refuse (tools.sha256 prior ≠ record.expectedSha256) "editor_conflict"
    "The text changed. The submitted draft is retained."
  env.pointRaising .cancel interrupted

/-- `rename` with the flag that exchanges the two names. -/
def exchange (env : Environment) (disk : Disk) : Disk :=
  match disk.stage with
  | some stage =>
    match stage.replacement with
    | some new => { disk with
        destination := { new with ctime := env.now }
        stage := some { stage with replacement := some { disk.destination with ctime := env.now } }
        exchanges := disk.exchanges + 1 }
    | none => disk
  | none => disk

/-- The record before the exchange. -/
def Record.asUnknown (record : Record) (env : Environment) (data : Bytes) : Record :=
  { record with
    state := .unknown
    message := "The replacement outcome needs inspection. Keep both copies."
    publishedIdentity := some ⟨record.entry.ino + 1 + env.inode, data.length, env.now, env.now⟩ }

def publish (env : Environment) (record : Record) : Program Unit := do
  env.save 1 record
  env.point .rename
  perform (exchange env)
  env.point .exchanged

/-- What an error says about itself. -/
def messageOf : Error → String
  | .failure _ message _ => message
  | _ => "The file could not be saved. The draft is retained."

/-- A save that has not announced the exchange has failed. Without a stage nothing is retained. -/
def markFailed (env : Environment) (record : Record) (error : Error) : Program Record :=
  if record.state = .preparing then do
    env.point .recover
    let disk ← disk
    return { record with
      state := .failed
      message := messageOf error
      retained := record.retained && disk.stage.isSome }
  else pure record

/-- The handler of `commit`, with the record as it is in memory. -/
def handle (env : Environment) (record : Record) : Halt → Program Record
  | .crashed => check (.error .crashed)
  | .raised error => do
    let record ← markFailed env record error
    env.save 3 record
    return record

/-- The last part of the `try` block: the outcome is inspected and journaled. -/
def concludeSave (tools : Tools) (env : Environment) (record : Record) : Program Record := do
  let disk ← disk
  match inspection tools env disk record with
  | none => return record
  | some found => do
    match ← attempt (saveFound env record found) with
    | .ok _ => return found
    | .error halt => handle env found halt

/-- The `try` block from the exchange on. -/
def publishSave (tools : Tools) (env : Environment) (record : Record) : Program Record := do
  match ← attempt (publish env record) with
  | .ok _ => concludeSave tools env record
  | .error halt => handle env record halt

/-- The `try` block. -/
def attemptSave (tools : Tools) (env : Environment) (record : Record) (data : Bytes) :
    Program Record := do
  match ← attempt (do stageDraft env record data; stageReplacement tools env record data) with
  | .ok _ => publishSave tools env (record.asUnknown env data)
  | .error halt => handle env record halt

/-- The record of a new save. -/
def newRecord (tools : Tools) (request : SaveRequest) (file : File) : Record where
  digest := request.signature tools
  entry := request.entry
  mode := file.mode
  uid := file.uid
  gid := file.gid
  expectedSha256 := request.expectedSha256
  sha256 := tools.sha256 request.data
  state := .preparing
  retained := true
  resolved := false
  message := "The edit is being prepared."
  publishedIdentity := none
  reference := none

/-- What is checked of a new save before anything is written. -/
def checkSave (tools : Tools) (env : Environment) (request : SaveRequest) : Program File := do
  refuse (request.readOnly = true) "read_only" "This root is read-only."
  env.point .entry
  checkedAt request.entry
  let disk ← disk
  let original ← checked (tools.readFile disk.destination)
  refuse (disk.destination.editable = false) "editor_metadata"
    "Edit only owned files with one link, ordinary mode bits and no extended attributes."
  refuse (tools.sha256 original ≠ request.expectedSha256) "editor_conflict"
    "The text changed. Reload it or keep your draft."
  checked env.capacity
  return disk.destination

/-- A save with an identity that is not in the journal. -/
def saveNew (tools : Tools) (env : Environment) (request : SaveRequest) : Program Record := do
  let file ← checkSave tools env request
  let record := newRecord tools request file
  env.point (.journal 0 false)
  perform fun disk => { disk with record := some record, submitted := request.data }
  env.point (.journal 0 true)
  attemptSave tools env record request.data

def commit (tools : Tools) (env : Environment) (request : SaveRequest) : Program Record := do
  checked (tools.textBytes request.data)
  let disk ← disk
  match disk.record with
  | some previous => do
    refuse (previous.digest ≠ request.signature tools) "idempotency_conflict"
      "The edit identity belongs to another request."
    inspectResult tools env previous
  | none => saveNew tools env request

/-! ### Requests -/

inductive Request
  | save (request : SaveRequest)
  | status
  | recovery (copy : Copy)
  | cleanup (readOnly confirm recovered : Bool)
deriving DecidableEq

def journaled : Program Record := do
  let disk ← disk
  demand disk.record (.raised (fileError "editor_missing" "The edit receipt is not available."))

/-- The reply of the node. A recovery replies with text and not with a receipt. -/
def dispatch (tools : Tools) (env : Environment) : Request → Program (Option Receipt)
  | .save request => do
    let record ← commit tools env request
    return some record.receipt
  | .status => do
    let record ← journaled
    let record ← inspectResult tools env record
    return some record.receipt
  | .recovery copy => do
    let record ← journaled
    let _ ← recovery tools env record copy
    return none
  | .cleanup readOnly confirm recovered => do
    let record ← journaled
    let record ← cleanup tools env record readOnly confirm recovered
    return some record.receipt

end Ficc.Editor
