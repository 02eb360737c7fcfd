import Ficc.Foundations.Durable
import Ficc.Foundations.Table
import Ficc.Foundations.Transition
import Ficc.Execution.Spec

/-!
# Provider uploads

An upload is a record that binds one file of a dataset to an object of a provider. Every operation
on it is a run: `admit` inserts the record of the run and starts a task, the task asks the provider
and writes the outcome into both records at its end. Tasks live in the memory of the controller, so
a restart loses them, and `recover` then closes the runs that were not over.

The event loop lets a task go on only where it waits, so the events below are the stretches of code
between two waits. A controller that stops in the middle of one is down until it is restarted.
Authority, connections, datasets, the packet for the worker and the audit are inputs: they decide
whether an operation goes on, and change no record of an upload.
-/

namespace Ficc.Sources

open Execution (Identity Digest Hash)
open Durable

/-- The owner of a record. -/
structure Owner where
  subjectId : Identity
  projectId : Identity
deriving DecidableEq

/-- What is asked of the provider. -/
inductive Operation
  | begin | status | part | complete | abort | reconcile
deriving DecidableEq

inductive UploadState
  | creating | uploading | unknown | completed | aborted
deriving DecidableEq

/-- The upload has a terminal receipt. -/
def UploadState.Finished (state : UploadState) : Prop := state = .completed ∨ state = .aborted

instance : DecidablePred UploadState.Finished := fun _ => inferInstanceAs (Decidable (_ ∨ _))

/-- What the provider returns at the end of an operation. -/
inductive Receipt
  | created (uploadId : String) (partBytes parts : ℕ)
  | completed
  | aborted
  | unknown
  | uploading
  | partUploaded (partNumber : ℕ)
deriving DecidableEq

/-- The fields of an upload that the operations read or write. -/
structure Upload where
  id : Identity
  owner : Owner
  connectionId : Identity
  datasetId : Identity
  key : String
  fileIndex : ℕ
  state : UploadState
  providerUploadId : Option String
  partBytes : Option ℕ
  parts : Option ℕ
  lastRunId : Option Identity
  receipt : Option Receipt
deriving DecidableEq

inductive RunState
  | queued | running | committing | completed | failed | cancelled | unknown
deriving DecidableEq

def TERMINAL : List RunState := [.completed, .failed, .cancelled, .unknown]

/-- The record of a run. -/
structure Run where
  id : Identity
  owner : Owner
  uploadId : Identity
  operation : Operation
  state : RunState
  receipt : Option Receipt
  error : Option (String × String)
deriving DecidableEq

/-- A row, with the key of the request and the digest of its parameters. -/
structure Row (α : Type) where
  owner : Owner
  key : String
  digest : Digest
  value : α

/-- The body of `begin`. -/
structure CreateUpload where
  key : String
  datasetId : Identity
  fileIndex : ℕ

/-- The body of an operation. The operation `begin` is only sent by `begin`. -/
structure Body where
  operation : Operation
  partNumber : Option ℕ
  cursor : ℕ

/-- Where a task is. -/
inductive Phase
  /-- It has not run its first instruction. -/
  | created
  | started
  /-- The request has been sent to the provider. -/
  | sent
deriving DecidableEq

/-- A task, with the records that it holds in memory. -/
structure Task where
  value : Run
  upload : Upload
  body : Body
  phase : Phase

/-- A request that was sent to the provider. -/
structure Sent where
  uploadId : Identity
  operation : Operation
  /-- The state of the upload in the database at that time. No operation reads it. -/
  recorded : Option UploadState
deriving DecidableEq

/-- The records, the tasks in memory and the requests that the provider got. -/
structure Store where
  uploads : Table Identity (Row Upload)
  runs : Table Identity (Row Run)
  tasks : Table Identity Task
  /-- The controller is running. -/
  up : Bool
  sent : List Sent

abbrev Action (α : Type) : Type := Durable Store Error α

namespace Store

/-- Inserts a row with its two unique keys. -/
def insertRow {α : Type} (table : Table Identity (Row α)) (id : Identity) (row : Row α) :
    Except Error (Table Identity (Row α)) := do
  raiseIf ((table.lookup id).isSome = true) .integrity
  raiseIf (table.values.any fun other => other.owner = row.owner ∧ other.key = row.key) .integrity
  pure (table.insert id row)

/-- The row of an earlier request with the same key. -/
def existing {α : Type} (table : Table Identity (Row α)) (owner : Owner) (key : String)
    (digest : Digest) : Except Error (Option (Row α)) :=
  match table.values.find? fun row => row.owner = owner ∧ row.key = key with
  | none => .ok none
  | some row => do
    raiseIf (row.digest ≠ digest) (.failure "idempotency_conflict"
      "This key belongs to another source request." 409)
    pure (some row)

/-- Writes the value of a row. -/
def saveUpload (upload : Upload) (s : Store) : Store :=
  { s with uploads := s.uploads.modify upload.id fun row => { row with value := upload } }

@[inherit_doc saveUpload]
def saveRun (value : Run) (s : Store) : Store :=
  { s with runs := s.runs.modify value.id fun row => { row with value := value } }

def get (s : Store) (identity : Identity) : Except Error Upload :=
  (orRaise (s.uploads.lookup identity)
    (.failure "not_found" "The source record was not found." 404)).map Row.value

/-- What a request brings along: who asks, its key, new identities, the bound on tasks, and whether
authority and sources allow it. -/
structure Request where
  owner : Owner
  key : String
  runId : Identity
  workers : ℕ
  allowed : Except Error Unit

def busy : Error :=
  .failure "capacity" "Wait for the current data or upload operation to finish." 429

/-- The run of a new operation. -/
def newRun (request : Request) (upload : Upload) (body : Body) : Run :=
  { id := request.runId, owner := request.owner, uploadId := upload.id
    operation := body.operation, state := .queued, receipt := none, error := none }

variable [Hash (Identity × Body)] [Hash (Identity × CreateUpload)]

/-- Inserts the run of an operation and starts its task. -/
def admitNew (upload : Upload) (body : Body) (key : String) (request : Request) :
    Action Unit := do
  let s ← disk
  refuseIf (request.workers ≤ s.tasks.entries.length ∨
    s.tasks.values.any fun task => task.value.uploadId = upload.id) busy
  let value := newRun request upload body
  let runs ← check (insertRow s.runs value.id
    ⟨request.owner, key, Hash.digest (upload.id, body), value⟩)
  perform fun s => { s with runs := runs }
  let upload := { upload with lastRunId := some value.id }
  perform (saveUpload upload)
  perform fun s => { s with tasks := s.tasks.insert value.id ⟨value, upload, body, .created⟩ }

/-- An operation with a key that was used before is not performed again. -/
def startOperation (upload : Upload) (body : Body) (key : String) (request : Request) :
    Action Unit := do
  check request.allowed
  let s ← disk
  let previous ← check (existing s.runs request.owner key (Hash.digest (upload.id, body)))
  if previous.isSome then pure () else admitNew upload body key request

/-- The upload as it is created. -/
def creating (id : Identity) (owner : Owner) (connectionId : Identity) (body : CreateUpload) :
    Upload :=
  { id := id, owner := owner, connectionId := connectionId, datasetId := body.datasetId
    key := body.key, fileIndex := body.fileIndex, state := .creating, providerUploadId := none
    partBytes := none, parts := none, lastRunId := none, receipt := none }

/-- The key of the run that creates an upload. -/
def creationKey (id : Identity) : String := "upload-begin-" ++ id.toHex

/-- Creates the record of an upload and asks the provider to create it. -/
def beginNew (id connectionId : Identity) (body : CreateUpload) (request : Request) :
    Action Unit := do
  let s ← disk
  refuseIf (request.workers ≤ s.tasks.entries.length)
    (.failure "capacity" "Wait for an active data operation to finish." 429)
  let upload := creating id request.owner connectionId body
  let uploads ← check (insertRow s.uploads id
    ⟨request.owner, request.key, Hash.digest (connectionId, body), upload⟩)
  perform fun s => { s with uploads := uploads }
  startOperation upload ⟨.begin, none, 0⟩ (creationKey id) request

/-- `Uploads.begin`. A request with a key that was used before creates nothing. -/
def beginUpload (id connectionId : Identity) (body : CreateUpload) (request : Request) :
    Action Unit := do
  check request.allowed
  let s ← disk
  let previous ← check (existing s.uploads request.owner request.key
    (Hash.digest (connectionId, body)))
  if previous.isSome then pure () else beginNew id connectionId body request

/-- What `operate` refuses. -/
def admissible (upload : Upload) (body : Body) : Except Error Unit := do
  raiseIf (body.operation = .begin) (.value "operation")
  raiseIf (upload.providerUploadId = none) (.failure "upload_unknown" ("The upload creation " ++
    "response was lost. Inspect provider-side uploads; creation will not be replayed.") 409)
  raiseIf (upload.state.Finished ∧ body.operation ∉ [.status, .reconcile])
    (.failure "upload_finished" "This upload already has a terminal receipt." 409)
  raiseIf (body.operation = .part ∧ body.partNumber = none)
    (.failure "part_required" "Select the part number to upload." 400)
  raiseIf (upload.state = .unknown ∧ body.operation ∉ [.status, .reconcile, .abort])
    (.failure "upload_unknown"
      "Check the retained parts or reconcile publication before further writes." 409)

def operate (identity : Identity) (body : Body) (request : Request) : Action Unit := do
  let s ← disk
  let upload ← check (s.get identity)
  check (admissible upload body)
  startOperation upload body request.key request

omit [Hash (Identity × Body)] [Hash (Identity × CreateUpload)]

/-- The task with its records as they are now. -/
def remember (task : Task) (s : Store) : Store :=
  { s with tasks := s.tasks.insert task.value.id task }

/-- A task in the given phase. -/
def taskIn (s : Store) (run : Identity) (phases : List Phase) : Except Error Task :=
  orRaise ((s.tasks.lookup run).filter fun task => task.phase ∈ phases) .os

/-- The first instruction of a task. -/
def start (run : Identity) : Action Unit := do
  let s ← disk
  let task ← check (s.taskIn run [.created])
  perform (remember { task with phase := .started })

/-- The checks have passed, and the request is sent. -/
def send (run : Identity) : Action Unit := do
  let s ← disk
  let task ← check (s.taskIn run [.started])
  let value := { task.value with state := .running }
  perform (saveRun value)
  perform fun s =>
    let recorded := (s.uploads.lookup task.upload.id).map fun row => row.value.state
    { remember { task with value := value, phase := .sent } s with
      sent := s.sent ++ [⟨task.upload.id, task.body.operation, recorded⟩] }

/-- The provider is about to commit. -/
def committing (run : Identity) : Action Unit := do
  let s ← disk
  let task ← check (s.taskIn run [.sent])
  let value := { task.value with state := .committing }
  perform (saveRun value)
  perform (remember { task with value := value })

/-- The end of a task. -/
def conclude (value : Run) (upload : Upload) : Action Unit := do
  perform (saveRun value)
  perform (saveUpload upload)
  perform fun s => { s with tasks := s.tasks.erase value.id }

/-- The upload after a receipt. -/
def received (upload : Upload) (receipt : Receipt) : Upload :=
  match receipt with
  | .created uploadId partBytes parts =>
    { upload with providerUploadId := some uploadId, partBytes := some partBytes
                  parts := some parts, state := .uploading, receipt := some receipt }
  | .completed => { upload with state := .completed, receipt := some receipt }
  | .aborted => { upload with state := .aborted, receipt := some receipt }
  | .unknown => { upload with state := .unknown, receipt := some receipt }
  | .uploading => { upload with state := .uploading, receipt := some receipt }
  | .partUploaded _ => { upload with state := .uploading, receipt := some receipt }

/-- The provider has returned a receipt. -/
def finish (run : Identity) (receipt : Receipt) : Action Unit := do
  let s ← disk
  let task ← check (s.taskIn run [.sent])
  let state : RunState := if receipt = .unknown then .unknown else .completed
  conclude { task.value with state := state, receipt := some receipt }
    (received task.upload receipt)

/-- The upload after an error. -/
def interrupted (upload : Upload) (operation : Operation) (unknown : Bool) : Upload :=
  if unknown then { upload with state := .unknown }
  else if operation = .begin then { upload with state := .aborted }
  else upload

/-- The task has got an error, or it has been cancelled after it started. -/
def fail (run : Identity) (cancelled : Bool) (error : String × String) : Action Unit := do
  let s ← disk
  let task ← check (s.taskIn run [.started, .sent])
  let unknown : Bool := decide (task.value.state = .running ∨ task.value.state = .committing) &&
    decide (task.body.operation ∉ [.status, .reconcile])
  let state : RunState := if unknown then .unknown else if cancelled then .cancelled else .failed
  conclude { task.value with state := state, error := some error }
    (interrupted task.upload task.body.operation unknown)

/-- A task that is cancelled before its first instruction has no handler. -/
def cancelCreated (run : Identity) : Action Unit := do
  let s ← disk
  let _ ← check (s.taskIn run [.created])
  let row ← demand (s.runs.lookup run)
    (.failure "not_found" "The source record was not found." 404)
  if row.value.state = .queued then
    perform (saveRun { row.value with state := .cancelled })
    if row.value.operation = .begin then
      let upload ← check (s.get row.value.uploadId)
      perform (saveUpload { upload with state := .aborted })
      perform fun s => { s with tasks := s.tasks.erase run }
    else
      perform fun s => { s with tasks := s.tasks.erase run }
  else pure ()

/-- The run was not over when the controller stopped. -/
def Run.open (value : Run) : Bool := value.state ∉ TERMINAL

def restartError : String × String :=
  ("controller_restart", "The controller stopped before the final receipt. " ++
    "This operation will not be replayed.")

/-- Closes the runs that were not over, and marks their uploads. -/
def recover (s : Store) : Store :=
  { s with
    runs := s.runs.mapRows fun row =>
      if Run.open row.value then
        { row with value := { row.value with state := .unknown, error := some restartError } }
      else row
    uploads := s.uploads.mapRows fun row =>
      if s.runs.values.any fun run => Run.open run.value ∧ run.value.uploadId = row.value.id then
        { row with value := { row.value with state := .unknown } }
      else row }

/-- The controller starts. -/
def restart (s : Store) : Store := { recover { s with tasks := ∅ } with up := true }

end Store

/-! ### Runs -/

/-- What happens. -/
inductive Event
  | beginUpload (id connectionId : Identity) (body : CreateUpload) (request : Store.Request)
  | operate (identity : Identity) (body : Body) (request : Store.Request)
  | start (run : Identity)
  | send (run : Identity)
  | committing (run : Identity)
  | finish (run : Identity) (receipt : Receipt)
  | fail (run : Identity) (cancelled : Bool) (error : String × String)
  | cancelCreated (run : Identity)
  | restart

/-- What happens, and after how many writes the controller stops. -/
structure Step where
  event : Event
  stopped : Option ℕ

namespace Store

variable [Hash (Identity × Body)] [Hash (Identity × CreateUpload)]

/-- The code of an event. -/
def act : Event → Action Unit
  | .beginUpload id connectionId body request => beginUpload id connectionId body request
  | .operate identity body request => operate identity body request
  | .start run => start run
  | .send run => send run
  | .committing run => committing run
  | .finish run receipt => finish run receipt
  | .fail run cancelled error => fail run cancelled error
  | .cancelCreated run => cancelCreated run
  | .restart => perform restart

/-- The controller is down: its tasks are lost. -/
def down (s : Store) : Store := { s with tasks := ∅, up := false }

def step (s : Store) (step : Step) : Store :=
  match step.event, s.up, step.stopped with
  | .restart, _, _ => s.restart
  | _, false, _ => s
  | event, true, none => cut (act event) s none
  | event, true, some n => (cut (act event) s (some n)).down

omit [Hash (Identity × Body)] [Hash (Identity × CreateUpload)] in
def initial : Store := ⟨∅, ∅, ∅, true, []⟩

end Store

end Ficc.Sources
