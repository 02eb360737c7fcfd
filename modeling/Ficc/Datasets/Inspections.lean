import Ficc.Datasets.Safety
import Ficc.Foundations.JsonRecords

/-!
# Inspection runs

A run scans the files of a dataset one after the other. Its record is a value in memory that is saved
again and again, the receipt of a file is stored in one transaction with the new record and with the
quarantine of the dataset, and at its end the record is saved once more, whatever happened. Here a
storage failure may strike every transaction, and within the transaction of a file every statement.
A transaction that fails leaves the database as it was.

Records and receipts are stored as JSON texts, and the validation bounds the length of a text. A
receipt may have any entries beside those that are checked, an entry `file_index` among them.

`Event.raised` is an exception at any wait of the loop, a cancellation as well. What the scanner and
the authority say are inputs, and so are the times that are stored.
-/

namespace Ficc.Datasets.Inspections

open Execution (Identity Digest)
open Utf8 JsonText

/-! ### Texts -/

/-- A JSON document. -/
abbrev Doc := Document Text Literal

/-- `json.dumps` with sorted keys and without blanks. The text is ASCII. -/
def encoded (value : Doc) : Text := write ⟨true, 0⟩ (sorted value)

/-- The longest result of a scanner, and the longest text that the validation accepts. -/
def MAX_RESULT : ℕ := 65536

/-- The document of a value that may be missing. -/
def orNull {α : Type} (dump : α → Doc) : Option α → Doc
  | none => .null
  | some value => dump value

def isObject : Doc → Bool
  | .object _ => true
  | _ => false

/-- The document equals the number of a file. Truth values count as numbers, and a float is written
with its shortest text. -/
def equalsNumber (number : ℕ) : Doc → Bool
  | .number (.int value) => value = number
  | .number (.real text) =>
    text = decimal number ++ points ".0" ∨ number = 0 ∧ text = points "-0.0"
  | .bool value => (if value then 1 else 0) = number
  | _ => false

def outcomeText : Outcome → String
  | .noDetection => "no_detection"
  | .incomplete => "incomplete"
  | .unavailable => "unavailable"
  | .error => "error"
  | .detected => "detected"

def stateText : RunState → String
  | .queued => "queued"
  | .running => "running"
  | .completed => "completed"

/-! ### Receipts and records -/

/-- What the scanner says about a file, a dictionary. -/
structure Receipt where
  outcome : Outcome
  sha256 : Digest
  bytes : ℕ
  /-- The other entries. -/
  entries : List (Text × Doc)
  distinct : (["outcome", "sha256", "bytes"].map points ++ entries.map Prod.fst).Nodup

namespace Receipt

def members (receipt : Receipt) : List (Text × Doc) :=
  [(points "outcome", ofString (outcomeText receipt.outcome)),
    (points "sha256", .text (hex 64 receipt.sha256.toNat)),
    (points "bytes", ofNatural receipt.bytes)] ++ receipt.entries

/-- `result`: three of the other entries are dictionaries, and the text is not too long. -/
def accepted (receipt : Receipt) : Bool :=
  ["coverage", "engine", "signatures"].all
      (fun name => (receipt.entries.lookup (points name)).any isObject) &&
    (encoded (.object receipt.members)).length ≤ MAX_RESULT

/-- The members that are stored with the number of the file, which gives way to an entry of the
receipt with its name. -/
def stored (receipt : Receipt) (number : ℕ) : List (Text × Doc) :=
  if (receipt.entries.lookup (points "file_index")).isSome then receipt.members
  else (points "file_index", ofNatural number) :: receipt.members

/-- The stored text of the receipt is not too long, and says the number of the file. -/
def Fits (receipt : Receipt) (number : ℕ) : Prop :=
  (encoded (.object (receipt.stored number))).length ≤ MAX_RESULT ∧
    (receipt.entries.lookup (points "file_index")).all (equalsNumber number) = true

instance (receipt : Receipt) (number : ℕ) : Decidable (receipt.Fits number) :=
  inferInstanceAs (Decidable (_ ∧ _))

end Receipt

/-- The value of a row of `inspection_runs`. -/
structure Record where
  subjectId : Identity
  projectId : Identity
  datasetId : Identity
  manifestDigest : Digest
  state : RunState
  outcome : Outcome
  configDigest : Digest
  provider : Option String
  createdAt : Literal
  completedFiles : ℕ
  totalFiles : ℕ
  reason : Option String
  /-- The entry is not there before the end. -/
  finishedAt : Option Literal
deriving DecidableEq

/-- The stored document of a run. -/
def Record.document (run : Identity) (value : Record) : Doc := object <|
  [("id", .text (hex 32 run.toNat)), ("subject_id", .text (hex 32 value.subjectId.toNat)),
    ("project_id", .text (hex 32 value.projectId.toNat)),
    ("dataset_id", .text (hex 32 value.datasetId.toNat)),
    ("manifest_digest", .text (hex 64 value.manifestDigest.toNat)),
    ("state", ofString (stateText value.state)), ("outcome", ofString (outcomeText value.outcome)),
    ("config_digest", .text (hex 64 value.configDigest.toNat)),
    ("provider", orNull ofString value.provider), ("created_at", .number value.createdAt),
    ("completed_files", ofNatural value.completedFiles),
    ("total_files", ofNatural value.totalFiles), ("reason", orNull ofString value.reason)] ++
  match value.finishedAt with
  | none => []
  | some time => [("finished_at", .number time)]

/-- The stored text of the record is not too long. -/
def Record.Fits (run : Identity) (value : Record) : Prop :=
  (encoded (value.document run)).length ≤ MAX_RESULT

instance (run : Identity) (value : Record) : Decidable (value.Fits run) :=
  inferInstanceAs (Decidable (_ ≤ _))

/-- A row of `inspection_files`. -/
structure Row where
  run : Identity
  fileIndex : ℕ
  receipt : Receipt

/-- The parts of a manifest that an inspection reads. -/
structure Dataset where
  projectId : Identity
  manifestDigest : Digest
  files : List File
deriving DecidableEq

namespace Record

/-- The value when the task starts. -/
def started (value : Record) : Record := { value with state := .running, reason := none }

/-- The value with one more receipt. -/
def counted (value : Record) (number : ℕ) : Record := { value with completedFiles := number + 1 }

/-- The value of a run whose task never started. -/
def cancelled (value : Record) (now : Literal) : Record :=
  { value with
    state := .completed, outcome := .incomplete, reason := some "cancelled",
    finishedAt := some now }

/-- The value that a start of the controller makes of a run that was not complete. -/
def recovered (value : Record) : Record :=
  { value with state := .completed, outcome := .incomplete, reason := some "controller_restart" }

end Record

structure Database (D : Type) where
  datasets : Table Identity Dataset
  safety : Table Identity (Policy D)
  runs : Table Identity Record
  files : List Row

/-- Why a run ends before every file is scanned. -/
inductive Cause
  | cancelled
  /-- A `Failure` or an `InspectionError` with its code. -/
  | failure (code : String)
  | os
  | other
deriving DecidableEq

/-- Where the task of a run is. -/
inductive Stage
  | queued
  | scanning
  /-- In the `finally`, after the last file or for a cause. -/
  | closing (cause : Option Cause)
  /-- Cancelled before its first instruction. -/
  | dropped
  /-- The task has ended and is still in memory. -/
  | ended
deriving DecidableEq

structure Task where
  value : Record
  files : List File
  outcomes : List Outcome
  /-- The number of the next file. -/
  number : ℕ
  stage : Stage
  /-- A transaction of the task has failed when the value had changed, or with a detection. -/
  torn : Bool

structure State (D : Type) where
  db : Database D
  tasks : Table Identity Task
  /-- The datasets that the owner has decided about since the last detection that was stored. -/
  decided : List Identity

variable {D : Type}

/-! ### The store -/

namespace Database

def policy (db : Database D) (identity : Identity) : Policy D :=
  (db.safety.lookup identity).getD (.default identity)

def policySave (db : Database D) (value : Policy D) : Database D :=
  { db with safety := db.safety.insert value.id value }

/-- `save`. -/
def save (db : Database D) (run : Identity) (value : Record) : Database D :=
  { db with runs := db.runs.modify run fun _ => value }

/-- The rows of `inspection_files` of a run. -/
def rows (db : Database D) (run : Identity) : List Row := db.files.filter fun row => row.run = run

/-- `recover`. -/
def recover (db : Database D) : Database D :=
  { db with runs := db.runs.mapRows fun value =>
      if value.state = .completed then value else value.recovered }

/-- The check of a run in `validate_records`. -/
def validateRun (db : Database D) (run : Identity) (value : Record) : Except Error Unit := do
  raiseIf (¬value.Fits run ∨ value.state ≠ .completed)
    (.value "Wait for bounded inspection operations to finish before backup.")
  let manifest ← orRaise
    ((db.datasets.lookup value.datasetId).filter fun dataset => dataset.projectId = value.projectId)
    (.value "The inspection manifest binding is invalid.")
  raiseIf (manifest.manifestDigest ≠ value.manifestDigest)
    (.value "The inspection manifest binding is invalid.")
  let size := manifest.files.length
  let completed := (db.rows run).length
  raiseIf (value.totalFiles ≠ size ∨ value.completedFiles ≠ completed ∨ size < completed ∨
    (value.outcome = .noDetection ∧ completed ≠ size))
    (.value "The inspection completion is invalid.")

/-- The check of a receipt in `validate_records`. -/
def validateFile (db : Database D) (row : Row) : Except Error Unit := do
  let message := Error.value "The inspection file receipt is invalid."
  raiseIf (¬row.receipt.Fits row.fileIndex) message
  let inspection ← orRaise (db.runs.lookup row.run) message
  let dataset ← orRaise (db.datasets.lookup inspection.datasetId) message
  let file ← orRaise (dataset.files[row.fileIndex]?) message
  raiseIf ((row.receipt.sha256, row.receipt.bytes) ≠ (file.sha256, file.size) ∨
    (inspection.outcome = .noDetection ∧ row.receipt.outcome ≠ .noDetection)) message

/-- The part of `validate_records` about runs and receipts. -/
def validateRecords (db : Database D) : Except Error Unit := do
  db.runs.rows.forM fun run => db.validateRun run.1 run.2
  db.files.forM db.validateFile

end Database

/-! ### The transaction of a file -/

/-- The statement of the transaction that fails. -/
inductive Fault
  | receipt | policy | run | commit
deriving DecidableEq

/-- The quarantine of a dataset. -/
def Database.quarantine (db : Database D) (dataset : Identity) : Database D :=
  let policy := db.policy dataset
  db.policySave
    { policy with quarantined := true, revision := policy.revision + 1, exemption := none }

/-- The transaction that stores a receipt, with the value that it leaves in memory. It has no
database when it fails. -/
def transaction (db : Database D) (run : Identity) (value : Record) (number : ℕ)
    (receipt : Receipt) (fault : Option Fault) : Record × Option (Database D) :=
  if fault = some .receipt ∨ (db.rows run).any (fun row => row.fileIndex = number) then (value, none)
  else
    let db : Database D := { db with files := db.files ++ [⟨run, number, receipt⟩] }
    if receipt.outcome = .detected ∧ fault = some .policy then (value, none)
    else
      let db := if receipt.outcome = .detected then db.quarantine value.datasetId else db
      -- The value in memory changes before it is saved.
      let value := value.counted number
      if fault = some .run ∨ fault = some .commit then (value, none)
      else (value, some (db.save run value))

/-! ### Events -/

/-- The codes of a scanner that is not there. -/
def UNAVAILABLE : List String :=
  ["provider_unavailable", "provider_version", "scanner_unavailable", "scanner_assets",
    "scanner_layout"]

def Cause.outcome : Cause → Outcome
  | .cancelled => .incomplete
  | .failure code => if code ∈ UNAVAILABLE then .unavailable else .error
  | .os => .unavailable
  | .other => .error

def Cause.reason : Cause → String
  | .cancelled => "cancelled"
  | .failure code => code
  | .os => "scanner_assets_unavailable"
  | .other => "worker_failed"

/-- The value at the end of the task. -/
def Task.closed (task : Task) (cause : Option Cause) (now : Literal) : Record :=
  let value : Record :=
    match cause with
    | none => task.value
    | some cause => { task.value with outcome := cause.outcome, reason := some cause.reason }
  { value with
    outcome := if Outcome.detected ∈ task.outcomes then .detected else value.outcome
    state := .completed
    finishedAt := some now }

/-- What is stored of a request for an inspection. -/
structure Request where
  configDigest : Digest
  provider : Option String
  createdAt : Literal
deriving DecidableEq

/-- The value of a run that has been submitted. -/
def Request.value (request : Request) (subject project dataset : Identity) (manifest : Dataset) :
    Record :=
  ⟨subject, project, dataset, manifest.manifestDigest, .queued, .incomplete, request.configDigest,
    request.provider, request.createdAt, 0, manifest.files.length, some "pending", none⟩

/-- What happens to the controller. -/
inductive Event (D : Type)
  /-- A dataset is registered. -/
  | create (identity : Identity) (dataset : Dataset) (required : Bool)
  /-- An inspection is submitted. The identity of the run is drawn at random. -/
  | submit (run dataset subject project : Identity) (request : Request)
  /-- The task performs its first instructions. -/
  | start (run : Identity) (saved : Bool)
  /-- The scanner has returned a receipt for the next file. -/
  | scanned (run : Identity) (receipt : Receipt) (fault : Option Fault)
  /-- An exception is raised in the loop. -/
  | raised (run : Identity) (cause : Cause)
  /-- The loop has ended. -/
  | finished (run : Identity)
  /-- The `finally` of the task. When the audit fails the task is not forgotten. -/
  | close (run : Identity) (now : Literal) (saved audited : Bool)
  /-- A call of `cancel` finds that the task never started. -/
  | cancel (run : Identity) (now : Literal) (saved : Bool)
  /-- The controller stops and starts again. -/
  | restart (recovered : Bool)
  /-- The owner sets the flags. -/
  | update (dataset : Identity) (revision : ℕ) (sensitive required quarantined : Bool)
  /-- The owner grants or withdraws an exemption. -/
  | exempt (dataset : Identity) (revision : ℕ) (exemption : Option (Exemption D))

namespace State

def empty : State D := ⟨⟨∅, ∅, ∅, []⟩, ∅, []⟩

def create (s : State D) (identity : Identity) (dataset : Dataset) (required : Bool) :
    Option (State D) :=
  if (s.db.datasets.lookup identity).isSome then none
  else
    let db := { s.db with datasets := s.db.datasets.insert identity dataset }
    some { s with db := db.policySave { db.policy identity with inspectionRequired := required } }

/-- A task of another inspection of the dataset is in memory. -/
def busy (s : State D) (dataset : Identity) : Bool :=
  s.tasks.rows.any fun row => (s.db.runs.lookup row.1).any fun value => value.datasetId = dataset

def submit (s : State D) (run dataset subject project : Identity) (request : Request) :
    Option (State D) :=
  (s.db.datasets.lookup dataset).bind fun manifest =>
    if manifest.projectId ≠ project ∨ (s.db.runs.lookup run).isSome ∨ s.busy dataset then none
    else
      let value := request.value subject project dataset manifest
      let db := { s.db with runs := s.db.runs.insert run value }
      some { s with
        db := db.policySave { db.policy dataset with latestRun := some run }
        tasks := s.tasks.insert run ⟨value, manifest.files, [], 0, .queued, false⟩ }

/-- The task of a run, at one of the stages. -/
def at? (s : State D) (run : Identity) (stages : List Stage) : Option Task :=
  (s.tasks.lookup run).filter fun task => task.stage ∈ stages

def setTask (s : State D) (run : Identity) (task : Task) : State D :=
  { s with tasks := s.tasks.insert run task }

def start (s : State D) (run : Identity) (saved : Bool) : Option (State D) :=
  (s.at? run [.queued]).map fun task =>
    let value := task.value.started
    if saved then
      ({ s with db := s.db.save run value }).setTask run
        { task with value := value, stage := .scanning }
    else s.setTask run { task with value := value, stage := .closing (some .other) }

def scanned (s : State D) (run : Identity) (receipt : Receipt) (fault : Option Fault) :
    Option (State D) :=
  (s.at? run [.scanning]).bind fun task =>
    (task.files[task.number]?).map fun source =>
      if receipt.accepted = false then
        s.setTask run { task with stage := .closing (some (.failure "inspection_protocol")) }
      else if receipt.sha256 ≠ source.sha256 ∨ receipt.bytes ≠ source.size then
        s.setTask run { task with stage := .closing (some (.failure "inspection_binding")) }
      else
        let outcomes := task.outcomes ++ [receipt.outcome]
        match transaction s.db run task.value task.number receipt fault with
        | (value, some db) =>
          ({ s with
              db := db
              decided := if receipt.outcome = Outcome.detected then
                s.decided.filter fun other => other ≠ value.datasetId else s.decided }).setTask run
            { task with value := value, outcomes := outcomes, number := task.number + 1 }
        | (value, none) =>
          s.setTask run { task with
            value := value, outcomes := outcomes, stage := .closing (some .other)
            torn := fault = some .run ∨ fault = some .commit ∨ receipt.outcome = Outcome.detected }

def raised (s : State D) (run : Identity) (cause : Cause) : Option (State D) :=
  (s.at? run [.scanning]).map fun task =>
    s.setTask run { task with stage := .closing (some cause) }

def finished (s : State D) (run : Identity) : Option (State D) :=
  (s.at? run [.scanning]).bind fun task =>
    if task.number = task.files.length then
      match worst task.outcomes with
      | some outcome =>
        some (s.setTask run { task with
          value := { task.value with outcome := outcome }, stage := .closing none })
      -- There is no greatest outcome of no files.
      | none => some (s.setTask run { task with stage := .closing (some .other) })
    else none

def close (s : State D) (run : Identity) (now : Literal) (saved audited : Bool) :
    Option (State D) :=
  (s.tasks.lookup run).bind fun task =>
    match task.stage with
    | .closing cause =>
      let value := task.closed cause now
      let ended := { task with value := value, stage := .ended }
      if saved then
        some { s with
          db := s.db.save run value
          tasks := if audited then s.tasks.erase run else s.tasks.insert run ended }
      else some (s.setTask run ended)
    | _ => none

def cancel (s : State D) (run : Identity) (now : Literal) (saved : Bool) : Option (State D) :=
  (s.at? run [.queued, .dropped]).bind fun task =>
    (s.db.runs.lookup run).map fun value =>
      let value := value.cancelled now
      if saved then { s with db := s.db.save run value, tasks := s.tasks.erase run }
      else s.setTask run { task with stage := .dropped }

/-- Nothing is left in memory. The recovery is one transaction, which may fail. -/
def restart (s : State D) (recovered : Bool) : State D :=
  { s with db := if recovered then s.db.recover else s.db, tasks := ∅ }

def update (s : State D) (dataset : Identity) (revision : ℕ)
    (sensitive required quarantined : Bool) : Option (State D) :=
  if (s.db.policy dataset).revision ≠ revision then none
  else some { s with
    db := s.db.policySave { s.db.policy dataset with
      revision := revision + 1, exemption := none, sensitive := sensitive,
      inspectionRequired := required, quarantined := quarantined }
    decided := dataset :: s.decided }

def exempt (s : State D) (dataset : Identity) (revision : ℕ) (exemption : Option (Exemption D)) :
    Option (State D) :=
  if (s.db.policy dataset).revision ≠ revision then none
  else some { s with
    db := s.db.policySave { s.db.policy dataset with
      revision := revision + 1, exemption := exemption } }

/-- One event. One that cannot happen changes nothing. -/
def step (s : State D) (event : Event D) : State D :=
  match event with
  | .create identity dataset required => (s.create identity dataset required).getD s
  | .submit run dataset subject project request =>
    (s.submit run dataset subject project request).getD s
  | .start run saved => (s.start run saved).getD s
  | .scanned run receipt fault => (s.scanned run receipt fault).getD s
  | .raised run cause => (s.raised run cause).getD s
  | .finished run => (s.finished run).getD s
  | .close run now saved audited => (s.close run now saved audited).getD s
  | .cancel run now saved => (s.cancel run now saved).getD s
  | .restart recovered => s.restart recovered
  | .update dataset revision sensitive required quarantined =>
    (s.update dataset revision sensitive required quarantined).getD s
  | .exempt dataset revision exemption => (s.exempt dataset revision exemption).getD s

end State

end Ficc.Datasets.Inspections
