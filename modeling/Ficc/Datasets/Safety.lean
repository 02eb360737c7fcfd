import Ficc.Execution.Spec
import Ficc.Foundations.Closure
import Ficc.Foundations.Table
import Ficc.Foundations.Transition

/-!
# Safety of datasets

A dataset is an immutable manifest. What is decided about it is kept apart from it: a policy with
the flags of the owner and the latest inspection, and the runs of the scanner. A dataset is judged
together with everything it may come from: its parents, and the datasets that have a file at the
same path or with the same content. `effective` reads the policies of all of them.

Every operation below is one transaction of the database, so one that raises changes nothing. The
scanner is outside: what is installed and approved is an input of `effective`, and the outcome for
each file is an input of a run. Digests are values of a type `D` with a function `sha256` from what
is encoded and hashed.
-/

namespace Ficc.Datasets

open Execution (Identity Digest)

/-- What a scanner says about a file, and an inspection about a dataset. -/
inductive Outcome
  | noDetection | incomplete | unavailable | error | detected
deriving DecidableEq

def PRIORITY : Outcome → ℕ
  | .noDetection => 0
  | .incomplete => 1
  | .unavailable => 2
  | .error => 3
  | .detected => 4

/-- The outcome of the highest priority, the first of several. There is none for an empty list. -/
def worst : List Outcome → Option Outcome
  | [] => none
  | outcome :: rest =>
    some (rest.foldl (fun best next => if PRIORITY best < PRIORITY next then next else best)
      outcome)

structure InspectionConfig where
  provider : Option String := none
  /-- The text of the provider's own configuration. -/
  configuration : String := ""
  scanOnCreate : Bool := false
  requiredNew : Bool := false
  memoryBytes : ℕ := 2147483648
  tempBytes : ℕ := 268435456
  seconds : ℕ := 600
  workers : ℕ := 1
  maxAgeSeconds : ℕ := 86400
deriving DecidableEq

/-- The text that identifies an installed scanner package. -/
abbrev Installed : Type := String

/-- What is installed and has its approved assets for a configuration. There is nothing when the
package or an asset is missing. -/
abbrev Scanner : Type := InspectionConfig → Option Installed

/-- A file of a manifest, with the key of its path. -/
structure File where
  pathKey : Digest
  sha256 : Digest
  size : ℕ
deriving DecidableEq

/-- A source that a dataset was made from. A connection binds a path and no digest. -/
structure Source where
  pathKey : Digest
  sha256 : Option Digest
  size : ℕ
deriving DecidableEq

/-- The parts of a manifest that the safety of datasets reads. -/
structure Manifest where
  id : Identity
  subjectId : Identity
  projectId : Identity
  key : String
  inputDatasetIds : List Identity
  previousVersionId : Option Identity
  /-- The input of the workload that made the dataset. -/
  originInput : Option Identity
  files : List File
deriving DecidableEq

def Manifest.parents (value : Manifest) : List Identity :=
  value.inputDatasetIds ++ value.previousVersionId.toList ++ value.originInput.toList

inductive Kind
  | output | input
deriving DecidableEq

/-- A row of `dataset_objects`. The digest of a path-only input is empty. -/
structure Object where
  datasetId : Identity
  projectId : Identity
  kind : Kind
  pathKey : Digest
  sha256 : Option Digest
  bytes : ℕ
deriving DecidableEq

inductive RunState
  | queued | running | completed
deriving DecidableEq

/-- What the basis of an exemption holds of an ancestor. -/
structure Entry where
  id : Identity
  revision : ℕ
  latestRun : Option Identity
  /-- The state, the outcome and the end of the latest run. -/
  run : Option (RunState × Outcome × Option ℕ)
deriving DecidableEq

/-- What is hashed. -/
inductive Message
  | config (config : InspectionConfig)
  | request (dataset : Manifest) (config : InspectionConfig)
  | basis (config : InspectionConfig) (ancestors : List Entry)
deriving DecidableEq

/-- The digest of a message. -/
class Sha256 (D : Type) where
  sha256 : Message → D

export Sha256 (sha256)

/-- No two messages have one digest. -/
def CollisionFree (D : Type) [Sha256 D] : Prop := Function.Injective (sha256 : Message → D)

variable {D : Type}

structure Exemption (D : Type) where
  reason : String
  expiresAt : Option ℕ
  subjectId : Identity
  grantedAt : ℕ
  basisDigest : D
deriving DecidableEq

structure Policy (D : Type) where
  id : Identity
  revision : ℕ
  sensitive : Bool
  inspectionRequired : Bool
  quarantined : Bool
  exemption : Option (Exemption D)
  latestRun : Option Identity
deriving DecidableEq

/-- The policy of a dataset that has no row. -/
def Policy.default (identity : Identity) : Policy D :=
  ⟨identity, 1, false, false, false, none, none⟩

/-- The flags of the owner. -/
def Policy.flags (policy : Policy D) : Bool × Bool × Bool :=
  (policy.sensitive, policy.inspectionRequired, policy.quarantined)

/-- The record of an inspection, with the outcomes of the files in `inspection_files`. -/
structure Run (D : Type) where
  id : Identity
  subjectId : Identity
  projectId : Identity
  datasetId : Identity
  key : String
  digest : D
  state : RunState
  outcome : Outcome
  configDigest : D
  finishedAt : Option ℕ
  files : List Outcome
  totalFiles : ℕ
deriving DecidableEq

/-- A run that is over. -/
def Run.close (run : Run D) (outcome : Outcome) (finishedAt : Option ℕ) : Run D :=
  { run with state := .completed, outcome := outcome, finishedAt := finishedAt }

structure State (D : Type) where
  datasets : Table Identity Manifest
  lineage : List (Identity × Identity)
  objects : List Object
  safety : Table Identity (Policy D)
  runs : Table Identity (Run D)
  config : InspectionConfig
  approval : Option Installed
  /-- The runs that have a task in memory. -/
  tasks : List Identity
  /-- The runs whose task was cancelled before its first instruction. Another call of `cancel` may
  still be waiting for the same task. -/
  cancelled : List Identity
  now : ℕ

/-- A controller without datasets. -/
def State.empty : State D := ⟨∅, [], [], ∅, ∅, {}, none, [], [], 0⟩

/-! ### The store -/

namespace State

def policy (s : State D) (identity : Identity) : Policy D :=
  (s.safety.lookup identity).getD (.default identity)

def policySave (s : State D) (value : Policy D) : State D :=
  { s with safety := s.safety.insert value.id value }

def run (s : State D) (identity : Identity) : Except Error (Run D) :=
  orRaise (s.runs.lookup identity) (.failure "not_found" "The inspection was not found." 404)

def save (s : State D) (value : Run D) : State D :=
  { s with runs := s.runs.modify value.id fun _ => value }

/-- Two rows of `dataset_objects` make an edge from the dataset of the first to the dataset of the
second. -/
def Joined (project : Identity) (a b : Object) : Prop :=
  a.projectId = project ∧ b.projectId = project ∧ b.kind = .output ∧
    (a.pathKey = b.pathKey ∨ a.sha256 ≠ none ∧ a.sha256 = b.sha256 ∧ a.bytes = b.bytes) ∧
    a.datasetId ≠ b.datasetId

instance (project : Identity) (a b : Object) : Decidable (Joined project a b) :=
  inferInstanceAs (Decidable (_ ∧ _))

/-- One dataset may come from another: it names it as a parent, or it has a file at the path or
with the content of one of its files. -/
def Edge (s : State D) (project child parent : Identity) : Prop :=
  (child, parent) ∈ s.lineage ∨
    ∃ a ∈ s.objects, ∃ b ∈ s.objects,
      Joined project a b ∧ a.datasetId = child ∧ b.datasetId = parent

/-- The edges that the query of `ancestors` joins. -/
def edges (s : State D) (project : Identity) : List (Identity × Identity) :=
  s.lineage ++ s.objects.flatMap fun a =>
    (s.objects.filter fun b => Joined project a b).map fun b => (a.datasetId, b.datasetId)

/-- The datasets of the project that are reached from one, in the order of their ids. -/
def ancestors (s : State D) (value : Manifest) : List Identity :=
  let reached := Graph.closure (s.edges value.projectId) value.id
  ((s.datasets.rows.filter fun row => row.1 ∈ reached ∧ row.2.projectId = value.projectId).map
    Prod.fst).insertionSort (· ≤ ·)

/-- The rows that `index` writes for a dataset. -/
def outputs (value : Manifest) : List Object :=
  value.files.map fun file =>
    ⟨value.id, value.projectId, .output, file.pathKey, some file.sha256, file.size⟩

def inputs (value : Manifest) (sources : List Source) : List Object :=
  sources.map fun source =>
    ⟨value.id, value.projectId, .input, source.pathKey, source.sha256, source.size⟩

def index (s : State D) (value : Manifest) (sources : List Source) : State D :=
  { s with
    lineage := s.lineage ∪ value.parents.map fun parent => (value.id, parent)
    objects := s.objects ∪ (outputs value ++ inputs value sources) }

/-- A policy with its latest run. -/
def inspected (s : State D) (identity : Identity) :
    Except Error (Policy D × Option (Run D)) :=
  match (s.policy identity).latestRun with
  | none => .ok (s.policy identity, none)
  | some latest => (s.run latest).map fun run => (s.policy identity, some run)

end State

/-! ### The judgement -/

section Judgement

variable [DecidableEq D] [Sha256 D]

/-- The configured scanner is ready, and the run is a completed inspection without a detection
under the current configuration that is not too old. -/
def successful (s : State D) (scanner : Scanner) (run : Option (Run D)) : Bool :=
  s.config.provider.isSome && (scanner s.config).isSome &&
    decide (scanner s.config = s.approval) &&
    run.any fun run =>
      decide (run.state = .completed ∧ run.outcome = .noDetection ∧
        run.configDigest = sha256 (.config s.config) ∧
        s.now - run.finishedAt.getD 0 ≤ s.config.maxAgeSeconds)

inductive Reason
  | quarantined | inspectionRequired
deriving DecidableEq

structure Effective (D : Type) where
  sensitive : Bool
  inspectionRequired : Bool
  quarantined : Bool
  blocked : Bool
  reason : Option Reason
  exempt : Bool
  exemption : Option (Exemption D)
  basisDigest : D
  inheritedCount : ℕ
  controls : Policy D
  inspection : Option (Run D)
deriving DecidableEq

def entry (policy : Policy D) (run : Option (Run D)) : Entry :=
  ⟨policy.id, policy.revision, policy.latestRun,
    run.map fun run => (run.state, run.outcome, run.finishedAt)⟩

/-- Why the dataset is not to be used. -/
def reason (quarantined missing : Bool) : Option Reason :=
  if quarantined then some .quarantined else if missing then some .inspectionRequired else none

/-- The exemption covers the basis and has not expired. -/
def honoured (exemption : Option (Exemption D)) (basisDigest : D) (now : ℕ) : Bool :=
  exemption.any fun exemption =>
    decide (exemption.basisDigest = basisDigest) && exemption.expiresAt.all fun at_ => now < at_

/-- The judgement of a dataset, from its policy and the policies of its ancestors. -/
def judge (s : State D) (scanner : Scanner) (value : Manifest)
    (ancestors : List (Policy D × Option (Run D))) (own : Policy D × Option (Run D)) :
    Effective D :=
  let basis := sha256 (.basis s.config (ancestors.map fun ancestor => entry ancestor.1 ancestor.2))
  let required := ancestors.any fun ancestor => ancestor.1.inspectionRequired
  let quarantined := ancestors.any fun ancestor => ancestor.1.quarantined
  let inheritedBlock := ancestors.any fun ancestor =>
    ancestor.1.inspectionRequired && !successful s scanner ancestor.2
  let missing := required && (!successful s scanner own.2 || inheritedBlock)
  let exempt := honoured own.1.exemption basis s.now
  { sensitive := ancestors.any fun ancestor => ancestor.1.sensitive
    inspectionRequired := required
    quarantined := quarantined
    blocked := (reason quarantined missing).isSome && !exempt
    reason := reason quarantined missing
    exempt := exempt
    exemption := own.1.exemption
    basisDigest := basis
    inheritedCount := ancestors.countP fun ancestor => ancestor.1.id ≠ value.id
    controls := own.1
    inspection := own.2 }

def effective (s : State D) (scanner : Scanner) (value : Manifest) :
    Except Error (Effective D) := do
  let ancestors ← (s.ancestors value).mapM s.inspected
  let own ← s.inspected value.id
  return judge s scanner value ancestors own

end Judgement

/-! ### Operations -/

/-- A signed-in principal. -/
structure Principal where
  subjectId : Identity
  projectId : Identity
deriving DecidableEq

structure SafetyChange where
  revision : ℕ
  sensitive : Bool
  inspectionRequired : Bool
  quarantined : Bool

structure ExemptionChange where
  revision : ℕ
  enabled : Bool
  reason : String
  expiresAt : Option ℕ

/-- Why a run ends before every file is scanned. -/
inductive Cause
  | cancelled | unavailable | failed
deriving DecidableEq

def Cause.outcome : Cause → Outcome
  | .cancelled => .incomplete
  | .unavailable => .unavailable
  | .failed => .error

/-- What happens to the controller. -/
inductive Event
  | tick (seconds : ℕ)
  /-- A dataset is registered. -/
  | create (principal : Principal) (value : Manifest) (sources : List Source)
  /-- An inspection is submitted. The identity of the run is drawn at random. -/
  | submit (principal : Principal) (dataset : Identity) (key : String) (drawn : Identity)
  /-- The task of a run performs its first instructions. -/
  | start (run : Identity)
  /-- The scanner has returned a receipt for the next file. -/
  | scanned (run : Identity) (outcome : Outcome)
  /-- The task ends, after the last file or for a cause. -/
  | finish (run : Identity) (cause : Option Cause)
  /-- A call of `cancel` finds that the task never started. -/
  | cancel (run : Identity)
  /-- The controller stops and starts again. -/
  | restart
  /-- The owner sets the flags. -/
  | update (principal : Principal) (dataset : Identity) (body : SafetyChange)
  /-- The owner grants or withdraws an exemption. -/
  | exempt (principal : Principal) (dataset : Identity) (body : ExemptionChange)
    (scanner : Scanner)
  /-- The owner configures the scanner. -/
  | configure (config : InspectionConfig) (installed : Option Installed)

section Operations

namespace State

/-- The dataset, for a principal of its project. -/
def get (s : State D) (identity : Identity) (principal : Principal) : Except Error Manifest := do
  let value ← orRaise (s.datasets.lookup identity)
    (.failure "not_found" "The dataset was not found." 404)
  raiseIf (value.projectId ≠ principal.projectId)
    (.failure "not_found" "The dataset was not found." 404)
  return value

def register (s : State D) (value : Manifest) (sources : List Source) : State D :=
  let s := s.index value sources
  s.policySave { s.policy value.id with inspectionRequired := s.config.requiredNew }

/-- A dataset of the principal has the key. -/
def existing (s : State D) (value : Manifest) : Bool :=
  s.datasets.values.any fun other =>
    decide (other.subjectId = value.subjectId ∧ other.projectId = value.projectId ∧
      other.key = value.key)

/-- Registers a dataset. A repeated request returns the dataset that it made, and another request
with its key is refused; both change nothing. The request names the parents in its provenance and
the previous version, which are checked; the input of a workload is given by the controller. -/
def create (s : State D) (principal : Principal) (value : Manifest) (sources : List Source) :
    Except Error (State D) := do
  raiseIf (value.subjectId ≠ principal.subjectId ∨ value.projectId ≠ principal.projectId) .integrity
  if s.existing value then return s
  let _ ← (value.inputDatasetIds ++ value.previousVersionId.toList).mapM fun parent =>
    s.get parent principal
  raiseIf (s.datasets.lookup value.id ≠ none) .integrity
  return register { s with datasets := s.datasets.insert value.id value } value sources

/-- Another run of the principal has the key. -/
def repeated (s : State D) (principal : Principal) (key : String) : Option (Run D) :=
  s.runs.values.find? fun run =>
    decide (run.subjectId = principal.subjectId ∧ run.projectId = principal.projectId ∧
      run.key = key)

/-- The task of another run works on the dataset. -/
def busy (s : State D) (dataset : Identity) : Bool :=
  s.tasks.any fun task => (s.runs.lookup task).any fun run => decide (run.datasetId = dataset)

/-- Inserts the record of a run, which gets a task. -/
def enqueue (s : State D) (value : Run D) : State D :=
  { s with runs := s.runs.insert value.id value, tasks := value.id :: s.tasks }

/-- Sets the latest run of a policy. -/
def bind (s : State D) (dataset run : Identity) : State D :=
  s.policySave { s.policy dataset with latestRun := some run }

/-- A policy after a detection. -/
def quarantine (s : State D) (dataset : Identity) : State D :=
  let policy := s.policy dataset
  s.policySave { policy with
    quarantined := true
    revision := policy.revision + 1
    exemption := none }

def start (s : State D) (identity : Identity) : Except Error (State D) := do
  let run ← s.run identity
  raiseIf (identity ∉ s.tasks ∨ run.state ≠ .queued) .os
  return s.save { run with state := .running }

def scanned (s : State D) (identity : Identity) (outcome : Outcome) : Except Error (State D) := do
  let run ← s.run identity
  raiseIf (identity ∉ s.tasks ∨ run.state ≠ .running ∨ run.totalFiles ≤ run.files.length) .os
  let s := s.save { run with files := run.files ++ [outcome] }
  return if outcome = .detected then s.quarantine run.datasetId else s

/-- The outcome of a run at its end. -/
def outcomeAtEnd (files : List Outcome) (cause : Option Cause) : Outcome :=
  if Outcome.detected ∈ files then .detected
  else match cause with
    | some cause => cause.outcome
    | none => (worst files).getD .error

def finish (s : State D) (identity : Identity) (cause : Option Cause) :
    Except Error (State D) := do
  let run ← s.run identity
  raiseIf (identity ∉ s.tasks ∨ run.state ≠ .running) .os
  raiseIf (cause = none ∧ run.files.length ≠ run.totalFiles) .os
  let s := s.save (run.close (outcomeAtEnd run.files cause) (some s.now))
  return { s with tasks := s.tasks.erase identity }

def cancel (s : State D) (identity : Identity) : Except Error (State D) := do
  let run ← s.run identity
  raiseIf (¬(identity ∈ s.tasks ∧ run.state = .queued) ∧ identity ∉ s.cancelled) .os
  let s := s.save (run.close .incomplete (some s.now))
  return { s with tasks := s.tasks.erase identity, cancelled := identity :: s.cancelled }

/-- Closes the runs that were not over. Such a run has no time of its end. -/
def recover (s : State D) : State D :=
  { s with
    runs := s.runs.mapRows fun run =>
      if run.state = .completed then run else run.close .incomplete run.finishedAt
    tasks := []
    cancelled := [] }

def update (s : State D) (principal : Principal) (identity : Identity) (body : SafetyChange) :
    Except Error (State D) := do
  let _ ← s.get identity principal
  let value := s.policy identity
  raiseIf (value.revision ≠ body.revision) (.failure "safety_changed"
    "Refresh the current dataset safety controls before changing them." 409)
  return s.policySave { value with
    revision := value.revision + 1
    exemption := none
    sensitive := body.sensitive
    inspectionRequired := body.inspectionRequired
    quarantined := body.quarantined }

def configure (s : State D) (config : InspectionConfig) (installed : Option Installed) :
    Except Error (State D) := do
  raiseIf (config.provider.isSome ≠ installed.isSome) (.failure "scanner_unavailable"
    "Install and approve the local scanner engine and signature assets first." 409)
  raiseIf (s.tasks ≠ []) (.failure "inspection_busy"
    "Wait for active inspections before changing scanner configuration." 409)
  return { s with config := config, approval := installed }

variable [DecidableEq D] [Sha256 D]

/-- Submits an inspection. The request digest covers the manifest and the configuration. -/
def submit (s : State D) (principal : Principal) (identity : Identity) (key : String)
    (drawn : Identity) : Except Error (State D) := do
  let dataset ← s.get identity principal
  let digest : D := sha256 (.request dataset s.config)
  match s.repeated principal key with
  | some previous =>
    raiseIf (previous.digest ≠ digest) (.failure "idempotency_conflict"
      "This key belongs to another inspection request." 409)
    return s
  | none =>
    raiseIf (s.config.workers ≤ s.tasks.length ∨ s.busy identity) (.failure "inspection_capacity"
      "Wait for an active inspection to finish." 429)
    raiseIf (s.runs.lookup drawn ≠ none) .integrity
    let value : Run D := {
      id := drawn
      subjectId := principal.subjectId
      projectId := principal.projectId
      datasetId := identity
      key := key
      digest := digest
      state := .queued
      outcome := .incomplete
      configDigest := sha256 (.config s.config)
      finishedAt := none
      files := []
      totalFiles := dataset.files.length }
    return (s.enqueue value).bind identity drawn

/-- Grants or withdraws an exemption. The basis is read after the new revision is saved. -/
def exempt (s : State D) (scanner : Scanner) (principal : Principal) (identity : Identity)
    (body : ExemptionChange) : Except Error (State D) := do
  let dataset ← s.get identity principal
  let value := s.policy identity
  raiseIf (value.revision ≠ body.revision) (.failure "safety_changed"
    "Refresh the current dataset safety controls before changing them." 409)
  let value := { value with revision := value.revision + 1, exemption := none }
  let s := s.policySave value
  if body.enabled then
    raiseIf (body.expiresAt.any fun at_ => at_ ≤ s.now)
      (.failure "exemption_expired" "Choose a future exemption expiry." 400)
    let current ← effective s scanner dataset
    return s.policySave { value with
      exemption := some ⟨body.reason, body.expiresAt, principal.subjectId, s.now,
        current.basisDigest⟩ }
  else
    return s

end State

variable [DecidableEq D] [Sha256 D]

/-- What an event does. -/
def perform (s : State D) : Event → Except Error (State D)
  | .tick seconds => .ok { s with now := s.now + seconds }
  | .create principal value sources => s.create principal value sources
  | .submit principal dataset key drawn => s.submit principal dataset key drawn
  | .start run => s.start run
  | .scanned run outcome => s.scanned run outcome
  | .finish run cause => s.finish run cause
  | .cancel run => s.cancel run
  | .restart => .ok s.recover
  | .update principal dataset body => s.update principal dataset body
  | .exempt principal dataset body scanner => s.exempt scanner principal dataset body
  | .configure config installed => s.configure config installed

/-- An event that raises changes nothing. -/
def step (s : State D) (event : Event) : State D :=
  match perform s event with
  | .ok s' => s'
  | .error _ => s

end Operations

end Ficc.Datasets
