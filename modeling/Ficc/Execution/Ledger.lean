import Ficc.Foundations.Table
import Ficc.Execution.Clock
import Ficc.Execution.Offer

/-!
# The execution ledger

The durable state of an executor: the local offer, one row for every attempt, and the devices
that attempts hold. Every operation is one transaction, so an operation that raises leaves the
ledger as it was. An operation is therefore a function from the ledger to `Except Error` of its
result and the new ledger.

A row keeps its columns apart from the record that it stores, as the database does: `save`
rewrites the state, the slot and the record of an existing row and leaves the other columns
alone.
-/

namespace Ficc.Execution

/-- The identity of a mounted storage slot, as `storage.verify` observes it. -/
structure Binding where
  slotId : String
  generation : ℕ
  mountId : String
  device : ℕ
  inode : ℕ
  filesystemUuid : String
  storageBytes : ℕ
  storageInodes : ℕ
  uid : ℕ
  gid : ℕ
deriving DecidableEq

/-- One administrator-confirmed empty remount. -/
structure StorageRecovery where
  before : Option Binding
  after : Binding
  observedAt : ℚ
deriving DecidableEq

/-- What a provider prepared for an attempt. -/
structure PreparedRuntime where
  positiveDevices : List String
  negativeDevices : List String
deriving DecidableEq

/-- How much of an input stream has been stored. -/
structure Receipt where
  offset : ℕ
  complete : Bool
deriving DecidableEq

/-- Why a row exists for an attempt that was never admitted. The observation lists the idle slots
that a legacy reconciliation inspected. -/
structure AdmissionRejection where
  ledgerId : Identity
  observation : Option (List (Binding × String))
deriving DecidableEq

/-- The record of an attempt. A key that the source adds later is an option or starts empty. -/
structure Value where
  plan : Plan
  planDigest : Digest
  slot : Option String
  binding : Option Binding
  state : State
  cleanupConfirmed : Bool
  leaseSequence : ℕ
  leaseExpiresAt : ℚ
  createdAt : ℚ
  reason : Option String
  exitCode : Option ℕ
  outputBytes : ℕ
  errorBytes : ℕ
  admissionRejection : Option AdmissionRejection
  timing : Option Timing
  runtimeBinding : Option String
  outcome : Option State
  storageRecovery : List StorageRecovery
  preparedRuntime : Option PreparedRuntime
  engineReleased : Bool
  payloadReleased : Bool
  pendingStop : Option String
  inputProgress : Option (Table Identity Receipt)
deriving DecidableEq

namespace Value

/-- The fence of a record. -/
def fence (value : Value) : Fence :=
  ⟨value.plan.attemptId, value.plan.generation, value.planDigest⟩

/-- The limits of the attempt's job. -/
def limits (value : Value) : Limits := value.plan.job.limits

/-- The attempt has a lease that holds at the reading. -/
def Active (value : Value) (now : Reading) : Prop :=
  active value.leaseSequence value.leaseExpiresAt value.timing now

instance (value : Value) (now : Reading) : Decidable (value.Active now) :=
  inferInstanceAs (Decidable (active _ _ _ _))

/-- The attempt holds a slot. -/
def Held (value : Value) : Prop := value.slot ≠ none

instance (value : Value) : Decidable value.Held := inferInstanceAs (Decidable (_ ≠ _))

/-- The attempt holds a slot and its cleanup is not confirmed. -/
def Running (value : Value) : Prop := value.Held ∧ value.cleanupConfirmed = false

instance (value : Value) : Decidable value.Running := inferInstanceAs (Decidable (_ ∧ _))

/-- The attempt prevents the admission of the generation: it is unreleased or not older. -/
def Blocks (value : Value) (generation : ℕ) : Prop :=
  value.state ≠ .released ∨ generation ≤ value.plan.generation

instance (value : Value) (generation : ℕ) : Decidable (value.Blocks generation) :=
  inferInstanceAs (Decidable (_ ∨ _))

end Value

/-- A row of the `attempts` table: its columns besides the key, and the stored record. -/
structure Row where
  jobId : Identity
  generation : ℕ
  planDigest : Digest
  state : State
  slot : Option String
  value : Value
deriving DecidableEq

/-- The row that is inserted for a record. -/
def Row.insert (value : Value) : Row :=
  ⟨value.plan.jobId, value.plan.generation, value.planDigest, value.state, value.slot, value⟩

/-- The row after its record has been saved. -/
def Row.update (row : Row) (value : Value) : Row :=
  { row with state := value.state, slot := value.slot, value := value }

/-- The `installation_id`, `ledger_id` and `offer` settings and the two tables of the database. -/
structure Ledger where
  identity : Identity
  installation : Identity
  offer : Option Offer
  attempts : Table Identity Row
  devices : Table String Identity
deriving DecidableEq

/-- The resources that an attempt holds until its cleanup is confirmed. -/
def executionAmounts : List (Limits → ℕ) :=
  [Limits.cpuMillis, Limits.memoryBytes, Limits.swapBytes, Limits.processes]

/-- The resources that an attempt holds as long as its slot. -/
def storageAmounts : List (Limits → ℕ) := [Limits.storageBytes, Limits.storageInodes]

/-- The fields that the executor may add to the record of an attempt. -/
inductive AnnotatedField
  | preparedRuntime (runtime : PreparedRuntime)
  | engineReleased (released : Bool)
  | payloadReleased (released : Bool)
  | pendingStop (reason : String)
  | inputProgress (progress : Table Identity Receipt)
  | unsupported (name : String)
deriving DecidableEq

/-- Writes one annotation into the record. -/
def AnnotatedField.apply (value : Value) : AnnotatedField → Value
  | .preparedRuntime runtime => { value with preparedRuntime := some runtime }
  | .engineReleased released => { value with engineReleased := released }
  | .payloadReleased released => { value with payloadReleased := released }
  | .pendingStop reason => { value with pendingStop := some reason }
  | .inputProgress progress => { value with inputProgress := some progress }
  | .unsupported _ => value

/-- The annotation is one of the supported keys. -/
def AnnotatedField.Supported : AnnotatedField → Prop
  | .unsupported _ => False
  | _ => True

instance (field : AnnotatedField) : Decidable field.Supported :=
  match field with
  | .unsupported _ => .isFalse id
  | .preparedRuntime _ => .isTrue trivial
  | .engineReleased _ => .isTrue trivial
  | .payloadReleased _ => .isTrue trivial
  | .pendingStop _ => .isTrue trivial
  | .inputProgress _ => .isTrue trivial

/-- A plan with its first lease, as the controller sends it. The validator `binding` is the two
proof fields. -/
structure Admission [Hash Plan] where
  plan : Plan
  lease : Renewal
  bound : lease.toFence = plan.fence
  first : lease.sequence = 1
deriving DecidableEq

namespace Ledger

/-- A new database of an installation, with the identity that was drawn for it. -/
def create (installation identity : Identity) : Ledger :=
  { identity, installation, offer := none, attempts := ∅, devices := ∅ }

/-- Opens an existing database. -/
def reopen (ledger : Ledger) (installation : Identity) : Except Error Ledger := do
  raiseIf (ledger.installation ≠ installation)
    (.value "The execution state belongs to another installation.")
  .ok ledger

/-- Replaces the offer by its next revision. -/
def saveOffer (ledger : Ledger) (value : Offer) (expected : ℕ) : Except Error Ledger := do
  let before := ledger.offer
  raiseIf ((before.elim 0 Offer.revision) ≠ expected ∨ value.revision ≠ expected + 1)
    (.conflict "The local offer changed. Reload it before saving.")
  raiseIf (∃ offer ∈ before, offer.mode ≠ value.mode)
    (.conflict "Only the machine administrator can change the installed contribution mode.")
  .ok { ledger with offer := some value }

/-- The record of an attempt. -/
def get (ledger : Ledger) (identity : Identity) : Option Value :=
  (ledger.attempts.lookup identity).map Row.value

/-- The records of all attempts. -/
def all (ledger : Ledger) : List Value := ledger.attempts.values.map Row.value

/-- The records of the attempts whose slot column is set. -/
def retained (ledger : Ledger) : List Value :=
  (ledger.attempts.values.filter fun row => row.slot.isSome).map Row.value

/-- The record of the attempt that a fence names. -/
def fenced (ledger : Ledger) (fence : Fence) : Except Error Value := do
  let error := Error.conflict "The operation does not name the current immutable attempt."
  let value ← orRaise (ledger.get fence.attemptId) error
  raiseIf (value.plan.generation ≠ fence.generation ∨ value.planDigest ≠ fence.planDigest) error
  .ok value

/-- Rewrites the row of a record. The `slot` column is unique. -/
def save (ledger : Ledger) (value : Value) : Except Error Ledger :=
  match ledger.attempts.lookup value.plan.attemptId with
  | none => .ok ledger
  | some row => do
    raiseIf (value.slot ≠ none ∧ ∃ other ∈ ledger.attempts.rows,
      other.1 ≠ value.plan.attemptId ∧ other.2.slot = value.slot) .integrity
    .ok { ledger with
      attempts := ledger.attempts.insert value.plan.attemptId (row.update value) }

/-- Inserts the row of a record. The key, the slot, and the job with the generation are unique. -/
def insertRow (ledger : Ledger) (value : Value) : Except Error Ledger := do
  raiseIf (ledger.attempts.lookup value.plan.attemptId ≠ none) .integrity
  raiseIf (value.slot ≠ none ∧ ∃ other ∈ ledger.attempts.values, other.slot = value.slot) .integrity
  raiseIf (∃ other ∈ ledger.attempts.values,
    other.jobId = value.plan.jobId ∧ other.generation = value.plan.generation) .integrity
  .ok { ledger with
    attempts := ledger.attempts.insert value.plan.attemptId (Row.insert value) }

/-- Inserts the devices of an attempt. The key is unique. -/
def insertDevices (ledger : Ledger) (identity : Identity) : List String → Except Error Ledger
  | [] => .ok ledger
  | device :: devices => do
    raiseIf (ledger.devices.lookup device ≠ none) .integrity
    insertDevices { ledger with devices := ledger.devices.insert device identity } identity devices

/-- Deletes the devices of an attempt. -/
def freeDevices (ledger : Ledger) (identity : Identity) : Ledger :=
  { ledger with devices := ledger.devices.discard fun _ owner => owner = identity }

/-- Adds executor annotations to the record of an attempt. -/
def annotate (ledger : Ledger) (fence : Fence) (fields : List AnnotatedField) :
    Except Error (Value × Ledger) := do
  let value ← ledger.fenced fence
  raiseIf (∃ field ∈ fields, ¬field.Supported)
    (.value "The local executor annotation is not supported.")
  let value := fields.foldl AnnotatedField.apply value
  let ledger ← ledger.save value
  .ok (value, ledger)

/-- The record of an attempt that was fenced without being admitted. -/
def rejected [Hash Plan] (ledger : Ledger) (plan : Plan) (now : ℚ)
    (observation : Option (List (Binding × String))) : Value :=
  { plan, planDigest := plan.digest, slot := none, binding := none
    state := if observation.isSome then .unknown else .failed
    cleanupConfirmed := true, leaseSequence := 0, leaseExpiresAt := 0, createdAt := now
    reason := if observation.isSome then "legacy_absence_acknowledged" else "admission_rejected"
    exitCode := none, outputBytes := 0, errorBytes := 0
    admissionRejection := some ⟨ledger.identity, observation⟩
    timing := none, runtimeBinding := none, outcome := none, storageRecovery := []
    preparedRuntime := none, engineReleased := false, payloadReleased := false
    pendingStop := none, inputProgress := none }

/-- Fences an unadmitted plan without rewriting any existing outcome. -/
def reject [Hash Plan] (ledger : Ledger) (plan : Plan) (now : ℚ)
    (observation : Option (List (Binding × String))) : Except Error (Value × Ledger) :=
  if (ledger.get plan.attemptId).isSome then do
    let value ← ledger.fenced plan.fence
    .ok (value, ledger)
  else do
    raiseIf (∃ item ∈ ledger.all, item.plan.jobId = plan.jobId ∧ item.Blocks plan.generation)
      (.conflict "A previous job generation remains reserved or the new generation is stale.")
    let value := ledger.rejected plan now observation
    let ledger ← ledger.insertRow value
    .ok (value, ledger)

/-- The record of a new reservation. -/
def reservation [Hash Plan] (plan : Plan) (slot : String) (binding : Binding) (now : ℚ) : Value :=
  { plan, planDigest := plan.digest, slot := some slot, binding := some binding
    state := .prepared, cleanupConfirmed := false, leaseSequence := 0, leaseExpiresAt := 0
    createdAt := now, reason := none, exitCode := none, outputBytes := 0, errorBytes := 0
    admissionRejection := none, timing := none, runtimeBinding := none, outcome := none
    storageRecovery := [], preparedRuntime := none, engineReleased := false
    payloadReleased := false, pendingStop := none, inputProgress := none }

/-- What the attempts that satisfy a predicate hold of a resource. -/
def used (ledger : Ledger) (holds : Value → Prop) [DecidablePred holds] (amount : Limits → ℕ) :
    ℕ :=
  ((ledger.all.filter fun item => holds item).map fun item => amount item.limits).sum

/-- Reserves only after independent configuration and OS checks have passed. -/
def reserve [Hash Plan] (ledger : Ledger) (plan : Plan) (slot : String) (binding : Binding)
    (now : ℚ) : Except Error (Value × Ledger) :=
  match ledger.get plan.attemptId with
  | some before => do
    raiseIf (before.planDigest ≠ plan.digest)
      (.conflict "The attempt identity belongs to another immutable plan.")
    .ok (before, ledger)
  | none => do
    let error := Error.conflict "The local offer is absent or changed."
    let offer ← orRaise ledger.offer error
    raiseIf (offer.revision ≠ plan.offerRevision) error
    raiseIf (offer.refusal plan.projectId plan.job now false ≠ none)
      (.conflict ((offer.refusal plan.projectId plan.job now false).getD ""))
    raiseIf (∃ item ∈ ledger.all, item.plan.jobId = plan.jobId ∧ item.Blocks plan.generation)
      (.conflict "A previous job generation remains reserved or the new generation is stale.")
    raiseIf (∃ item ∈ ledger.all, item.slot = some slot)
      (.conflict "The storage slot is reserved or awaits confirmed cleanup.")
    raiseIf (∃ amount ∈ executionAmounts,
        amount offer.limits < amount plan.job.limits + ledger.used Value.Running amount)
      (.conflict "The local offer has insufficient available resources.")
    raiseIf (∃ amount ∈ storageAmounts,
        amount offer.limits < amount plan.job.limits + ledger.used Value.Held amount)
      (.conflict "The local offer has insufficient unreserved storage.")
    raiseIf (∃ device ∈ plan.job.limits.gpuDevices, ledger.devices.lookup device ≠ none)
      (.conflict "A selected GPU is reserved or awaits confirmed cleanup.")
    let value := reservation plan slot binding now
    let ledger ← ledger.insertRow value
    let ledger ← ledger.insertDevices plan.attemptId plan.job.limits.gpuDevices
    .ok (value, ledger)

/-- Records the intent to start. Only the first request of a prepared attempt is granted. -/
def startRequested (ledger : Ledger) (fence : Fence) (now : Reading) :
    Except Error ((Value × Bool) × Ledger) := do
  let value ← ledger.fenced fence
  if value.state ≠ .prepared then .ok ((value, false), ledger)
  else do
    raiseIf (¬value.Active now)
      (.conflict "A current local execution lease is required before start.")
    let error := Error.conflict "The local offer changed before start."
    let offer ← orRaise ledger.offer error
    raiseIf (offer.revision ≠ value.plan.offerRevision) error
    raiseIf (offer.refusal value.plan.projectId value.plan.job now.wall false ≠ none)
      (.conflict ((offer.refusal value.plan.projectId value.plan.job now.wall false).getD ""))
    let value := { value with state := .starting }
    let ledger ← ledger.save value
    .ok ((value, true), ledger)

/-- Records the first observed start. -/
def started (ledger : Ledger) (fence : Fence) (binding : String) : Except Error Ledger := do
  let value ← ledger.fenced fence
  raiseIf (value.state ≠ .starting)
    (.conflict "The attempt is not awaiting its first observed start.")
  ledger.save { value with state := .running, runtimeBinding := some binding }

/-- Gives an attempt its next lease. -/
def renew (ledger : Ledger) (request : Renewal) (now : Reading) (maximumSeconds : ℚ) :
    Except Error (Value × Ledger) := do
  let value ← ledger.fenced request.toFence
  raiseIf (value.state ∉ [State.prepared, .starting, .running])
    (.conflict "A completed or uncertain attempt cannot receive a new lease.")
  raiseIf (value.leaseSequence ≠ 0 ∧ ¬value.Active now)
    (.conflict "The previous execution lease has expired.")
  let offer ← orRaise ledger.offer (.conflict "The local offer is absent.")
  raiseIf (offer.refusal value.plan.projectId value.plan.job now.wall true ≠ none)
    (.conflict ((offer.refusal value.plan.projectId value.plan.job now.wall true).getD ""))
  raiseIf (∃ amount ∈ executionAmounts,
      amount offer.limits < ledger.used Value.Running amount)
    (.conflict "The current attempts exceed the reduced local offer.")
  if request.sequence ≤ value.leaseSequence then do
    raiseIf (request.sequence ≠ value.leaseSequence ∨ request.expiresAt ≠ value.leaseExpiresAt)
      (.conflict "The execution lease sequence is stale or changed.")
    .ok (value, ledger)
  else
    match deadline request.expiresAt now maximumSeconds with
    | .error (.value text) => .error (.conflict text)
    | .error other => .error other
    | .ok timing => do
      let value := { value with
        leaseSequence := request.sequence, leaseExpiresAt := request.expiresAt
        timing := some timing }
      let ledger ← ledger.save value
      .ok (value, ledger)

/-- Reserves a plan and gives a new reservation its first lease, in one transaction. -/
def admitPlan [Hash Plan] (ledger : Ledger) (admission : Admission) (slot : String)
    (binding : Binding) (now : Reading) (maximumSeconds : ℚ) :
    Except Error ((Value × Bool) × Ledger) := do
  let before := ledger.get admission.plan.attemptId
  let (value, ledger) ← ledger.reserve admission.plan slot binding now.wall
  if before.isNone then do
    let (value, ledger) ← ledger.renew admission.lease now maximumSeconds
    .ok ((value, true), ledger)
  else .ok ((value, false), ledger)

/-- Records an observed outcome. -/
def finish (ledger : Ledger) (result : AttemptResult) : Except Error Ledger := do
  let value ← ledger.fenced result.toFence
  raiseIf (value.state = .released) (.conflict "The attempt has already been released.")
  raiseIf (result.state ∉ TERMINAL ∧ result.state ≠ .unknown)
    (.conflict "Record an observed terminal or uncertain outcome.")
  raiseIf (result.state ∈ TERMINAL ∧ result.cleanupConfirmed = false)
    (.conflict "A terminal result requires confirmed workload cleanup.")
  raiseIf (value.state ∈ TERMINAL ∧ value.state ≠ result.state)
    (.conflict "The observed terminal outcome cannot be replaced.")
  let ledger ← ledger.save { value with
    state := result.state, reason := result.reason, exitCode := result.exitCode
    outputBytes := result.outputBytes, errorBytes := result.errorBytes
    cleanupConfirmed := result.cleanupConfirmed }
  .ok (if result.cleanupConfirmed then ledger.freeDevices result.attemptId else ledger)

/-- Commits release after storage cleanup and OS identity checks, never before. -/
def release (ledger : Ledger) (fence : Fence) : Except Error (Value × Ledger) := do
  let value ← ledger.fenced fence
  if value.state = .released then .ok (value, ledger)
  else do
    raiseIf ((value.state ∉ TERMINAL ∧ value.state ≠ .unknown) ∨ value.cleanupConfirmed = false)
      (.conflict "The attempt outcome or cleanup remains unconfirmed.")
    let value := { value with outcome := some value.state, state := .released, slot := none }
    let ledger ← ledger.save value
    .ok (value, ledger.freeDevices fence.attemptId)

/-- Records an administrator-confirmed empty remount without replaying its work. -/
def recoverStorage (ledger : Ledger) (fence : Fence) (before : Option Binding)
    (binding : Binding) (observedAt : ℚ) : Except Error (Value × Ledger) := do
  let value ← ledger.fenced fence
  raiseIf (value.state = .released ∨ value.binding ≠ before)
    (.conflict "The retained storage binding changed before recovery.")
  raiseIf (64 ≤ value.storageRecovery.length)
    (.conflict "This attempt has reached its storage recovery record limit.")
  let value := { value with
    binding := some binding, cleanupConfirmed := true
    storageRecovery := value.storageRecovery ++ [⟨before, binding, observedAt⟩] }
  let value := if value.state ∈ TERMINAL then value else { value with
    state := .unknown, reason := some "storage_recovered_outcome_unknown", exitCode := none }
  let ledger ← ledger.save value
  .ok (value, ledger.freeDevices fence.attemptId)

end Ledger

end Ficc.Execution
