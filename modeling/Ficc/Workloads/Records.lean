import Ficc.Workloads.Schema

/-!
# The controller's store

The tables of jobs, attempts and observed nodes, with the tables of other modules that they refer
to, and the operations of `Records` on them. As in the executor's ledger, an operation is one
transaction: a function to `Except Error`, which leaves the store as it was when it raises.

An operation reads the clock once. The rows keep their columns apart from the stored record,
because the restore-time validation compares the two. Audit entries are not modelled.
-/

namespace Ficc.Workloads

open Execution

/-- A row of `workload_jobs`. -/
structure JobRow where
  subjectId : Identity
  projectId : Identity
  key : String
  digest : Digest
  value : Record
deriving DecidableEq

/-- A row of `workload_attempts`. -/
structure AttemptRow where
  jobId : Identity
  nodeId : Identity
  value : Attempt
deriving DecidableEq

/-- The tables that the workload code reads and writes. -/
structure Store where
  projects : List Identity
  identities : List Identity
  contributors : Table Identity Contributor
  jobs : Table Identity JobRow
  attempts : Table Identity AttemptRow
  nodes : Table Identity Observation
  /-- The revision of the policy state. -/
  policyRevision : ℕ
  /-- The devices that managed SSH jobs reserve. -/
  managed : List String
deriving DecidableEq

/-- A result of a validation that failed. -/
def invalid : Error := .value "validation error"

namespace Store

/-- A job. -/
def job (store : Store) (identity : Identity) : Except Error Record :=
  orRaise ((store.jobs.lookup identity).map JobRow.value)
    (.failure "not_found" "The workload was not found." 404)

/-- An attempt. -/
def attempt (store : Store) (identity : Identity) : Except Error Attempt :=
  orRaise ((store.attempts.lookup identity).map AttemptRow.value)
    (.failure "not_found" "The workload attempt was not found." 404)

/-- The attempts whose node column is the node. -/
def attemptsOn (store : Store) (nodeId : Identity) : List Attempt :=
  (store.attempts.values.filter fun row => row.nodeId = nodeId).map AttemptRow.value

/-- All attempts. -/
def allAttempts (store : Store) : List Attempt := store.attempts.values.map AttemptRow.value

/-- Validates a job and rewrites its row, with its next revision. -/
def saveJob (store : Store) (value : Record) (now : ℚ) : Except Error (Record × Store) := do
  let value := { value with
    updatedAt := max value.updatedAt now, revision := value.revision + 1 }
  raiseIf (¬value.Valid) invalid
  match store.jobs.lookup value.id with
  | none => .ok (value, store)
  | some row => .ok (value, { store with jobs := store.jobs.insert value.id { row with value } })

/-- Validates an attempt and rewrites its row. -/
def saveAttempt [Hash Plan] (store : Store) (value : Attempt) (now : ℚ) :
    Except Error (Attempt × Store) := do
  let value := { value with updatedAt := max value.updatedAt now }
  raiseIf (¬value.Valid) invalid
  match store.attempts.lookup value.id with
  | none => .ok (value, store)
  | some row =>
    .ok (value, { store with attempts := store.attempts.insert value.id { row with value } })

/-- The job that a submission creates, with the identity drawn for it. -/
def submitted [Hash Submission] (request : Submission) (key : String) (delegation : Delegation)
    (id : Identity) (now : ℚ) : Record :=
  { id, subjectId := delegation.subjectId, projectId := delegation.projectId
    actor := delegation.credentialId, key, digest := Hash.digest request, request, delegation
    state := .queued, reason := none, currentAttempt := none, generation := 0, cancelled := false
    createdAt := now, updatedAt := now, revision := 1 }

/-- Submits a job. A repeated request returns the job of its first. -/
def submit [Hash Submission] (store : Store) (request : Submission) (key : String)
    (delegation : Delegation) (id : Identity) (now : ℚ) : Except Error (Record × Store) :=
  match store.jobs.values.find? fun row =>
      row.subjectId = delegation.subjectId ∧ row.projectId = delegation.projectId ∧
        row.key = key with
  | some row => do
    raiseIf (row.value.digest ≠ Hash.digest request)
      (.failure "idempotency_conflict" "This request key already identifies another workload." 409)
    .ok (row.value, store)
  | none => do
    raiseIf (2048 ≤ store.jobs.entries.length)
      (.failure "capacity" "Retained workload capacity is full. Remove completed records first."
        409)
    let value := submitted request key delegation id now
    raiseIf (¬value.Valid) invalid
    raiseIf (store.jobs.lookup id ≠ none) .integrity
    .ok (value, { store with
      jobs := store.jobs.insert id
        ⟨value.subjectId, value.projectId, value.key, value.digest, value⟩ })

/-- The devices are free of managed jobs and of attempts without observed cleanup. -/
def requireFree (store : Store) (devices : List String) : Except Error Unit := do
  raiseIf (∃ device ∈ devices, device ∈ store.managed)
    (.failure "gpu_reserved" "A selected GPU is reserved by a managed SSH job." 409)
  raiseIf (∃ item ∈ store.allAttempts, item.state ≠ .released ∧
      (∀ observed ∈ item.observed, observed.cleanupConfirmed = false) ∧
      ∃ device ∈ devices, device ∈ item.plan.job.limits.gpuDevices)
    (.failure "gpu_reserved"
      "A selected GPU is reserved by contributor execution or an inference service." 409)

/-- The resources that a reservation counts. -/
def amounts : List (Limits → ℕ) := executionAmounts ++ storageAmounts

/-- The attempt that a reservation creates. -/
def reserved (jobId : Identity) (plan : Plan) (lease : Renewal) (installationId : Identity)
    (ledgerId : Option Identity) (admissionVersion : ℕ) (now : ℚ) : Attempt :=
  { id := plan.attemptId, jobId, nodeId := plan.nodeId, installationId, ledgerId
    admissionVersion, plan, lease, observed := none, outcome := none, startRequested := false
    state := .preparing, createdAt := now, updatedAt := now }

/-- Reserves the next attempt of a queued job. -/
def reserve [Hash Plan] (store : Store) (plan : Plan) (lease : Renewal)
    (installationId : Identity) (capacity : Limits) (ledgerId : Option Identity)
    (admissionVersion : ℕ) (now : ℚ) : Except Error (Attempt × Store) := do
  let job ← store.job plan.jobId
  raiseIf (job.cancelled = true ∨ job.state ≠ .queued ∨ job.generation + 1 ≠ plan.generation ∨
      job.subjectId ≠ plan.subjectId ∨ job.projectId ≠ plan.projectId ∨
      plan.nodeId ∉ job.request.nodeIds ∨ job.request.job ≠ plan.job ∨
      store.policyRevision ≠ plan.policyRevision)
    (.failure "workload_changed" "The queued workload or its authority changed." 409)
  raiseIf (lease.sequence ≠ 1 ∨ lease.expiresAt ≤ now)
    (.failure "lease_expired" "The first workload lease is invalid or expired." 409)
  let held := (store.attemptsOn plan.nodeId).filter fun item => item.state ≠ .released
  let limits := plan.job.limits
  store.requireFree limits.gpuDevices
  raiseIf (¬limits.fits capacity)
    (.failure "capacity" "The workload exceeds the offered node capacity." 409)
  raiseIf (∃ amount ∈ amounts, amount capacity <
      (held.map fun item => amount item.plan.job.limits).sum + amount limits)
    (.failure "capacity" "The node capacity is reserved by another attempt." 409)
  raiseIf (∃ item ∈ held, ∃ device ∈ limits.gpuDevices,
      device ∈ item.plan.job.limits.gpuDevices)
    (.failure "capacity" "A selected GPU is reserved by another attempt." 409)
  raiseIf (8192 ≤ store.attempts.entries.length)
    (.failure "capacity" "Retained attempt capacity is full. Remove completed records first." 409)
  let attempt := reserved job.id plan lease installationId ledgerId admissionVersion now
  raiseIf (¬attempt.Valid) invalid
  raiseIf (store.attempts.lookup attempt.id ≠ none) .integrity
  let store := { store with
    attempts := store.attempts.insert attempt.id ⟨job.id, attempt.nodeId, attempt⟩ }
  let (_, store) ← store.saveJob { job with
    currentAttempt := some attempt.id, generation := plan.generation
    state := .preparing, reason := none } now
  .ok (attempt, store)

/-- The result is a final outcome: terminal, or uncertain with confirmed cleanup. -/
def Conclusive (result : AttemptResult) : Prop :=
  result.state ∈ TERMINAL ∨ result.state = .unknown ∧ result.cleanupConfirmed = true

instance : DecidablePred Conclusive := fun _ => inferInstanceAs (Decidable (_ ∨ _))

/-- Two results agree in everything except the confirmation of the cleanup. -/
def SameOutcome (first second : AttemptResult) : Prop :=
  first.toFence = second.toFence ∧ first.state = second.state ∧ first.reason = second.reason ∧
    first.exitCode = second.exitCode ∧ first.outputBytes = second.outputBytes ∧
    first.errorBytes = second.errorBytes

instance (first second : AttemptResult) : Decidable (SameOutcome first second) :=
  inferInstanceAs (Decidable (_ ∧ _))

/-- The attempt after an accepted observation. -/
def observedAttempt (attempt : Attempt) (result : AttemptResult) : Attempt :=
  { attempt with
    outcome := if Conclusive result then some result else attempt.outcome
    observed := some result, state := result.state }

/-- Saves the job of an observation when its state or reason changes. A released attempt needs a
job with an outcome instead. -/
def followJob (store : Store) (job : Record) (outcome : Option AttemptResult)
    (result : AttemptResult) (now : ℚ) : Except Error Store :=
  if result.state ≠ .released then
    if (job.state, job.reason) ≠ (result.state, result.reason) then
      (store.saveJob { job with state := result.state, reason := result.reason } now).map Prod.snd
    else .ok store
  else do
    raiseIf ((job.state ∉ TERMINAL ∧ job.state ≠ .unknown) ∨ outcome = none)
      (.failure "attempt_changed" "Observe the final workload outcome before releasing its storage."
        409)
    .ok store

/-- Records what an executor observed of an attempt. -/
def observation [Hash Plan] (store : Store) (result : AttemptResult) (nodeId : Identity)
    (installationId : Identity) (now : ℚ) : Except Error (Attempt × Store) := do
  let attempt ← store.attempt result.attemptId
  raiseIf (attempt.state = .abandoned)
    (.failure "attempt_abandoned"
      "A retired contributor attempt cannot resume or change its recorded outcome." 409)
  raiseIf ((attempt.nodeId, attempt.installationId) ≠ (nodeId, installationId) ∨
      result.generation ≠ attempt.plan.generation ∨ result.planDigest ≠ attempt.plan.digest)
    (.failure "attempt_changed" "The result does not bind this node and immutable attempt." 409)
  if attempt.state = .released then do
    raiseIf (some result ≠ attempt.observed)
      (.failure "attempt_changed" "A released attempt cannot change its recorded result." 409)
    .ok (attempt, store)
  else do
    raiseIf (attempt.state ∈ TERMINAL ∧ result.state ∉ [attempt.state, .released, .unknown])
      (.failure "attempt_changed" "The observed attempt cannot return to an active state." 409)
    raiseIf ((attempt.startRequested = true ∨ attempt.state = .starting ∨
        attempt.state = .running) ∧ result.state = .prepared)
      (.failure "attempt_changed" "The observed attempt cannot repeat preparation." 409)
    let job ← store.job attempt.jobId
    raiseIf (job.currentAttempt ≠ some attempt.id)
      (.failure "attempt_changed" "The result belongs to an earlier workload attempt." 409)
    raiseIf (Conclusive result ∧ ∃ outcome ∈ attempt.outcome, ¬SameOutcome outcome result)
      (.failure "attempt_changed" "The final workload outcome cannot change." 409)
    let attempt := observedAttempt attempt result
    let store ← store.followJob job attempt.outcome result now
    store.saveAttempt attempt now

/-- The transitions that the controller decides. -/
def transitions : List (State × State) :=
  [(.prepared, .starting), (.preparing, .unknown), (.starting, .unknown), (.running, .unknown),
    (.prepared, .unknown)]

/-- Records dispatch intent before sending an operation with external effects. -/
def transition [Hash Plan] (store : Store) (identity : Identity) (expected state : State)
    (reason : Option String) (now : ℚ) : Except Error (Attempt × Store) := do
  raiseIf ((expected, state) ∉ transitions)
    (.value "The controller attempt transition is invalid.")
  let attempt ← store.attempt identity
  let job ← store.job attempt.jobId
  raiseIf (attempt.state ≠ expected ∨ job.currentAttempt ≠ some identity ∨
      (job.cancelled = true ∧ state = .starting))
    (.failure "attempt_changed" "The workload attempt changed before dispatch." 409)
  let (attempt, store) ← store.saveAttempt { attempt with
    state, startRequested := if state = .starting then true else attempt.startRequested } now
  let (_, store) ← store.saveJob { job with state, reason } now
  .ok (attempt, store)

/-- Validates a lease. -/
def validateRenewal (fence : Fence) (sequence : ℕ) (expiresAt : ℚ) : Except Error Renewal :=
  if h : (1 ≤ sequence ∧ sequence ≤ maximumRevision) ∧ 0 < expiresAt then
    .ok { fence with sequence, expiresAt, sequence_pos := h.1.1, expiresAt_pos := h.2 }
  else .error invalid

/-- Records the next lease of an attempt before it is sent. -/
def renew [Hash Plan] (store : Store) (identity : Identity) (expiresAt : ℚ) (now : ℚ) :
    Except Error (Renewal × Store) := do
  let attempt ← store.attempt identity
  let job ← store.job attempt.jobId
  raiseIf (attempt.state ∉ [State.prepared, .starting, .running] ∨ job.cancelled = true ∨
      job.currentAttempt ≠ some identity ∨ attempt.lease.expiresAt ≤ now ∨
      ¬(attempt.lease.expiresAt < expiresAt ∧ expiresAt ≤ now + 30))
    (.failure "lease_expired" "The current workload lease cannot be renewed." 409)
  let lease ← validateRenewal ⟨identity, attempt.plan.generation, attempt.plan.digest⟩
    (attempt.lease.sequence + 1) expiresAt
  let (_, store) ← store.saveAttempt { attempt with lease } now
  .ok (lease, store)

/-- Cancels a job, at once when it is still queued. -/
def cancel (store : Store) (identity : Identity) (revision : ℕ) (now : ℚ) :
    Except Error (Record × Store) := do
  let job ← store.job identity
  raiseIf (job.revision ≠ revision)
    (.failure "revision_conflict" "The workload changed. Reload it before cancelling." 409)
  store.saveJob (if job.state = .queued then
    { job with
      cancelled := true, state := .cancelled, reason := some "cancelled_before_dispatch" }
    else { job with cancelled := true }) now

/-- The current attempt of a job has been released, if there is one. -/
def currentReleased (store : Store) (job : Record) : Except Error Bool :=
  match job.currentAttempt with
  | none => .ok true
  | some current => do
    let attempt ← store.attempt current
    .ok (decide (attempt.state = .released))

/-- Queues a completed job again. -/
def retry (store : Store) (identity : Identity) (revision : ℕ) (delegation : Delegation)
    (acknowledgeUnknown : Bool) (now : ℚ) : Except Error (Record × Store) := do
  let error := Error.failure "workload_unresolved"
    "Retry requires a completed workload with confirmed storage release." 409
  let job ← store.job identity
  raiseIf (job.revision ≠ revision ∨
    (job.state ∉ TERMINAL ∧ ¬(acknowledgeUnknown = true ∧ job.state = .unknown))) error
  let released ← store.currentReleased job
  raiseIf (released = false) error
  store.saveJob { job with
    delegation, state := .queued, reason := none, cancelled := false } now

/-- Notes why a queued job waits. -/
def pending (store : Store) (identity : Identity) (reason : String) (now : ℚ) :
    Except Error (Record × Store) := do
  let job ← store.job identity
  if job.state = .queued ∧ job.reason ≠ some reason then
    store.saveJob { job with reason := some reason } now
  else .ok (job, store)

/-- The outcome that an abandoned attempt without one gets. -/
def abandonedOutcome [Hash Plan] (attempt : Attempt) : AttemptResult :=
  { attemptId := attempt.id, generation := attempt.plan.generation
    planDigest := attempt.plan.digest, state := .unknown, reason := some "operator_abandoned"
    exitCode := none, outputBytes := attempt.observed.elim 0 AttemptResult.outputBytes
    errorBytes := attempt.observed.elim 0 AttemptResult.errorBytes, cleanupConfirmed := false
    reported := State.reported_unknown
    released_cleanup := State.released_unknown
    succeeded_exitCode := State.succeeded_unknown }

/-- A contributor. -/
def contributor (store : Store) (identity : Identity) : Except Error Contributor :=
  orRaise (store.contributors.lookup identity)
    (.failure "not_found" "The contributor record was not found." 404)

/-- Gives up an unresolved attempt of a revoked contributor. -/
def abandon [Hash Plan] (store : Store) (identity : Identity) (revision : ℕ) (now : ℚ) :
    Except Error (Record × Store) := do
  let error := Error.failure "workload_unresolved"
    "Reload an unknown attempt before abandoning the retired contributor record." 409
  let job ← store.job identity
  raiseIf (job.revision ≠ revision ∨ job.state ≠ .unknown) error
  let current ← orRaise job.currentAttempt error
  let attempt ← store.attempt current
  raiseIf (attempt.state = .released ∨ attempt.state = .abandoned)
    (.failure "attempt_changed" "The workload attempt no longer holds an unresolved reservation."
      409)
  let node ← store.contributor attempt.nodeId
  raiseIf (node.disabled = false)
    (.failure "contributor_active"
      "Revoke this contributor identity before abandoning its unresolved attempts." 409)
  let (_, store) ← store.saveAttempt { attempt with
    state := .abandoned
    outcome := some (attempt.outcome.getD (abandonedOutcome attempt)) } now
  store.saveJob { job with cancelled := true, reason := some "operator_abandoned" } now

/-- The attempt no longer holds a reservation. -/
def Retired (attempt : Attempt) : Prop := attempt.state = .released ∨ attempt.state = .abandoned

instance : DecidablePred Retired := fun _ => inferInstanceAs (Decidable (_ ∨ _))

/-- Removes a completed job with its attempts. -/
def remove (store : Store) (identity : Identity) (revision : ℕ) : Except Error Store := do
  let job ← store.job identity
  let attempts := store.allAttempts.filter fun item => item.jobId = job.id
  raiseIf (job.revision ≠ revision ∨
      (job.state ∉ TERMINAL ∧
        ¬(job.state = .unknown ∧ attempts ≠ [] ∧ ∀ item ∈ attempts, Retired item)) ∨
      ∃ item ∈ attempts, ¬Retired item)
    (.failure "workload_unresolved" "Remove only completed workloads with released attempts." 409)
  .ok { store with
    attempts := store.attempts.discard fun _ row => row.jobId = identity
    jobs := store.jobs.erase identity }

section Contributors

/-- An attempt ran on the contributor, or a job that is not completed may still run on it. -/
def RetainedForNode (store : Store) (identity : Identity) : Prop :=
  (∃ row ∈ store.attempts.values, row.nodeId = identity) ∨
    ∃ row ∈ store.jobs.values,
      identity ∈ row.value.request.nodeIds ∧ row.value.state ∉ TERMINAL

instance (store : Store) (identity : Identity) : Decidable (store.RetainedForNode identity) :=
  inferInstanceAs (Decidable (_ ∨ _))

/-- Enrolls a contributor for an invitation to a project. The invitation and the certificate
request are not modelled. -/
def enroll (store : Store) (identity project : Identity) (mode : Mode) : Except Error Store := do
  raiseIf (project ∉ store.projects) (.failure "not_found" "The project was not found." 404)
  raiseIf (store.contributors.lookup identity ≠ none) .integrity
  .ok { store with contributors := store.contributors.insert identity ⟨project, mode, false, 1⟩ }

/-- Activates a certificate of a contributor. -/
def activate (store : Store) (identity : Identity) : Except Error Store := do
  let node ← store.contributor identity
  raiseIf (node.disabled = true)
    (.failure "node_unauthorized" "The contributor certificate is not currently authorized." 403)
  .ok { store with
    contributors := store.contributors.insert identity
      { node with revision := node.revision + 1 } }

/-- Revokes a contributor. -/
def disable (store : Store) (identity : Identity) (revision : ℕ) (project : Identity) :
    Except Error Store := do
  let node ← store.contributor identity
  raiseIf (node.projectId ≠ project) (.failure "not_found" "The contributor was not found." 404)
  raiseIf (node.revision ≠ revision)
    (.failure "revision_conflict" "The contributor changed. Reload it before revocation." 409)
  .ok { store with
    contributors := store.contributors.insert identity
      { node with disabled := true, revision := revision + 1 } }

/-- Removes a revoked contributor without retained workloads. -/
def removeContributor (store : Store) (identity : Identity) (revision : ℕ) (project : Identity) :
    Except Error Store := do
  let node ← store.contributor identity
  raiseIf (node.projectId ≠ project) (.failure "not_found" "The contributor was not found." 404)
  raiseIf (node.revision ≠ revision ∨ node.disabled = false)
    (.failure "revision_conflict" "Revoke the contributor and reload it before removal." 409)
  raiseIf (store.RetainedForNode identity)
    (.failure "workload_retained"
      "Resolve and remove retained workloads before removing this contributor." 409)
  .ok { store with
    nodes := store.nodes.erase identity, contributors := store.contributors.erase identity }

/-- The snapshot comes from another installation or ledger than the one before it. -/
def Replaced (previous snapshot : Snapshot) : Prop :=
  previous.installationId ≠ snapshot.installationId ∨
    (previous.ledgerId ≠ none ∧ previous.ledgerId ≠ snapshot.ledgerId)

instance (previous snapshot : Snapshot) : Decidable (Replaced previous snapshot) :=
  inferInstanceAs (Decidable (_ ∨ _))

/-- Accepts a snapshot after the one that is stored. -/
def acceptSnapshot (store : Store) (snapshot : Snapshot) : Except Error Unit :=
  match store.nodes.lookup snapshot.nodeId with
  | none => .ok ()
  | some row => do
    let previous := row.snapshot
    raiseIf (Replaced previous snapshot ∧
        ∃ item ∈ store.attemptsOn snapshot.nodeId, item.state ≠ .released)
      (.failure "executor_replaced"
        "Resolve retained attempts before accepting a replacement executor ledger." 409)
    raiseIf (previous.installationId = snapshot.installationId ∧
        (snapshot.offer.revision < previous.offer.revision ∨
          (previous.offer.revision = snapshot.offer.revision ∧ previous.offer ≠ snapshot.offer)))
      (.failure "offer_changed" "The local offer revision is stale or inconsistent." 409)

/-- Stores the snapshot of a node without its attempts. -/
def saveNode (store : Store) (snapshot : Snapshot) (now : ℚ) : Except Error Store := do
  store.acceptSnapshot snapshot
  raiseIf (now < 0) invalid
  .ok { store with
    nodes := store.nodes.insert snapshot.nodeId
      ⟨{ snapshot with attempts := [], next := none }, now⟩ }

end Contributors

end Store

end Ficc.Workloads
