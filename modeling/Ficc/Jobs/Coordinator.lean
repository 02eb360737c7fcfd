import Ficc.Jobs.Helper

/-!
# The coordinator of managed jobs

The controller keeps the operations of users, each with one target per machine. A task reconciles
one target: it reads the target, calls the helper, and records what came back. Other requests run
while a task awaits, so that a task is cut at its awaits: `reconcile` up to the call, `recheck`
before the call is sent, and `respond` or `fail` after it. A task works with the target as it was
read, and with the current one only where the source reads it again.

The targets of an operation have distinct machines, and a target is found by its machine. What the
code only passes on (results, limits, the lifetime of the session) is left out.
-/

namespace Ficc.Jobs

open Execution

/-- A validated request of a user. -/
structure JobRequest where
  nodeIds : List Identity
  job : Job
  distinct : nodeIds.Nodup
  reserved : job.gpuReservations.keys ⊆ nodeIds

/-- How far a cancellation has come. -/
inductive CancelStatus
  | pending | denied | complete
deriving DecidableEq

/-- The job of an operation on one machine. -/
structure Target where
  nodeId : Identity
  jobId : Identity
  state : JobState
  error : Option String
  reservations : List Reservation
  cancelActor : Option Identity
  cancelForce : Bool
  cancelStatus : Option CancelStatus
  cancelRevision : Option Identity
  cancelError : Option String
deriving DecidableEq

/-- An operation with its targets by their machines. -/
structure Operation where
  id : Identity
  actor : Identity
  key : String
  digest : Digest
  request : JobRequest
  previewId : Identity
  targets : Table Identity Target

/-- A preview of an operation. -/
structure Preview where
  actor : Identity
  expiresAt : ℚ
  request : JobRequest
  /-- Whether each of the machines is ready. -/
  ready : List Bool

/-- The table of operations. -/
abbrev JobStore : Type := Table Identity Operation

namespace JobStore

/-- The target of an operation on a machine. -/
def target (store : JobStore) (operationId nodeId : Identity) : Option Target :=
  (store.lookup operationId).bind fun operation => operation.targets.lookup nodeId

/-- The operation of an actor under a key. -/
def existing (store : JobStore) (actor : Identity) (key : String) : Option Operation :=
  (Table.values store).find? fun operation => operation.actor = actor ∧ operation.key = key

/-- A target on the machine is not final. -/
def Active (store : JobStore) (nodeId : Identity) : Prop :=
  ∃ operation ∈ Table.values store, ∃ target ∈ Table.values operation.targets,
    target.nodeId = nodeId ∧ target.state ∉ TERMINAL

instance (store : JobStore) (nodeId : Identity) : Decidable (store.Active nodeId) :=
  inferInstanceAs (Decidable (∃ operation ∈ _, _))

/-- The devices that a target reserves. -/
def devices (target : Target) : List String := target.reservations.map Reservation.uuid

/-- The devices that targets reserve which are not final. -/
def managed (store : JobStore) : List String :=
  (Table.values store).flatMap fun operation =>
    ((Table.values operation.targets).filter fun target => target.state ∉ TERMINAL).flatMap devices

/-- Inserts an operation whose devices are free. -/
def insert (store : JobStore) (operation : Operation)
    (requireFree : List String → Except Error Unit) : Except Error JobStore := do
  raiseIf (2048 ≤ store.entries.length)
    (.failure "capacity" "Retained operation capacity is full." 409)
  requireFree ((Table.values operation.targets).flatMap devices)
  raiseIf (store.lookup operation.id ≠ none) .integrity
  .ok (AList.insert operation.id operation store)

/-- Rewrites a target. -/
def update (store : JobStore) (operationId nodeId : Identity) (change : Target → Target) :
    JobStore :=
  match store.lookup operationId with
  | none => store
  | some operation =>
    match operation.targets.lookup nodeId with
    | none => store
    | some target =>
      AList.insert operationId
        { operation with targets := operation.targets.insert nodeId (change target) } store

end JobStore

/-- A target before its dispatch. -/
def Target.queued (request : JobRequest) (jobId : Identity → Identity) (nodeId : Identity) :
    Target :=
  { nodeId, jobId := jobId nodeId, state := .queued, error := none
    reservations := request.job.reservations nodeId
    cancelActor := none, cancelForce := false, cancelStatus := none, cancelRevision := none
    cancelError := none }

/-- The targets of a request, with a job identity for each of them. -/
def JobRequest.targets (request : JobRequest) (jobId : Identity → Identity) :
    Table Identity Target :=
  ⟨request.nodeIds.map fun nodeId => ⟨nodeId, .queued request jobId nodeId⟩, by
    have hkeys : (request.nodeIds.map fun nodeId =>
        (⟨nodeId, .queued request jobId nodeId⟩ : Sigma fun _ : Identity => Target)).keys =
        request.nodeIds := by
      rw [List.keys, List.map_map]
      exact List.map_id _
    rw [List.NodupKeys, hkeys]
    exact request.distinct⟩

/-- The key is 16 to 128 printable ASCII characters. -/
def ValidKey (key : String) : Prop :=
  (16 ≤ key.length ∧ key.length ≤ 128) ∧ ∀ char ∈ key.toList, 32 ≤ char.toNat ∧ char.toNat ≤ 126

instance (key : String) : Decidable (ValidKey key) := inferInstanceAs (Decidable (_ ∧ _))

section Submission

variable [Hash JobRequest]

/-- What a submission is told by the rest of the controller: the two checks of the actor's
authority, whether the machines are still the same, and whether devices are free. -/
structure Admittance where
  check : Except Error Unit
  recheck : Except Error Unit
  unchanged : Except Error Unit
  requireFree : List String → Except Error Unit

/-- Submits the request of a preview. The identities of the operation and its jobs are drawn. -/
def submit (store : JobStore) (previews : Table Identity Preview) (previewId : Identity)
    (key : String) (actor : Identity) (now : ℚ) (operationId : Identity)
    (jobId : Identity → Identity) (admittance : Admittance) :
    Except Error (Operation × JobStore) := do
  raiseIf (¬ValidKey key) (.failure "invalid_key"
    "Use an Idempotency-Key with 16 to 128 printable ASCII characters." 400)
  let preview := previews.lookup previewId
  match store.existing actor key with
  | some old =>
    admittance.check
    raiseIf (previewId ≠ old.previewId ∧
        ∀ found ∈ preview, Hash.digest (Preview.request found) ≠ old.digest)
      (.failure "idempotency_conflict" "This key belongs to another request." 409)
    .ok (old, store)
  | none =>
    let expired := Error.failure "preview_expired" "Create a new job preview." 409
    let preview ← orRaise preview expired
    raiseIf (preview.actor ≠ actor ∨ preview.expiresAt ≤ now) expired
    let request := preview.request
    admittance.check
    raiseIf (false ∈ preview.ready) (.failure "targets_unavailable"
      "Resolve all target errors before submission." 409)
    raiseIf (∃ nodeId ∈ request.nodeIds, store.Active nodeId) (.failure "node_busy"
      "A selected machine already has an active or unknown job." 409)
    admittance.unchanged
    let operation : Operation :=
      { id := operationId, actor, key, digest := Hash.digest request, request, previewId
        targets := request.targets jobId }
    admittance.recheck
    let store ← store.insert operation admittance.requireFree
    .ok (operation, store)

end Submission

section Reconciliation

/-- A reconciliation that awaits: the target as it was read, and what it asks of the helper. -/
structure Task where
  operationId : Identity
  target : Target
  action : Action

/-- The text of a cancellation that is not complete. -/
def cancelMessage (status : Option CancelStatus) (detail : Option String) : String :=
  if status = some .denied then
    "Cancellation denied. Request again with a current credential. " ++
      ((detail.getD "").take 180).toString
  else if detail.getD "" = "" then "Cancellation pending."
  else "Cancellation pending: " ++ ((detail.getD "").take 220).toString

/-- The cancellation of a target is pending. -/
def Target.Pending (target : Target) : Prop :=
  target.cancelActor ≠ none ∧ target.cancelStatus.getD .pending = .pending

instance (target : Target) : Decidable target.Pending := inferInstanceAs (Decidable (_ ∧ _))

/-- A refused submission: the authority of its actor was refused, or the helper has said that there
is no request. -/
def Refused (code : String) (status : ℕ) : Prop :=
  status = 401 ∨ status = 403 ∨ code = "job_refused"

instance (code : String) (status : ℕ) : Decidable (Refused code status) :=
  inferInstanceAs (Decidable (_ ∨ _))

/-- The state after a failure. -/
def failureState (task : Task) (code : String) (status : ℕ) : JobState :=
  if task.target.state = .queued ∧ Refused code status then .failed else .unknown

/-- The target after a failure. -/
def failedTarget (task : Task) (code message : String) (status : ℕ) (latest : Target) : Target :=
  let state := failureState task code status
  if latest.cancelActor ≠ none ∧ state ∉ TERMINAL then
    let denied : Bool := task.target.cancelActor.isSome ∧ (status = 401 ∨ status = 403)
    let cancelStatus := if denied then .denied else latest.cancelStatus.getD .pending
    let cancelError := if cancelStatus = .denied ∧ denied = false then latest.cancelError
      else some message
    { latest with
      state := if cancelStatus = .pending then .cancelRequested else state
      error := some (cancelMessage (some cancelStatus) cancelError)
      cancelStatus := some cancelStatus, cancelError }
  else { latest with state, error := some message }

/-- Records a failure of a task, unless the target is final or another cancellation is pending. -/
def fail (store : JobStore) (task : Task) : Error → JobStore
  | .failure code message status =>
    store.update task.operationId task.target.nodeId fun latest =>
      if latest.state ∈ TERMINAL ∨ code = "cancel_superseded" then latest
      else if task.target.cancelActor ≠ none ∧
          latest.cancelRevision ≠ task.target.cancelRevision then latest
      else failedTarget task code message status latest
  | _ => store

/-- Begins to reconcile a target. A queued target is marked as dispatching before the call. -/
def reconcile (store : JobStore) (operationId nodeId : Identity) (check : Except Error Unit) :
    JobStore × Option Task :=
  match store.lookup operationId with
  | none => (store, none)
  | some operation =>
    match operation.targets.lookup nodeId with
    | none => (store, none)
    | some target =>
      if target.state ∈ TERMINAL then (store, none)
      else if target.state = .queued then
        let task : Task := ⟨operationId, target, .submit (operation.request.job.restrict nodeId) nodeId⟩
        match check with
        | .error error => (fail store task error, none)
        | .ok () =>
          (store.update operationId nodeId fun target => { target with state := .dispatching },
            some task)
      else if target.Pending then
        let task : Task := ⟨operationId, target, .cancel target.cancelForce⟩
        match check with
        | .error error => (fail store task error, none)
        | .ok () => (store, some task)
      else (store, some ⟨operationId, target, .status⟩)

/-- The check of a task right before its call is sent. -/
def recheck (store : JobStore) (task : Task) (check : Except Error Unit) : Except Error Unit :=
  match task.action with
  | .submit _ _ => check
  | .status => .ok ()
  | .cancel _ => do
    raiseIf (∃ current ∈ store.target task.operationId task.target.nodeId,
        current.state ∈ TERMINAL ∨ current.cancelRevision ≠ task.target.cancelRevision)
      (.failure "cancel_superseded" "A newer cancellation request is pending." 409)
    check

/-- The target after a response. -/
def respondedTarget (task : Task) (response : Response) (latest : Target) : Target :=
  let values := { latest with
    state := response.state
    reservations := response.reservations.getD latest.reservations
    error := response.error.getD latest.error }
  if latest.cancelActor ≠ none then
    if response.state ∈ TERMINAL then
      { values with cancelStatus := some .complete, cancelError := none }
    else if latest.cancelStatus.getD .pending = .pending then
      let cancelError :=
        if (∃ force, task.action = .cancel force) ∧
            latest.cancelRevision = task.target.cancelRevision then none
        else latest.cancelError
      { values with
        state := .cancelRequested, error := some (cancelMessage latest.cancelStatus cancelError)
        cancelError }
    else { values with error := some (cancelMessage latest.cancelStatus latest.cancelError) }
  else values

/-- Records the response of a helper, unless the target is final. -/
def respond (store : JobStore) (task : Task) (response : Response) : JobStore :=
  if response.jobId ≠ task.target.jobId ∨ response.state = .queued ∨
      response.state = .dispatching then
    fail store task (.failure "invalid_job_state" "The node returned an invalid job state." 502)
  else
    store.update task.operationId task.target.nodeId fun latest =>
      if latest.state ∈ TERMINAL then latest else respondedTarget task response latest

/-- The error of a call that the helper answered with an error. -/
def replyError (text : String) (uncertain : Bool) : Error :=
  .failure (if uncertain then "job_uncertain" else "job_refused") text 409

end Reconciliation

section Cancellation

/-- Cancels a target, at once when it is still queued. -/
def cancelTarget (actor : Identity) (force : Bool) (revision : Identity) (target : Target) :
    Target :=
  if target.state ∈ TERMINAL then target
  else if target.state = .queued then { target with state := .cancelled }
  else
    { target with
      state := .cancelRequested, error := some "Cancellation pending.", cancelActor := some actor
      cancelForce := force, cancelStatus := some .pending, cancelRevision := some revision
      cancelError := none }

/-- Cancels targets of an operation. -/
def cancel (store : JobStore) (operationId : Identity) (nodeIds : List Identity) (force : Bool)
    (actor : Identity) (revision : Identity → Identity) (check : Except Error Unit) :
    Except Error JobStore := do
  let operation ← orRaise (store.lookup operationId)
    (.failure "not_found" "The operation was not found." 404)
  check
  raiseIf (¬nodeIds ⊆ operation.targets.keys)
    (.failure "invalid_nodes" "Select machines in this operation." 400)
  .ok (nodeIds.foldl (fun store nodeId =>
    store.update operationId nodeId (cancelTarget actor force (revision nodeId))) store)

end Cancellation

end Ficc.Jobs
