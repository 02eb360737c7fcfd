import Ficc.Foundations.Transition
import Ficc.Jobs.Targets

/-!
# Managed jobs, from the controller to the helpers

The controller with its tasks, one helper per machine, and the calls and replies that are on their
way. A call is handled at most once, at any later time or never, and its reply may be lost. A task
may stop to wait for a reply at any time, because the connection fails or the controller stops.
The helper of a lost connection may still handle the call. A restart of the controller loses all
tasks and previews.

Calls are numbered, because a reply belongs to the process that made the call. Identities that are
drawn at random are assumed to be new. The history lists the submissions that were sent, the
targets that were cancelled while they were queued, and those that were recorded as failed after a
refusal, the newest event first. It is not read by any step.
-/

namespace Ficc.Jobs

open Execution

/-- How far a task has come. -/
inductive Phase
  /-- The task waits for a worker. -/
  | started (operationId nodeId : Identity)
  /-- The task prepares the connection. -/
  | composing (task : Task)
  /-- The task waits for the reply to a call. -/
  | waiting (task : Task) (number : ℕ)

/-- A call on its way to a helper. -/
structure Call where
  number : ℕ
  nodeId : Identity
  payload : Payload

/-- What happens to a job. -/
inductive JobEvent
  /-- The submission of the job is sent. -/
  | sent (jobId : Identity) (number : ℕ)
  /-- The job is cancelled while it is queued. -/
  | withdrawn (jobId : Identity)
  /-- The job is recorded as failed because its submission was refused. -/
  | refused (jobId : Identity)
deriving DecidableEq

/-- The event sends the submission of the job. -/
def JobEvent.sends (jobId : Identity) : JobEvent → Bool
  | .sent other _ => other == jobId
  | _ => false

/-- The controller, the helpers, and what is on its way between them. -/
structure Machine where
  controllerId : Identity
  store : JobStore
  previews : Table Identity Preview
  /-- The running task of a job. -/
  tasks : Table Identity Phase
  helpers : Identity → Helper
  calls : List Call
  replies : List (ℕ × Reply)
  /-- The number of calls so far. -/
  sent : ℕ
  /-- The identities that have been drawn. -/
  drawn : Finset Identity
  history : List JobEvent

namespace Machine

/-- A machine without operations. -/
def initial (controllerId : Identity) : Machine :=
  { controllerId, store := ∅, previews := ∅, tasks := ∅, helpers := fun _ => .empty, calls := []
    replies := [], sent := 0, drawn := ∅, history := [] }

/-- A step of the controller, of a helper, or of the network. -/
inductive Step
  | preview (previewId : Identity) (preview : Preview)
  | submit (previewId : Identity) (key : String) (actor : Identity) (now : ℚ)
    (operationId : Identity) (jobId : Identity → Identity) (admittance : Admittance)
  /-- The poller starts a task for a target. -/
  | poll (operationId nodeId : Identity)
  /-- A task gets a worker. -/
  | begin (jobId : Identity) (check : Except Error Unit)
  /-- A task sends its call. -/
  | send (jobId : Identity) (check : Except Error Unit)
  /-- A helper handles a call. -/
  | handle (index : ℕ) (env : Environment)
  /-- A call is lost. -/
  | lose (index : ℕ)
  /-- A task gets a reply. -/
  | answer (jobId : Identity) (index : ℕ)
  /-- A reply is lost. -/
  | drop (index : ℕ)
  /-- The connection of a task fails. -/
  | fail (jobId : Identity) (code message : String) (status : ℕ)
  /-- A task is cancelled. -/
  | abandon (jobId : Identity)
  | restart
  | cancel (operationId : Identity) (nodeIds : List Identity) (force : Bool) (actor : Identity)
    (revision : Identity → Identity) (check : Except Error Unit)
  /-- The runner of a job writes its result. -/
  | complete (nodeId jobId : Identity) (result : JobState)

/-- The state of a target. -/
def stateOf (store : JobStore) (operationId nodeId : Identity) : Option JobState :=
  (store.target operationId nodeId).map Target.state

/-- Ends a task with a failure. -/
def failTask (s : Machine) (jobId : Identity) (task : Task) (error : Error) : Machine :=
  let store := Jobs.fail s.store task error
  { s with
    store, tasks := s.tasks.erase jobId
    history :=
      if stateOf s.store task.operationId task.target.nodeId ≠ some .failed ∧
          stateOf store task.operationId task.target.nodeId = some .failed then
        .refused jobId :: s.history
      else s.history }

/-- The queued targets among machines of an operation. -/
def queuedJobs (store : JobStore) (operationId : Identity) (nodeIds : List Identity) :
    List Identity :=
  nodeIds.filterMap fun nodeId => (store.target operationId nodeId).bind fun target =>
    if target.state = .queued then some target.jobId else none

/-- The failures of a connection: neither the authority of the actor nor the helper refuses. -/
def Connection (code : String) (status : ℕ) : Prop :=
  ¬Refused code status ∧ code ≠ "cancel_superseded"

instance (code : String) (status : ℕ) : Decidable (Connection code status) :=
  inferInstanceAs (Decidable (_ ∧ _))

variable [Hash JobRequest] [Hash (Job × Identity)]

/-- One step. -/
def step (s : Machine) : Step → Machine
  | .preview previewId preview => { s with previews := s.previews.insert previewId preview }
  | .submit previewId key actor now operationId jobId admittance =>
    match submit s.store s.previews previewId key actor now operationId jobId admittance with
    | .error _ => s
    | .ok (operation, store) =>
      let jobIds := operation.request.nodeIds.map jobId
      -- The identities are new and different from each other.
      if (∃ id ∈ jobIds, id ∈ s.drawn) ∨ ¬jobIds.Nodup then s
      else { s with store, drawn := s.drawn ∪ jobIds.toFinset }
  | .poll operationId nodeId =>
    match s.store.target operationId nodeId with
    | none => s
    | some target =>
      if target.state ∈ TERMINAL ∨ s.tasks.lookup target.jobId ≠ none then s
      else { s with tasks := s.tasks.insert target.jobId (.started operationId nodeId) }
  | .begin jobId check =>
    match s.tasks.lookup jobId with
    | some (.started operationId nodeId) =>
      match reconcile s.store operationId nodeId check with
      | (store, some task) => { s with store, tasks := s.tasks.insert jobId (.composing task) }
      | (store, none) =>
        { s with
          store, tasks := s.tasks.erase jobId
          history :=
            if stateOf s.store operationId nodeId ≠ some .failed ∧
                stateOf store operationId nodeId = some .failed then
              .refused jobId :: s.history
            else s.history }
    | _ => s
  | .send jobId check =>
    match s.tasks.lookup jobId with
    | some (.composing task) =>
      match recheck s.store task check with
      | .error error => s.failTask jobId task error
      | .ok () =>
        { s with
          tasks := s.tasks.insert jobId (.waiting task s.sent)
          calls := ⟨s.sent, task.target.nodeId,
            ⟨s.controllerId, task.target.jobId, task.action⟩⟩ :: s.calls
          sent := s.sent + 1
          history := match task.action with
            | .submit _ _ => .sent task.target.jobId s.sent :: s.history
            | _ => s.history }
    | _ => s
  | .handle index env =>
    match s.calls[index]? with
    | none => s
    | some call =>
      let result := (s.helpers call.nodeId).main env call.payload
      { s with
        helpers := Function.update s.helpers call.nodeId result.1
        calls := s.calls.eraseIdx index, replies := (call.number, result.2) :: s.replies }
  | .lose index => { s with calls := s.calls.eraseIdx index }
  | .answer jobId index =>
    match s.tasks.lookup jobId, s.replies[index]? with
    | some (.waiting task number), some (number', reply) =>
      if number = number' then
        match reply with
        | .result response =>
          { s with store := respond s.store task response, tasks := s.tasks.erase jobId }
        | .error text uncertain => s.failTask jobId task (replyError text uncertain)
      else s
    | _, _ => s
  | .drop index => { s with replies := s.replies.eraseIdx index }
  | .fail jobId code message status =>
    if Connection code status then
      match s.tasks.lookup jobId with
      | some (.composing task) => s.failTask jobId task (.failure code message status)
      | some (.waiting task _) => s.failTask jobId task (.failure code message status)
      | _ => s
    else s
  | .abandon jobId => { s with tasks := s.tasks.erase jobId }
  | .restart => { s with tasks := ∅, previews := ∅ }
  | .cancel operationId nodeIds force actor revision check =>
    match cancel s.store operationId nodeIds force actor revision check with
    | .error _ => s
    | .ok store =>
      { s with
        store
        history := (queuedJobs s.store operationId nodeIds).map .withdrawn ++ s.history }
  | .complete nodeId jobId result =>
    if result ∈ TERMINAL then
      { s with
        helpers := Function.update s.helpers nodeId ((s.helpers nodeId).complete jobId result) }
    else s

end Machine

end Ficc.Jobs
