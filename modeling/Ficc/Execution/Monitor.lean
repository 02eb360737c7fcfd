import Ficc.Foundations.Transition
import Ficc.Execution.Supervisor

/-!
# The monitor and the runs of an executor

The monitor collects finished pool work, stops attempts that may not go on, observes running
ones, and cleans up after a restart. `Supervisor.step` makes the executor a machine: its actions
are the requests of the controller and of the local owner, the steps of the monitor for one
attempt, the sections of pool work that take the lock, and restarts. An action that raises keeps
what it has committed.
-/

namespace Ficc.Execution

/-- What finished pool work returns. -/
inductive Harvest
  | prepared (runtime : PreparedRuntime)
  | initialized (progress : Table Identity Receipt)
  | done
deriving DecidableEq

/-- What the monitor observes of a running attempt. -/
inductive Sighting
  /-- The runtime has finished. -/
  | finished
  /-- The unit has ended or is gone without a finished runtime. -/
  | gone
  /-- The engine waits at its barrier, with the approved devices or with others. -/
  | ready (approved : Bool)
  /-- The payload waits at its barrier. -/
  | payload
  /-- Nothing to do. -/
  | quiet
  /-- The observation raised. -/
  | failed
deriving DecidableEq

/-- The reason to stop an attempt after an error. -/
def stopReason (value : Value) (error : Error) (default : String) : String :=
  match value.pendingStop with
  | some reason => reason
  | none =>
    match error with
    | .conflict text =>
      if text = "local_stopped" then "cancelled"
      else if text = "execution_lease_expired" then "expired" else default
    | _ => default

namespace Supervisor

section Definitions

variable [Hash Plan]

/-- Stores the result of finished pool work. -/
def collectWork (s : Supervisor) (value : Value) (result : Except Error Harvest) (now : Reading) :
    Except Error Supervisor := do
  let harvest ← result
  s.current value now
  match harvest with
  | .prepared runtime => do
    let (_, ledger) ← s.ledger.annotate value.fence [.preparedRuntime runtime]
    .ok { s with ledger }
  | .initialized progress => do
    let (value, ledger) ← s.ledger.annotate value.fence [.inputProgress progress]
    .ok (({ s with ledger } : Supervisor).queuePreparation value)
  | .done => .ok s

/-- The reason that failed pool work gives. -/
def Work.failure : Work → String
  | .inputs => "prepare_failed"
  | .prepare => "prepare_failed"
  | .start => "start_unconfirmed"
  | .engineBarrier => "runtime_boundary_failed"
  | .payloadBarrier => "runtime_boundary_failed"

/-- Collects the finished pool work of an attempt. -/
def harvest (s : Supervisor) (id : Identity) (result : Except Error Harvest) (now : Reading)
    (cleanup : Cleanup) : Supervisor :=
  match s.pending.lookup id, s.ledger.get id with
  | some work, some value =>
    let s := { s with pending := s.pending.erase id }
    match s.collectWork value result now with
    | .ok next => next
    | .error e =>
      s.commit (s.finish value (some (stopReason value e (Work.failure work))) cleanup)
  | _, _ => s

/-- Reacts to what the monitor observes of a running attempt. -/
def observe (s : Supervisor) (value : Value) (sighting : Sighting) (cleanup : Cleanup) :
    Except Error Supervisor :=
  match sighting with
  | .finished => s.finish value none cleanup
  | .gone => s.finish value (some "runtime_outcome_unknown") cleanup
  | .ready approved =>
    if value.engineReleased then .ok s
    else do
      raiseIf (approved = false)
        (.value "The actual ancestor device access differs from the approved device set.")
      .ok { s with pending := s.pending.insert value.plan.attemptId .engineBarrier }
  | .payload =>
    if value.payloadReleased then .ok s
    else .ok { s with pending := s.pending.insert value.plan.attemptId .payloadBarrier }
  | .quiet => .ok s
  | .failed => .error .os

/-- One step of the monitor for one retained attempt. The cleanups are those of the first and of
a second stop, which follows when the observation raises. -/
def tick (s : Supervisor) (id : Identity) (now : Reading) (sighting : Sighting)
    (cleanup retry : Cleanup) : Supervisor :=
  match s.ledger.retained.find? fun value => value.plan.attemptId = id with
  | none => s
  | some value =>
    if value.state = .unknown ∧ value.cleanupConfirmed = false then
      s.commit (s.finish value value.reason cleanup)
    else if value.state ∈ TERMINAL ∨ value.state = .released ∨ value.state = .unknown then s
    else
      match s.current value now with
      | .error e =>
        let reason := stopReason value e "expired"
        match s.ledger.annotate value.fence [.pendingStop reason] with
        | .error _ => s
        | .ok (_, ledger) =>
          let s := { s with ledger }
          -- A launch that lost its lease stops the whole service, other pool work is awaited.
          if (s.pending.lookup id).isSome then s
          else s.commit (s.finish value (some reason) cleanup)
      | .ok () =>
        if (s.pending.lookup id).isSome ∨ value.state = .prepared then s
        else
          match s.observe value sighting cleanup with
          | .ok next => next
          | .error _ => s.commit (s.finish value (some "runtime_boundary_failed") retry)

/-- The payload barrier has been inspected: the attempt is running. -/
def barrierStarted (s : Supervisor) (asked : Fence) (inspected : String) (now : Reading) :
    Except Error Supervisor := do
  raiseIf (s.pending.lookup asked.attemptId ≠ some .payloadBarrier) .os
  let _ ← s.check asked now
  let ledger ← s.ledger.started asked inspected
  .ok { s with ledger }

/-- A barrier has been released. -/
def barrierReleased (s : Supervisor) (asked : Fence) (now : Reading) :
    Except Error Supervisor := do
  let work ← orRaise (s.pending.lookup asked.attemptId) .os
  raiseIf (work ≠ .engineBarrier ∧ work ≠ .payloadBarrier) .os
  let _ ← s.check asked now
  let field : AnnotatedField :=
    if work = .payloadBarrier then .payloadReleased true else .engineReleased true
  let (_, ledger) ← s.ledger.annotate asked [field]
  .ok { s with ledger }

/-- The record, the declared input and its receipt that a write names. -/
def inputRecord (s : Supervisor) (asked : Fence) (object : Identity) (now : Reading) :
    Except Error (Value × ObjectReference × Receipt) := do
  let value ← s.check asked now
  raiseIf (value.state ≠ .prepared) (.conflict "input_not_prepared")
  let item ← orRaise ((references value).find? fun item => item.id = object)
    (.conflict "input_not_declared")
  let receipt ← orRaise (value.inputProgress.bind fun progress => progress.lookup object)
    (.conflict "inputs_preparing")
  .ok (value, item, receipt)

/-- The checks of an input write before it waits for storage. -/
def inputBegin (s : Supervisor) (asked : Fence) (object : Identity) (offset length : ℕ)
    (now : Reading) : Except Error Supervisor := do
  let (_, item, receipt) ← s.inputRecord asked object now
  raiseIf (asked.attemptId ∈ s.inputBusy) (.conflict "input_busy")
  raiseIf (offset ≠ receipt.offset) (.conflict "input_offset_changed")
  raiseIf (item.bytes - offset < length ∨ (length = 0 ∧ item.bytes ≠ 0))
    (.conflict "input_size_mismatch")
  if receipt.complete then .ok s
  else .ok { s with inputBusy := insert asked.attemptId s.inputBusy }

/-- Commits a stored chunk. -/
def inputCommit (s : Supervisor) (asked : Fence) (object : Identity) (saved : Except Error Receipt)
    (now : Reading) : Except Error Supervisor := do
  let receipt ← saved
  let (current, _, _) ← s.inputRecord asked object now
  let progress := (current.inputProgress.getD ∅).insert object receipt
  let (value, ledger) ← s.ledger.annotate asked [.inputProgress progress]
  .ok (({ s with ledger } : Supervisor).queuePreparation value)

/-- The end of an input write. A write that fails stops the attempt. -/
def inputEnd (s : Supervisor) (asked : Fence) (object : Identity) (saved : Except Error Receipt)
    (now : Reading) (failure : String) (cleanup : Cleanup) : Supervisor :=
  if asked.attemptId ∉ s.inputBusy then s
  else
    let ended (s : Supervisor) : Supervisor :=
      { s with inputBusy := s.inputBusy.erase asked.attemptId }
    match s.inputCommit asked object saved now with
    | .ok next => ended next
    | .error _ =>
      match s.ledger.fenced asked with
      | .error _ => ended s
      | .ok current => ended (s.requestStop asked (current.pendingStop.getD failure) cleanup).1

/-- Stops the attempts that a previous process left without confirmed cleanup, until one of the
cleanups raises. -/
def recoverAll (s : Supervisor) (cleanup : Identity → Cleanup) : List Value → Supervisor
  | [] => s
  | value :: values =>
    if value.state ∉ TERMINAL ∧ value.cleanupConfirmed = false then
      match s.finish value (some "supervisor_restarted") (cleanup value.plan.attemptId) with
      | .ok next => recoverAll next cleanup values
      | .error _ => s
    else recoverAll s cleanup values

/-- A database without an offer gets the initial one. -/
def ensureOffer (settings : Settings) (ledger : Ledger) : Except Error Ledger :=
  if ledger.offer = none then ledger.saveOffer settings.initialOffer 0 else .ok ledger

/-- A new process on the same database, with settings that may have changed. -/
def restart (s : Supervisor) (settings : Settings) (cleanup : Identity → Cleanup) :
    Except Error Supervisor := do
  let ledger ← s.ledger.reopen settings.installationId
  let ledger ← ensureOffer settings ledger
  let offer ← (opened settings ledger).offer
  raiseIf (offer.mode ≠ settings.mode)
    (.value "The retained local offer has another installation mode.")
  validateOffer offer.toOfferSettings settings.ceiling
  let s := opened settings ledger
  .ok (s.recoverAll cleanup s.ledger.retained)

/-- Records an empty remount of a retained slot. The administrator does this with the service
stopped and with the new settings, so the volatile state is lost. -/
def recoverStorage (s : Supervisor) (settings : Settings) (asked : Fence)
    (expectedGeneration : ℕ) (verified : Except Error Binding) (observedAt : ℚ) :
    Except Error Supervisor := do
  let ledger ← s.ledger.reopen settings.installationId
  let value ← ledger.fenced asked
  let slot ← orRaise (settings.slots.find? fun slot => some slot.id = value.slot)
    (.value "The retained attempt has no installed storage slot.")
  let before ← orRaise value.binding .integrity
  raiseIf (before.generation ≠ expectedGeneration ∨ slot.generation ≤ expectedGeneration)
    (.value "Recovery requires the exact old and a strictly increased installed slot generation.")
  let binding ← verified
  raiseIf (binding.slotId ≠ before.slotId ∨ binding.filesystemUuid ≠ before.filesystemUuid ∨
      binding.storageBytes ≠ before.storageBytes ∨ binding.storageInodes ≠ before.storageInodes ∨
      binding.uid ≠ before.uid ∨ binding.gid ≠ before.gid ∨ binding.inode ≠ before.inode)
    (.value "Recovery cannot substitute the reserved filesystem or workload account.")
  let (_, ledger) ← ledger.recoverStorage asked (some before) binding observedAt
  .ok (opened settings ledger)

end Definitions

section Machine

variable [Hash Plan]

/-- An action of the executor, with the answers that it gets from outside. -/
inductive Operation
  | prepare (admission : Admission) (probe : Slot → Except Error Binding)
    (admitAt rejectAt : Reading)
  | rejectAbsent (plan : Plan) (legacy : Option (Except Error (List (Binding × String))))
    (now : Reading)
  | start (asked : Fence) (now : Reading)
  | renew (request : Renewal) (now : Reading)
  | requestStop (asked : Fence) (reason : String) (cleanup : Cleanup)
  | releaseBegin (asked : Fence)
  | releaseEnd (asked : Fence) (cleaned : Bool)
  | setOffer (settings : OfferSettings) (control : Control) (expected : ℕ)
  | harvest (id : Identity) (result : Except Error Harvest) (now : Reading) (cleanup : Cleanup)
  | tick (id : Identity) (now : Reading) (sighting : Sighting) (cleanup retry : Cleanup)
  | barrierStarted (asked : Fence) (inspected : String) (now : Reading)
  | barrierReleased (asked : Fence) (now : Reading)
  | inputBegin (asked : Fence) (object : Identity) (offset length : ℕ) (now : Reading)
  | inputEnd (asked : Fence) (object : Identity) (saved : Except Error Receipt) (now : Reading)
    (failure : String) (cleanup : Cleanup)
  | restart (settings : Settings) (cleanup : Identity → Cleanup)
  | recoverStorage (settings : Settings) (asked : Fence) (expectedGeneration : ℕ)
    (verified : Except Error Binding) (observedAt : ℚ)

/-- The supervisor that an operation with a result leaves. -/
def after (s : Supervisor) (result : Except Error (Value × Supervisor)) : Supervisor :=
  s.commit (result.map Prod.snd)

/-- One action of the executor. -/
def step (s : Supervisor) : Operation → Supervisor
  | .prepare admission probe admitAt rejectAt =>
    s.after (s.prepare admission probe admitAt rejectAt)
  | .rejectAbsent plan legacy now => s.after (s.rejectAbsent plan legacy now)
  | .start asked now => s.after (s.start asked now)
  | .renew request now => s.after (s.renew request now)
  | .requestStop asked reason cleanup => (s.requestStop asked reason cleanup).1
  | .releaseBegin asked => s.after (s.releaseBegin asked)
  | .releaseEnd asked cleaned => s.releaseEnd asked cleaned
  | .setOffer settings control expected => s.commit (s.setOffer settings control expected)
  | .harvest id result now cleanup => s.harvest id result now cleanup
  | .tick id now sighting cleanup retry => s.tick id now sighting cleanup retry
  | .barrierStarted asked inspected now => s.commit (s.barrierStarted asked inspected now)
  | .barrierReleased asked now => s.commit (s.barrierReleased asked now)
  | .inputBegin asked object offset length now =>
    s.commit (s.inputBegin asked object offset length now)
  | .inputEnd asked object saved now failure cleanup =>
    s.inputEnd asked object saved now failure cleanup
  | .restart settings cleanup => s.commit (s.restart settings cleanup)
  | .recoverStorage settings asked expectedGeneration verified observedAt =>
    s.commit (s.recoverStorage settings asked expectedGeneration verified observedAt)

end Machine

end Supervisor

end Ficc.Execution
