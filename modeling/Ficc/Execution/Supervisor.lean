import Ficc.Execution.Changes
import Mathlib.Data.List.Sort

/-!
# The supervisor

The supervisor coordinates the ledger with the runtime provider, the storage slots and the
service manager. What those answer is an argument of each operation: a probed binding, the
outcome of a cleanup, a reading of the clock. The volatile state is the pool work that is under
way, the attempts whose inputs are being written, and those whose storage is being released.

An operation holds the supervisor's lock, except where it waits for storage. There it is split
into the part before and the part after the wait.
-/

namespace Ficc.Execution

/-- A finite storage slot. -/
structure Slot where
  id : String
  generation : ℕ
  storageBytes : ℕ
  storageInodes : ℕ
deriving DecidableEq

/-- The order in which slots are tried: the smallest first. -/
def Slot.Precedes (a b : Slot) : Prop :=
  a.storageBytes < b.storageBytes ∨ a.storageBytes = b.storageBytes ∧
    (a.storageInodes < b.storageInodes ∨ a.storageInodes = b.storageInodes ∧ a.id ≤ b.id)

instance : DecidableRel Slot.Precedes := fun _ _ => inferInstanceAs (Decidable (_ ∨ _))

/-- An installed runtime provider. -/
structure Provider where
  id : String
  packageDigest : Digest
deriving DecidableEq

/-- The administrator-owned configuration. -/
structure Settings where
  installationId : Identity
  deploymentId : Identity
  nodeId : Identity
  mode : Mode
  maximumLeaseSeconds : ℕ
  ceiling : OfferSettings
  initialOffer : Offer
  slots : List Slot
  providers : List Provider
  /-- The field is declared with `ge=5`. -/
  lease_pos : 5 ≤ maximumLeaseSeconds
  /-- The validator `consistent`: the initial offer is the first revision of the installed
  mode. -/
  initial : initialOffer.mode = mode ∧ initialOffer.revision = 1
  slots_distinct : (slots.map Slot.id).Nodup
deriving DecidableEq

/-- The plan belongs to this deployment and contributor. -/
def Settings.checkIdentity (settings : Settings) (plan : Plan) : Except Error Unit :=
  raiseIf ((plan.deploymentId, plan.nodeId) ≠ (settings.deploymentId, settings.nodeId))
    (.value "The attempt belongs to another deployment or contributor.")

/-- What the pool does for an attempt. -/
inductive Work
  | inputs | prepare | start | engineBarrier | payloadBarrier
deriving DecidableEq

/-- The executor service. -/
structure Supervisor where
  settings : Settings
  ledger : Ledger
  pending : Table Identity Work
  inputBusy : Finset Identity
  /-- The attempts under release, with the record that the release started from. -/
  releasing : Table Identity Value
deriving DecidableEq

/-- What a provider observes of a runtime. -/
structure Observed where
  finished : Bool
  exitCode : Option ℕ
  stdoutBytes : ℕ
  stderrBytes : ℕ
deriving DecidableEq

/-- How stopping the processes of an attempt ends. A stop can stay pending for ten seconds. -/
inductive EnvelopeStop
  | stopped | pending (overdue : Bool) | failed
deriving DecidableEq

/-- The answers of provider, service manager and storage during one cleanup. -/
structure Cleanup where
  observe : Option Observed
  stop : EnvelopeStop
  probe : Bool
  stopRuntime : Option Observed
deriving DecidableEq

/-- What the executor reports about an attempt. -/
structure Report extends AttemptResult where
  jobId : Identity
  projectId : Identity
  offerRevision : ℕ
  leaseSequence : ℕ
  leaseExpiresAt : ℚ
  ready : Bool
  outcome : Option State
deriving DecidableEq

/-- The report of a record, the function `public` of the source. -/
def Value.publicReport (value : Value) : Except Error Report := do
  let result ← AttemptResult.validate value.fence value.state value.reason value.exitCode
    value.outputBytes value.errorBytes value.cleanupConfirmed
  .ok { result with
    jobId := value.plan.jobId, projectId := value.plan.projectId
    offerRevision := value.plan.offerRevision
    leaseSequence := value.leaseSequence, leaseExpiresAt := value.leaseExpiresAt
    ready := value.preparedRuntime.isSome && decide (value.state = .prepared)
    outcome := value.outcome }

namespace Cleanup

/-- The result that is recorded when the cleanup fails. -/
def unconfirmed (value : Value) : AttemptResult :=
  { value.fence with
    state := .unknown, reason := some "cleanup_unconfirmed", exitCode := none
    outputBytes := 0, errorBytes := 0, cleanupConfirmed := false
    reported := State.reported_unknown
    released_cleanup := State.released_unknown
    succeeded_exitCode := State.succeeded_unknown }

/-- What the provider observed before the stop, and the reason after asking it. -/
def observed (cleanup : Cleanup) (value : Value) (reason : Option String) :
    Option Observed × Option String :=
  if value.preparedRuntime.isSome then
    match cleanup.observe with
    | some observed => (some observed, reason)
    | none => (none, some "runtime_outcome_unknown")
  else (none, reason)

/-- What the provider observed in the end, and the reason after stopping the runtime. -/
def concluded (cleanup : Cleanup) (value : Value) (reason : Option String) :
    Option Observed × Option String :=
  let (observed, reason) := cleanup.observed value reason
  if value.preparedRuntime.isSome then
    match cleanup.stopRuntime with
    | some stopped => (if stopped.finished then some stopped else observed, reason)
    | none => (observed, some "runtime_outcome_unknown")
  else (observed, reason)

/-- The state, reason and exit code that the observation and the reason decide. -/
def judged (value : Value) (observed : Option Observed) (reason : Option String) :
    State × Option String × Option ℕ :=
  match observed.filter Observed.finished with
  | some found =>
    if value.payloadReleased then
      (if found.exitCode = some 0 then .succeeded else .failed, none, found.exitCode)
    else unobserved reason
  | none => unobserved reason
where
  /-- The outcome of an attempt whose payload did not run to its end. -/
  unobserved (reason : Option String) : State × Option String × Option ℕ :=
    if reason = some "cancelled" then (.cancelled, reason, none)
    else if reason = some "expired" then (.expired, reason, none)
    else if reason = some "prepare_failed" then (.failed, reason, none)
    else (.unknown, reason, none)

/-- The result of a cleanup whose processes have stopped or could not be stopped. A result that
the validation refuses counts as a failed cleanup. -/
def result (cleanup : Cleanup) (value : Value) (reason : Option String) : AttemptResult :=
  if cleanup.stop = .failed ∨ cleanup.probe = false then unconfirmed value
  else
    let (observed, reason) := cleanup.concluded value reason
    let (state, reason, exitCode) := judged value observed reason
    match AttemptResult.validate value.fence state reason exitCode
      (observed.elim 0 Observed.stdoutBytes) (observed.elim 0 Observed.stderrBytes) true with
    | .ok result => result
    | .error _ => unconfirmed value

/-- A cleanup retry cannot replace the recorded uncertain outcome. -/
def retained (value : Value) (result : AttemptResult) : AttemptResult :=
  if value.state = .unknown then
    { result with
      state := .unknown, reason := value.reason, exitCode := value.exitCode
      outputBytes := value.outputBytes, errorBytes := value.errorBytes
      reported := by decide
      released_cleanup := by simp
      succeeded_exitCode := by simp }
  else result

end Cleanup

namespace Supervisor

section Definitions

variable [Hash Plan]

/-- The current local offer. -/
def offer (s : Supervisor) : Except Error Offer :=
  orRaise s.ledger.offer (.conflict "The retained local contribution offer is absent.")

/-- The volatile state of a new process. -/
def opened (settings : Settings) (ledger : Ledger) : Supervisor :=
  { settings, ledger, pending := ∅, inputBusy := ∅, releasing := ∅ }

/-- The first start of an installation, whose ledger gets the initial offer. -/
def install (settings : Settings) (identity : Identity) : Supervisor :=
  opened settings
    { Ledger.create settings.installationId identity with offer := some settings.initialOffer }

/-- The attempt may go on at the reading. -/
def current (s : Supervisor) (value : Value) (now : Reading) : Except Error Unit := do
  raiseIf (¬value.Active now) (.conflict "execution_lease_expired")
  raiseIf (value.pendingStop ≠ none) (.conflict "execution_stop_requested")
  let offer ← s.offer
  raiseIf (offer.refusal value.plan.projectId value.plan.job now.wall true ≠ none)
    (.conflict ((offer.refusal value.plan.projectId value.plan.job now.wall true).getD ""))

/-- The attempt that the fence names may go on at the reading. -/
def check (s : Supervisor) (asked : Fence) (now : Reading) : Except Error Value := do
  let value ← s.ledger.fenced asked
  s.current value now
  .ok value

/-- The request is addressed to this installation and this ledger. -/
def bind (s : Supervisor) (installationId ledgerId : Identity) (admissionVersion : ℕ) :
    Except Error Unit :=
  raiseIf (installationId ≠ s.settings.installationId ∨ ledgerId ≠ s.ledger.identity ∨
      admissionVersion ≠ 1)
    (.conflict "The admission request belongs to another installation or ledger.")

/-- The input streams of a job. -/
def references (value : Value) : List ObjectReference :=
  value.plan.job.inputs.filter fun item => item.delivery = .stream

/-- Every input stream has been stored. -/
def complete (value : Value) : Prop :=
  ∀ item ∈ references value, ∃ progress ∈ value.inputProgress, ∃ receipt ∈ progress.lookup item.id,
    receipt.complete = true

instance (value : Value) : Decidable (complete value) := inferInstanceAs (Decidable (∀ _ ∈ _, _))

/-- Starts the pool work that a prepared attempt waits for. -/
def queuePreparation (s : Supervisor) (value : Value) : Supervisor :=
  if (s.pending.lookup value.plan.attemptId).isSome ∨ value.state ≠ .prepared ∨
      value.preparedRuntime ≠ none ∨ value.pendingStop ≠ none then s
  else if references value ≠ [] ∧ value.inputProgress = none then
    { s with pending := s.pending.insert value.plan.attemptId .inputs }
  else if complete value then
    { s with pending := s.pending.insert value.plan.attemptId .prepare }
  else s

instance instLawfulBEqSlot : LawfulBEq (Option String) := inferInstance

/-- The slots that are free and bounded by what the job admits, the smallest first. -/
def choices (s : Supervisor) (job : Job) : List Slot :=
  (s.settings.slots.filter fun slot =>
    some slot.id ∉ s.ledger.retained.map Value.slot ∧
      slot.storageBytes ≤ job.limits.storageBytes ∧
      slot.storageInodes ≤ job.limits.storageInodes ∧
      job.inputBytes ≤ slot.storageBytes).insertionSort Slot.Precedes

/-- The admission of a plan that the ledger does not know. -/
def tryAdmit (s : Supervisor) (admission : Admission) (probe : Slot → Except Error Binding)
    (now : Reading) : Except Error ((Value × Bool) × Ledger) := do
  let slot ← orRaise (s.choices admission.plan.job).head?
    (.conflict "No available finite storage slot fits this job's admitted maximum.")
  let binding ← probe slot
  s.ledger.admitPlan admission slot.id binding now s.settings.maximumLeaseSeconds

/-- The handler of `prepare` catches the error. -/
def Refused : Error → Prop
  | .conflict _ => True
  | .value _ => True
  | .os => True
  | .failure _ _ _ => False
  | .integrity => False

instance : DecidablePred Refused
  | .conflict _ => .isTrue trivial
  | .value _ => .isTrue trivial
  | .os => .isTrue trivial
  | .failure _ _ _ => .isFalse id
  | .integrity => .isFalse id

/-- Reserves a plan, or fences it as rejected. -/
def prepare (s : Supervisor) (admission : Admission) (probe : Slot → Except Error Binding)
    (admitAt rejectAt : Reading) : Except Error (Value × Supervisor) := do
  s.settings.checkIdentity admission.plan
  if (s.ledger.get admission.plan.attemptId).isSome then do
    let value ← s.ledger.fenced admission.plan.fence
    .ok (value, s)
  else
    match s.tryAdmit admission probe admitAt with
    | .ok ((value, fresh), ledger) =>
      let s := { s with ledger }
      .ok (value, if fresh then s.queuePreparation value else s)
    | .error e =>
      -- No provider method can run before the durable reservation.
      if Refused e then do
        let (value, ledger) ← s.ledger.reject admission.plan rejectAt.wall none
        .ok (value, { s with ledger })
      else .error e

/-- The observation of a legacy reconciliation, when one was made. -/
def observation : Option (Except Error (List (Binding × String))) →
    Except Error (Option (List (Binding × String)))
  | none => .ok none
  | some inspected => inspected.map some

/-- Fences a plan that the controller found absent. A legacy reconciliation first inspects that
every slot is idle. -/
def rejectAbsent (s : Supervisor) (plan : Plan)
    (legacy : Option (Except Error (List (Binding × String)))) (now : Reading) :
    Except Error (Value × Supervisor) := do
  s.settings.checkIdentity plan
  if (s.ledger.get plan.attemptId).isSome then do
    let value ← s.ledger.fenced plan.fence
    .ok (value, s)
  else do
    let observed ← observation legacy
    let (value, ledger) ← s.ledger.reject plan now.wall observed
    .ok (value, { s with ledger })

/-- Starts a prepared attempt. -/
def start (s : Supervisor) (asked : Fence) (now : Reading) :
    Except Error (Value × Supervisor) := do
  let value ← s.ledger.fenced asked
  raiseIf (value.state = .prepared ∧ value.preparedRuntime = none) (.conflict "runtime_preparing")
  let ((value, first), ledger) ← s.ledger.startRequested asked now
  .ok (value, { s with
    ledger, pending := if first then s.pending.insert asked.attemptId .start else s.pending })

/-- Renews the lease of an attempt. -/
def renew (s : Supervisor) (request : Renewal) (now : Reading) :
    Except Error (Value × Supervisor) := do
  let value ← s.ledger.fenced request.toFence
  raiseIf (value.pendingStop ≠ none) (.conflict "An execution stop is already pending.")
  let (value, ledger) ← s.ledger.renew request now s.settings.maximumLeaseSeconds
  .ok (value, { s with ledger })

/-- The attempts that a stopped offer asks to stop. -/
def Stoppable (value : Value) : Prop :=
  value.state ∉ TERMINAL ∧ value.state ≠ .unknown ∧ value.state ≠ .released ∧
    value.pendingStop = none

instance : DecidablePred Stoppable := fun _ => inferInstanceAs (Decidable (_ ∧ _))

/-- Asks attempts to stop. -/
def stopAll (ledger : Ledger) : List Value → Except Error Ledger
  | [] => .ok ledger
  | value :: values =>
    if Stoppable value then do
      let (_, ledger) ← ledger.annotate value.fence [.pendingStop "cancelled"]
      stopAll ledger values
    else stopAll ledger values

/-- A stopped offer asks the retained attempts to stop. -/
def applyControl (ledger : Ledger) (control : Control) : Except Error Ledger :=
  if control = .stopped then stopAll ledger ledger.retained else .ok ledger

/-- Replaces the local offer, in one transaction. -/
def setOffer (s : Supervisor) (settings : OfferSettings) (control : Control) (expected : ℕ) :
    Except Error Supervisor := do
  validateOffer settings s.settings.ceiling
  let value : Offer := { settings with revision := expected + 1, mode := s.settings.mode, control }
  let ledger ← s.ledger.saveOffer value expected
  let ledger ← applyControl ledger control
  .ok { s with ledger }

/-- Stops an attempt, observes its outcome and records it. -/
def finish (s : Supervisor) (value : Value) (reason : Option String) (cleanup : Cleanup) :
    Except Error Supervisor :=
  if value.state = .unknown ∧ value.cleanupConfirmed = true then .ok s
  else do
    raiseIf (value.slot = none) (.conflict "The attempt storage has already been released.")
    match cleanup.stop with
    | .pending overdue => do
      raiseIf (overdue = true)
        (.value "Workload cleanup exceeded its ten-second bound; stop the supervisor.")
      if value.pendingStop = none ∧ value.state ≠ .unknown then do
        let reason := (cleanup.observed value reason).2
        let (_, ledger) ← s.ledger.annotate value.fence
          [.pendingStop (reason.getD "runtime_outcome_unknown")]
        .ok { s with ledger }
      else .ok s
    | _ => do
      let result := Cleanup.retained value (cleanup.result value reason)
      let ledger ← s.ledger.finish result
      .ok { s with ledger }

/-- Goes on with the supervisor that an operation returned, or with the one before it. -/
def commit (s : Supervisor) : Except Error Supervisor → Supervisor
  | .ok next => next
  | .error _ => s

/-- Asks an attempt to stop. The request is recorded before the cleanup, so it outlives a cleanup
that raises. The cleanup works with the record from before the request. -/
def requestStop (s : Supervisor) (asked : Fence) (reason : String) (cleanup : Cleanup) :
    Supervisor × Except Error Value :=
  match s.ledger.fenced asked with
  | .error e => (s, .error e)
  | .ok value =>
    if value.state ∈ TERMINAL ∨ value.state = .released ∨
        (value.state = .unknown ∧ value.cleanupConfirmed = true) then (s, .ok value)
    else
      let annotated : Except Error Supervisor :=
        if value.state ≠ .unknown then
          (s.ledger.annotate asked [.pendingStop reason]).map fun result =>
            { s with ledger := result.2 }
        else .ok s
      match annotated with
      | .error e => (s, .error e)
      | .ok s =>
        if (s.pending.lookup asked.attemptId).isSome then
          (s, orRaise (s.ledger.get asked.attemptId) .integrity)
        else
          match s.finish value (some reason) cleanup with
          | .error e => (s, .error e)
          | .ok s => (s, orRaise (s.ledger.get asked.attemptId) .integrity)

/-- The checks of a release before its storage is cleaned. A rejected attempt is released at
once. -/
def releaseBegin (s : Supervisor) (asked : Fence) : Except Error (Value × Supervisor) := do
  let value ← s.ledger.fenced asked
  if value.state = .released then .ok (value, s)
  else do
    raiseIf ((value.state ∉ TERMINAL ∧ value.state ≠ .unknown) ∨ value.cleanupConfirmed = false ∨
        (s.pending.lookup asked.attemptId).isSome ∨ asked.attemptId ∈ s.inputBusy ∨
        (s.releasing.lookup asked.attemptId).isSome)
      (.conflict "The attempt outcome or cleanup remains unconfirmed.")
    if value.slot = none ∧ value.admissionRejection.isSome then do
      let (value, ledger) ← s.ledger.release asked
      .ok (value, { s with ledger })
    else do
      raiseIf (value.slot = none) (.conflict "The attempt storage has already been released.")
      .ok (value, { s with releasing := s.releasing.insert asked.attemptId value })

/-- The end of a release, after its storage has been cleaned or could not be. -/
def releaseEnd (s : Supervisor) (asked : Fence) (cleaned : Bool) : Supervisor :=
  match s.releasing.lookup asked.attemptId with
  | none => s
  | some value =>
    let released : Except Error Ledger := do
      raiseIf (cleaned = false) .os
      let current ← s.ledger.fenced asked
      raiseIf (current.slot ≠ value.slot ∨ current.binding ≠ value.binding)
        (.conflict "The retained storage binding changed during release.")
      (s.ledger.release asked).map Prod.snd
    let s := { s with releasing := s.releasing.erase asked.attemptId }
    match released with
    | .ok ledger => { s with ledger }
    | .error _ => s

end Definitions

end Supervisor

end Ficc.Execution
