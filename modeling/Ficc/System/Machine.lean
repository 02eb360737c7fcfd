import Ficc.Execution.Installation
import Ficc.Workloads.Commands

/-!
# The controller and its executors

One controller store, any number of executors, and the commands and reports that are on their way
between them. An executor is filed under the identity of its ledger. A ledger that is replaced
stays in the table, because the work that it has admitted may still run, and its successor is a
new entry.

A command is executed at most once, at any later time or never, and commands overtake each other.
A batch of the source is a set of commands here, which are refused one by one as in the batch.
The answer to a command is the record of the attempt right after it. That record can also be
observed at any other time, so answers are the reports of a separate action. A report is recorded
at any later time or never. That a command was refused or its answer got lost, the controller
notes with `uncertain`, which it may also do for other reasons.

Identities that are drawn at random are assumed to be new.
-/

namespace Ficc

open Execution Workloads

variable [Hash Plan] [Hash Submission]

/-- A command of the controller about one attempt. -/
inductive Command
  | prepare (installationId ledgerId : Identity) (admission : Admission)
  | rejectAbsent (installationId ledgerId : Identity) (plan : Plan)
  | renew (lease : Renewal)
  | start (fence : Fence)
  | stop (fence : Fence)
  | release (fence : Fence)
deriving DecidableEq

/-- What the executor answers during one command: the probes of its slots, two readings of its
clocks, and the outcome of a cleanup. -/
structure Surroundings where
  probe : Slot → Except Error Binding
  now : Reading
  later : Reading
  cleanup : Cleanup

namespace Command

/-- A request for an admission is bound to the installation and the ledger. -/
def bind (executor : Supervisor) : Command → Except Error Unit
  | .prepare installationId ledgerId _ => executor.bind installationId ledgerId 1
  | .rejectAbsent installationId ledgerId _ => executor.bind installationId ledgerId 1
  | _ => .ok ()

/-- What the executor does for the command. -/
def operation (surroundings : Surroundings) : Command → Supervisor.Operation
  | .prepare _ _ admission =>
    .prepare admission surroundings.probe surroundings.now surroundings.later
  | .rejectAbsent _ _ plan => .rejectAbsent plan none surroundings.now
  | .renew lease => .renew lease surroundings.now
  | .start fence => .start fence surroundings.now
  | .stop fence => .requestStop fence "cancelled" surroundings.cleanup
  | .release fence => .releaseBegin fence

/-- The executor handles the command. An error leaves it as it was. -/
def execute (executor : Supervisor) (surroundings : Surroundings) (command : Command) :
    Supervisor :=
  match command.bind executor with
  | .ok () => executor.step (command.operation surroundings)
  | .error _ => executor

end Command

/-- The action is what an executor does for a command. -/
def Execution.Supervisor.Operation.commanded : Supervisor.Operation → Bool
  | .prepare .. | .rejectAbsent .. | .start .. | .renew .. | .requestStop .. | .releaseBegin .. =>
    true
  | _ => false

/-- The executor may take the action by itself. A new process serves the same contributor. -/
def Execution.Supervisor.Operation.Local (executor : Supervisor)
    (operation : Supervisor.Operation) : Prop :=
  operation.commanded = false ∧
    ∀ settings ∈ operation.settings, settings.nodeId = executor.settings.nodeId

instance (executor : Supervisor) (operation : Supervisor.Operation) :
    Decidable (operation.Local executor) := inferInstanceAs (Decidable (_ ∧ _))

/-- The operation neither draws an identity nor sends a command nor records a report. -/
def Workloads.Store.Operation.quiet : Store.Operation → Bool
  | .submit .. | .reserve .. | .observation .. | .transition .. | .renew .. => false
  | _ => true

/-- The controller, its executors, and what is on its way between them. -/
structure System where
  store : Store
  /-- The executors by the identities of their ledgers. -/
  executors : Table Identity Supervisor
  commands : List Command
  reports : List Report
  /-- The identities that have been drawn. -/
  drawn : Finset Identity

namespace System

/-- A step of the controller, of an executor, or of the network. -/
inductive Action
  /-- A user submits a job, for which an identity is drawn. -/
  | submit (request : Submission) (key : String) (delegation : Delegation) (id : Identity)
    (now : ℚ)
  /-- The runner places a job, for which the identity of the attempt is drawn. -/
  | place (snapshot : Snapshot) (job : Record) (nodeId attemptId : Identity)
    (policyRevision : ℕ) (now : ℚ)
  /-- The runner sends the plan of an attempt. -/
  | prepare (id : Identity) (snapshot : Snapshot)
  /-- The runner asks to confirm that an attempt is absent. -/
  | rejectAbsent (id : Identity) (snapshot : Snapshot)
  /-- The runner records the next lease of an attempt and sends it. -/
  | renew (id : Identity) (expiresAt now : ℚ)
  /-- The runner records the start of an attempt and asks for it. -/
  | start (id : Identity) (now : ℚ)
  | stop (fence : Fence)
  | release (fence : Fence)
  /-- The controller notes that it does not know what became of an attempt. -/
  | uncertain (id : Identity) (reason : String) (now : ℚ)
  /-- Another operation on the records. -/
  | records (operation : Store.Operation)
  /-- An executor gets a command. -/
  | deliver (index : ℕ) (ledger : Identity) (surroundings : Surroundings)
  /-- A command is lost, or was never sent. -/
  | lose (index : ℕ)
  /-- An executor reports an attempt. -/
  | report (ledger id : Identity)
  /-- The controller gets a report, under the snapshot that it has of the executor. -/
  | receive (index : ℕ) (snapshot : Snapshot) (now : ℚ)
  /-- A report is lost. -/
  | drop (index : ℕ)
  /-- A ledger is created, for a new installation or in the place of another one. -/
  | install (settings : Settings) (ledger : Identity)
  /-- An executor does something of its own. -/
  | act (ledger : Identity) (operation : Supervisor.Operation)

/-- Goes on with the store of an operation. An operation that raises is rolled back. -/
def commit (s : System) : Except Error Store → System
  | .ok store => { s with store }
  | .error _ => s

/-- Goes on with the store of an operation and sends a command. -/
def dispatch (s : System) : Except Error (Command × Store) → System
  | .ok (command, store) => { s with store, commands := command :: s.commands }
  | .error _ => s

/-- The admission request for an attempt. The message is validated before it is sent. -/
def prepareCommand (store : Store) (id : Identity) (snapshot : Snapshot) :
    Except Error (Command × Store) := do
  let attempt ← store.attempt id
  Runner.bindsExecutor attempt snapshot
  let ledgerId ← orRaise snapshot.ledgerId invalid
  if h : attempt.lease.toFence = attempt.plan.fence ∧ attempt.lease.sequence = 1 then
    .ok (.prepare snapshot.installationId ledgerId ⟨attempt.plan, attempt.lease, h.1, h.2⟩, store)
  else .error invalid

/-- The request to confirm the absence of an attempt. -/
def rejectCommand (store : Store) (id : Identity) (snapshot : Snapshot) :
    Except Error (Command × Store) := do
  let attempt ← store.attempt id
  raiseIf (¬Runner.RejectCandidate snapshot attempt) invalid
  let ledgerId ← orRaise snapshot.ledgerId invalid
  .ok (.rejectAbsent snapshot.installationId ledgerId attempt.plan, store)

/-- Records a lease and sends it. -/
def renewCommand (store : Store) (id : Identity) (expiresAt now : ℚ) :
    Except Error (Command × Store) := do
  let (lease, store) ← store.renew id expiresAt now
  .ok (.renew lease, store)

/-- Records the intent to start and asks for the start. -/
def startCommand (store : Store) (id : Identity) (now : ℚ) : Except Error (Command × Store) := do
  let (attempt, store) ← store.transition id .prepared .starting none now
  .ok (.start attempt.fence, store)

/-- The record that an executor has of an attempt. -/
def record (s : System) (ledger id : Identity) : Option Value :=
  (s.executors.lookup ledger).bind fun executor => executor.ledger.get id

/-- One step of the system. -/
def step (s : System) : Action → System
  | .submit request key delegation id now =>
    if id ∈ s.drawn then s
    else
      { s.commit ((s.store.submit request key delegation id now).map Prod.snd) with
        drawn := insert id s.drawn }
  | .place snapshot job nodeId attemptId policyRevision now =>
    if attemptId ∈ s.drawn then s
    else
      { s.commit ((Runner.placement s.store snapshot job nodeId attemptId policyRevision now).map
          Prod.snd) with
        drawn := insert attemptId s.drawn }
  | .prepare id snapshot => s.dispatch (prepareCommand s.store id snapshot)
  | .rejectAbsent id snapshot => s.dispatch (rejectCommand s.store id snapshot)
  | .renew id expiresAt now => s.dispatch (renewCommand s.store id expiresAt now)
  | .start id now => s.dispatch (startCommand s.store id now)
  -- The guards of the source only make these two commands rarer.
  | .stop fence => { s with commands := .stop fence :: s.commands }
  | .release fence => { s with commands := .release fence :: s.commands }
  | .uncertain id reason now => s.commit (Commands.uncertain s.store id reason now)
  | .records operation => if operation.quiet then s.commit (s.store.call operation) else s
  | .deliver index ledger surroundings =>
    match s.commands[index]?, s.executors.lookup ledger with
    | some command, some executor =>
      { s with
        executors := s.executors.insert ledger (command.execute executor surroundings)
        commands := s.commands.eraseIdx index }
    | _, _ => s
  | .lose index => { s with commands := s.commands.eraseIdx index }
  | .report ledger id =>
    match (s.record ledger id).map Value.publicReport with
    | some (.ok report) => { s with reports := report :: s.reports }
    | _ => s
  | .receive index snapshot now =>
    match s.reports[index]? with
    | some report =>
      { s with
        store := (Commands.observation s.store report snapshot now).1
        reports := s.reports.eraseIdx index }
    | none => s
  | .drop index => { s with reports := s.reports.eraseIdx index }
  | .install settings ledger =>
    if ledger ∈ s.drawn then s
    else
      { s with
        executors := s.executors.insert ledger (Supervisor.install settings ledger)
        drawn := insert ledger s.drawn }
  | .act ledger operation =>
    match s.executors.lookup ledger with
    | some executor =>
      if operation.Local executor then
        { s with executors := s.executors.insert ledger (executor.step operation) }
      else s
    | none => s

/-- A controller without jobs and without executors. -/
def initial (projects identities : List Identity) (contributors : Table Identity Contributor)
    (policyRevision : ℕ) (managed : List String) : System :=
  { store := .initial projects identities contributors policyRevision managed
    executors := ∅, commands := [], reports := [], drawn := ∅ }

end System

end Ficc
