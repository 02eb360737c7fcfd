import Ficc.Policies.Store

/-!
# The policy gate

`Policies` holds a prepared evaluator in memory beside the database. `check_many` reads the policy
state and the authority of a caller, asks the evaluator in batches of 64 requests, and reads both
again before it returns. Here a call is taken apart into its steps: `enter` up to the first batch,
`ask` and `answer` for each batch, and `leave`. An activation is taken apart in the same way:
`prepare` runs without the lock, `commit` with it, and `clean` retires the previous evaluator.

Between two steps anything may happen. The lock of the store keeps the other threads out of most of
a call, but not a callback of the evaluator in the same thread, and not the failure of a cleanup;
nothing below rests on it except that a single step is not interrupted.

What the evaluator, its preparation and its cleanup do is an input of the steps, and so is the
length of the encoded request. A closed evaluator is not referred to any more.
-/

namespace Ficc.Policies

open Execution (Identity Digest)
open Access (Scope ExternalCheck Principal)

/-! ### Requests -/

structure Requirement where
  action : Scope
  nodeId : Option Identity
  rootId : Option Identity
deriving DecidableEq

structure Authority where
  subjectId : Identity
  projectId : Identity
  credentialId : Identity
  localOwner : Bool
  roles : List Role
  scopes : List Scope
  nodeId : Option Identity
  rootId : Option Identity
  contributorEnforcement : Bool
deriving DecidableEq

structure Request where
  id : Identity
  action : Scope
  authority : Authority
deriving DecidableEq

/-- One item of what the evaluator returns. -/
inductive Item
  | decision (id : Identity) (allow : Bool) (reason : List Char)
  /-- Anything that is not an object with these three members. -/
  | malformed
deriving DecidableEq

/-- An evaluator, prepared from a package. Beside it stands the record of the publisher that was
read with the package. -/
structure Prepared where
  package : Digest
  publisher : Publisher
deriving DecidableEq

/-- A decision, with the evaluator that has returned it. -/
structure Answer where
  request : Request
  evaluator : Prepared
  allow : Bool
  reason : List Char
deriving DecidableEq

/-- The expression `[a-z][a-z0-9_.-]{0,79}`. -/
def reasonValid : List Char → Bool
  | [] => false
  | first :: rest => first.isLower && decide (rest.length ≤ 79) &&
      rest.all fun c => c.isLower || c.isDigit || c ∈ ['_', '.', '-']

/-- The requests with the items of the reply, when there are as many and each is valid. -/
def answers (evaluator : Prepared) : List Request → List Item → Option (List Answer)
  | [], [] => some []
  | request :: requests, .decision id allow reason :: items =>
      if id = request.id ∧ reasonValid reason = true then
        (answers evaluator requests items).map (⟨request, evaluator, allow, reason⟩ :: ·)
      else none
  | _, _ => none

/-- The keys of `dict.fromkeys`: each requirement once, in the order of its first occurrence. -/
def distinct : List Requirement → List Requirement
  | [] => []
  | first :: rest => first :: (distinct rest).filter (· ≠ first)

/-! ### The controller -/

/-- The attributes of `Policies`. -/
structure Memory where
  prepared : Option Prepared
  digest : Option Digest
  publisher : Option Publisher
  error : Option String
  retired : List Prepared
  required : Bool
deriving DecidableEq

/-- An activation that is under way. -/
inductive Activation
  | candidate (evaluator : Prepared) (expected : ℕ) (actor : Identity)
  | committed (previous : Prepared)
deriving DecidableEq

/-- A call of `check_many` that is under way. -/
structure Call where
  credential : Identity
  requirements : List Requirement
  state : PolicyState
  authority : Authority
  /-- The requests of the batches that have not been answered. -/
  pending : List Request
  /-- The evaluator that has been asked about the next batch. -/
  asked : Option Prepared
  results : List Answer
deriving DecidableEq

structure Machine (Archive : Type) where
  database : Database Archive
  /-- There is none while the controller does not run. -/
  memory : Option Memory
  activations : Table ℕ Activation
  calls : Table ℕ Call

variable {Archive : Type}

/-! ### Administration -/

def owner (access : Access.State) (external : ExternalCheck) (actor : Identity) :
    Except Error Unit := do
  let value ← access.current external actor
  value.requireHost "policies:manage" none none
  raiseIf (¬value.localOwner ∨ value.nodeIds ≠ none ∨ value.rootIds ≠ none)
    (.failure "denied" "Local owner policy administration is required." 403)

def unavailableAtStart : String :=
  "The required policy is unavailable. " ++
    "Restore its trusted evaluator or activate a verified package."

/-- The start of the controller. `prepares` says whether the evaluator can be prepared. -/
def init (tools : Tools Archive) (database : Database Archive) (prepares : Bool) :
    Except Error Memory := do
  let state ← database.state
  let started : Memory := ⟨none, none, none, none, [], state.required⟩
  match state.active with
  | none => return started
  | some digest =>
    match database.package tools digest, prepares with
    | .ok publisher, true =>
      return { started with
        prepared := some ⟨digest, publisher⟩
        digest := some digest
        publisher := some publisher }
    | _, _ => return { started with error := some unavailableAtStart }

def cleanupFailed : String :=
  "Policy cleanup failed. The saved change remains committed. " ++
    "Restart the evaluator to restore access."

/-- `cleanup`: the evaluator stays among the retired ones when it cannot be closed. -/
def Memory.cleanup (memory : Memory) (previous : Prepared) (closes : Bool) : Memory :=
  if closes then memory
  else { memory with
    retired := memory.retired ++ [previous]
    error := some cleanupFailed }

/-- What a change of a publisher does in memory. -/
def Memory.distrust (memory : Memory) (identity : Identity) (closes : Bool) : Memory :=
  match memory.publisher, memory.prepared with
  | some publisher, some previous =>
    if publisher.id = identity then { memory with prepared := none }.cleanup previous closes
    else memory
  | _, _ => memory

/-- The part of `activate` before the lock is taken. The first `closed` of the retired evaluators
can be closed. -/
def prepare (tools : Tools Archive) (database : Database Archive) (memory : Memory)
    (external : ExternalCheck) (digest : Digest) (expected : ℕ) (actor : Identity) (closed : ℕ)
    (prepares : Bool) : Except Error Activation := do
  owner database.access external actor
  raiseIf (memory.retired.drop closed ≠ []) (.failure "policy_unavailable"
    "Complete pending evaluator cleanup before activation." 503)
  let publisher ← database.package tools digest
  raiseIf (prepares = false) (.value "The trusted policy provider could not prepare the package.")
  return .candidate ⟨digest, publisher⟩ expected actor

/-- The transaction of `activate`. -/
def commit (database : Database Archive) (external : ExternalCheck) (evaluator : Prepared)
    (expected : ℕ) (actor : Identity) : Except Error (Database Archive) := do
  owner database.access external actor
  let publisher ← database.publisher evaluator.publisher.id
  raiseIf (publisher ≠ evaluator.publisher) (.failure "revision_conflict"
    "Publisher trust changed during policy preparation." 409)
  database.activate evaluator.package expected

/-- The assignments of `activate`, with the lock still held. -/
def Memory.activate (memory : Memory) (evaluator : Prepared) : Memory :=
  { memory with
    prepared := some evaluator
    digest := some evaluator.package
    publisher := some evaluator.publisher
    error := none
    required := true }

/-! ### Checks -/

def authority (database : Database Archive) (principal : Principal)
    (nodeId rootId : Option Identity) : Authority where
  subjectId := principal.subjectId
  projectId := principal.projectId
  credentialId := principal.id
  localOwner := decide principal.localOwner
  roles := database.roles principal.projectId principal.subjectId
  scopes := principal.scopes
  nodeId := nodeId
  rootId := rootId
  contributorEnforcement := false

def requireAll (principal : Principal) (requirements : List Requirement) : Except Error Unit :=
  requirements.forM fun requirement =>
    principal.requireHost requirement.action requirement.nodeId requirement.rootId

/-- The request for a requirement, with a drawn identity. -/
def request (authority : Authority) (id : Identity) (requirement : Requirement) : Request where
  id := id
  action := requirement.action
  authority := { authority with nodeId := requirement.nodeId, rootId := requirement.rootId }

/-- The requests for the requirements. -/
def requests (authority : Authority) (draw : Requirement → Identity)
    (requirements : List Requirement) : List Request :=
  requirements.map fun requirement => request authority (draw requirement) requirement

/-- The evaluation starts, unless no policy is required. -/
def evaluation (database : Database Archive) (required : Bool) (credential : Identity)
    (current : Principal) (requirements : List Requirement) (draw : Requirement → Identity) :
    Except Error (Option Call) :=
  if required = false then .ok none else do
    let state ← database.state
    let authority := authority database current none none
    return if state.required = false then none else some {
      credential := credential
      requirements := requirements
      state := state
      authority := authority
      pending := requests authority draw (distinct requirements)
      asked := none
      results := [] }

/-- `check_many` up to its first batch. Without a call it has returned. -/
def enter (database : Database Archive) (memory : Memory) (external : ExternalCheck)
    (credential : Identity) (requirements : List Requirement) (draw : Requirement → Identity) :
    Except Error (Option Call) :=
  if distinct requirements = [] then .ok none else do
    let current ← database.access.current external credential
    requireAll current (distinct requirements)
    evaluation database memory.required credential current requirements draw

/-- The evaluator that `decisions` may ask. -/
def evaluator (database : Database Archive) (memory : Memory) (state : PolicyState) :
    Option Prepared :=
  match memory.prepared, memory.publisher with
  | some prepared, some publisher =>
    if memory.error = none ∧ memory.digest = state.active ∧
        database.publisher publisher.id = .ok publisher then some prepared
    else none
  | _, _ => none

def changed : Error := .failure "policy_changed"
  "Access changed during policy evaluation. Retry the request." 409

def denied (results : List Answer) : Except Error Unit :=
  match results.find? fun answer => !answer.allow with
  | some answer => .error (.failure "policy_denied"
      ("The active policy denies this action: " ++ String.ofList answer.reason ++ ".") 403)
  | none => .ok ()

/-- `check_many` after its last batch. -/
def leave (database : Database Archive) (external : ExternalCheck) (call : Call) :
    Except Error Unit := do
  let fresh ← database.access.current external call.credential
  requireAll fresh (distinct call.requirements)
  raiseIf (call.authority ≠ authority database fresh none none) changed
  let state ← database.state
  raiseIf (call.state ≠ state) changed
  denied call.results

/-! ### Runs -/

/-- What can happen. `thread` numbers the activations and the calls that are under way. -/
inductive Event (Archive : Type)
  /-- Identities, memberships, assignments and credentials change, or time passes. -/
  | access (event : Access.Event)
  | trust (external : ExternalCheck) (identity : Identity) (key : Key) (enabled : Bool)
    (expected : ℕ) (actor : Identity) (closes : Bool)
  | bind (external : ExternalCheck) (project subject : Identity) (roles : List Role)
    (expected : ℕ) (actor : Identity)
  | install (external : ExternalCheck) (raw : Archive) (actor : Identity)
  | prepare (thread : ℕ) (external : ExternalCheck) (digest : Digest) (expected : ℕ)
    (actor : Identity) (closed : ℕ) (prepares : Bool)
  | commit (thread : ℕ) (external : ExternalCheck)
  | clean (thread : ℕ) (closes : Bool)
  | stop
  | restart (prepares : Bool)
  | enter (thread : ℕ) (external : ExternalCheck) (credential : Identity)
    (requirements : List Requirement) (draw : Requirement → Identity)
  /-- The next batch is asked, when its encoded length is within the limit. -/
  | ask (thread : ℕ) (fits : Bool)
  /-- The evaluator returns a list, or it fails. -/
  | answer (thread : ℕ) (reply : Option (List Item))
  | leave (thread : ℕ) (external : ExternalCheck)

def unavailable : String :=
  "The required policy is unavailable. Activate a verified package to restore access."

namespace Machine

variable (tools : Tools Archive)

/-- A transaction that raises leaves the database as it is. -/
def transact (s : Machine Archive) (result : Except Error (Database Archive)) : Machine Archive :=
  match result with
  | .ok database => { s with database := database }
  | .error _ => s

def trust (s : Machine Archive) (memory : Memory) (external : ExternalCheck) (identity : Identity)
    (key : Key) (enabled : Bool) (expected : ℕ) (actor : Identity) (closes : Bool) :
    Machine Archive :=
  match owner s.database.access external actor,
      s.database.trust identity key enabled expected with
  | .ok _, .ok database =>
    { s with database := database, memory := some (memory.distrust identity closes) }
  | _, _ => s

def prepare (s : Machine Archive) (memory : Memory) (thread : ℕ) (external : ExternalCheck)
    (digest : Digest) (expected : ℕ) (actor : Identity) (closed : ℕ) (prepares : Bool) :
    Machine Archive :=
  -- The retired evaluators that have been closed are gone, whatever follows.
  let s := match owner s.database.access external actor with
    | .ok _ => { s with memory := some { memory with retired := memory.retired.drop closed } }
    | .error _ => s
  match Policies.prepare tools s.database memory external digest expected actor closed
      prepares with
  | .ok activation => { s with activations := s.activations.insert thread activation }
  | .error _ => s

/-- The previous evaluator, when there is one, remains to be closed. -/
def retire (activations : Table ℕ Activation) (thread : ℕ) : Option Prepared → Table ℕ Activation
  | some previous => activations.insert thread (.committed previous)
  | none => activations.erase thread

def commit (s : Machine Archive) (memory : Memory) (thread : ℕ) (external : ExternalCheck) :
    Machine Archive :=
  match s.activations.lookup thread with
  | some (.candidate evaluator expected actor) =>
    match Policies.commit s.database external evaluator expected actor with
    | .ok database => { s with
        database := database
        memory := some (memory.activate evaluator)
        activations := retire s.activations thread memory.prepared }
    | .error _ => { s with activations := s.activations.erase thread }
  | _ => s

def clean (s : Machine Archive) (memory : Memory) (thread : ℕ) (closes : Bool) :
    Machine Archive :=
  match s.activations.lookup thread with
  | some (.committed previous) => { s with
      memory := some (memory.cleanup previous closes)
      activations := s.activations.erase thread }
  | _ => s

def stop (s : Machine Archive) : Machine Archive :=
  { s with memory := none, activations := ∅, calls := ∅ }

def restart (s : Machine Archive) (prepares : Bool) : Machine Archive :=
  match init tools s.database prepares with
  | .ok memory => { s.stop with memory := some memory }
  | .error _ => s.stop

def enter (s : Machine Archive) (memory : Memory) (thread : ℕ) (external : ExternalCheck)
    (credential : Identity) (requirements : List Requirement) (draw : Requirement → Identity) :
    Machine Archive :=
  match Policies.enter s.database memory external credential requirements draw with
  | .ok (some call) => { s with calls := s.calls.insert thread call }
  | _ => s

/-- The call raises, and the evaluator counts as unavailable. -/
def fail (s : Machine Archive) (memory : Memory) (thread : ℕ) : Machine Archive :=
  { s with
    memory := some { memory with error := some unavailable }
    calls := s.calls.erase thread }

def ask (s : Machine Archive) (memory : Memory) (thread : ℕ) (call : Call) (fits : Bool) :
    Machine Archive :=
  -- The envelope is checked before the evaluator is looked at.
  if fits = false then { s with calls := s.calls.erase thread } else
  match evaluator s.database memory call.state with
  | some prepared =>
    { s with calls := s.calls.insert thread { call with asked := some prepared } }
  | none => s.fail memory thread

def answer (s : Machine Archive) (memory : Memory) (thread : ℕ) (call : Call)
    (prepared : Prepared) (reply : Option (List Item)) : Machine Archive :=
  match reply.bind (answers prepared (call.pending.take 64)) with
  | some results => { s with calls := s.calls.insert thread { call with
      pending := call.pending.drop 64
      asked := none
      results := call.results ++ results } }
  | none => s.fail memory thread

/-- One event while the controller runs. -/
def perform (s : Machine Archive) (memory : Memory) : Event Archive → Machine Archive
  | .access event => { s with database := { s.database with
      access := Access.step s.database.access event } }
  | .trust external identity key enabled expected actor closes =>
    s.trust memory external identity key enabled expected actor closes
  | .bind external project subject roles expected actor => s.transact do
      owner s.database.access external actor
      s.database.bind project subject roles expected
  | .install external raw actor => s.transact do
      owner s.database.access external actor
      s.database.install tools raw
  | .prepare thread external digest expected actor closed prepares =>
    if (s.activations.lookup thread).isSome then s
    else s.prepare tools memory thread external digest expected actor closed prepares
  | .commit thread external => s.commit memory thread external
  | .clean thread closes => s.clean memory thread closes
  | .stop => s.stop
  | .restart prepares => s.restart tools prepares
  | .enter thread external credential requirements draw =>
    if (s.calls.lookup thread).isSome then s
    else s.enter memory thread external credential requirements draw
  | .ask thread fits =>
    match s.calls.lookup thread with
    | some call =>
      if call.asked = none ∧ call.pending ≠ [] then s.ask memory thread call fits else s
    | none => s
  | .answer thread reply =>
    match s.calls.lookup thread with
    | some call =>
      match call.asked with
      | some prepared => s.answer memory thread call prepared reply
      | none => s
    | none => s
  | .leave thread _ =>
    match s.calls.lookup thread with
    | some call => if call.asked = none ∧ call.pending = [] then
        { s with calls := s.calls.erase thread } else s
    | none => s

/-- Without a running controller the only event is its start. -/
def step (s : Machine Archive) (event : Event Archive) : Machine Archive :=
  match s.memory with
  | some memory => s.perform tools memory event
  | none =>
    match event with
    | .restart prepares => s.restart tools prepares
    | _ => s

/-- A new database, before the controller is started. -/
def initial : Machine Archive where
  database := ⟨.initial, DEFAULT, ∅, ∅, ∅⟩
  memory := none
  activations := ∅
  calls := ∅

end Machine

end Ficc.Policies
