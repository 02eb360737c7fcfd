import Ficc.Errors
import Ficc.Foundations.Words
import Mathlib.Data.Finmap
import Mathlib.Algebra.Order.Ring.Rat
import Mathlib.Algebra.GroupWithZero.Nat

/-!
# Execution identities, resource requests and attempt plans

The records that the controller and the executors exchange. Identities and digests are bit
vectors, because the source validates their hexadecimal text. Times are rationals. The length
limits and the character patterns of texts are checked when a message is decoded and are not
part of the model.
-/

namespace Ficc.Execution

/-- An identity of 32 hexadecimal digits. -/
abbrev Identity : Type := BitVec 128

-- Membership in a list of identities is decided with one proof everywhere.
instance instLawfulBEqIdentity : LawfulBEq Identity := inferInstance

/-- A SHA-256 digest. -/
abbrev Digest : Type := BitVec 256

/-- The digest of a record's canonical encoding. Nothing in the development depends on which
function it is: two digests are only ever compared for equality. -/
class Hash (α : Type) where
  /-- The digest of a value. -/
  digest : α → Digest

/-- The states of an attempt and of a job, on both sides. Each record allows only some of them. -/
inductive State
  | queued | preparing | prepared | starting | running
  | succeeded | failed | cancelled | expired | unknown | released | abandoned
deriving DecidableEq, Repr

/-- The states of an observed final result. -/
def TERMINAL : List State := [.succeeded, .failed, .cancelled, .expired]

/-- The bound of the `Revision` type, the largest integer that every JSON reader keeps. -/
def maximumRevision : ℕ := 2 ^ 53 - 1

/-- Resource amounts, both those that a job asks for and those that a node offers. -/
structure Limits where
  cpuMillis : ℕ
  memoryBytes : ℕ
  swapBytes : ℕ
  processes : ℕ
  storageBytes : ℕ
  storageInodes : ℕ
  gpuDevices : List String
  /-- The validator `distinct` has accepted the devices. -/
  devices : gpuDevices.Nodup
deriving DecidableEq

/-- The request is below the ceiling in every amount and names only devices of it. -/
def Limits.fits (limits ceiling : Limits) : Prop :=
  limits.cpuMillis ≤ ceiling.cpuMillis ∧ limits.memoryBytes ≤ ceiling.memoryBytes ∧
    limits.swapBytes ≤ ceiling.swapBytes ∧ limits.processes ≤ ceiling.processes ∧
    limits.storageBytes ≤ ceiling.storageBytes ∧ limits.storageInodes ≤ ceiling.storageInodes ∧
    limits.gpuDevices ⊆ ceiling.gpuDevices

instance (limits ceiling : Limits) : Decidable (limits.fits ceiling) :=
  inferInstanceAs (Decidable (_ ∧ _))

/-- The installed runtime that a job asks for. -/
structure Runtime where
  provider : String
  packageDigest : Digest
  imageDigest : Digest
  isolation : String
  network : String
deriving DecidableEq

/-- The command of a job. -/
structure Payload where
  argv : List String
  environment : Finmap fun _ : String => String
deriving DecidableEq

/-- Where the bytes of an input come from. -/
inductive Delivery
  | local_ | stream
deriving DecidableEq

/-- An input object of a job. -/
structure ObjectReference where
  id : Identity
  digest : Digest
  bytes : ℕ
  name : String
  delivery : Delivery
deriving DecidableEq

/-- A named output path of a job. -/
structure Output where
  name : String
  path : String
deriving DecidableEq

/-- The inference endpoint of a job. -/
structure Endpoint where
  socket : String
  paths : List String
  concurrency : ℕ
deriving DecidableEq

/-- A job as it is submitted and as it is sent to an executor. -/
structure Job where
  name : String
  runtime : Runtime
  payload : Payload
  limits : Limits
  inputs : List ObjectReference
  outputs : List Output
  sensitive : Bool
  endpoint : Option Endpoint
deriving DecidableEq

/-- The bytes of all inputs of a job. -/
def Job.inputBytes (job : Job) : ℕ := (job.inputs.map ObjectReference.bytes).sum

/-- The immutable plan of one attempt. -/
structure Plan where
  version : ℕ
  deploymentId : Identity
  nodeId : Identity
  projectId : Identity
  subjectId : Identity
  jobId : Identity
  attemptId : Identity
  generation : ℕ
  offerRevision : ℕ
  policyRevision : ℕ
  job : Job
deriving DecidableEq

/-- The digest of the plan. -/
def Plan.digest [Hash Plan] (plan : Plan) : Digest := Hash.digest plan

/-- The name of one attempt under one plan. -/
@[ext]
structure Fence where
  attemptId : Identity
  generation : ℕ
  planDigest : Digest
deriving DecidableEq

/-- The fence that a plan determines. -/
def Plan.fence [Hash Plan] (plan : Plan) : Fence :=
  ⟨plan.attemptId, plan.generation, plan.digest⟩

@[simp]
theorem Plan.fence_attemptId [Hash Plan] (plan : Plan) : plan.fence.attemptId = plan.attemptId :=
  rfl

/-- An execution lease. -/
structure Renewal extends Fence where
  sequence : ℕ
  expiresAt : ℚ
  /-- The field is declared with `ge=1`. -/
  sequence_pos : 1 ≤ sequence
  /-- The field is declared with `gt=0`. -/
  expiresAt_pos : 0 < expiresAt
deriving DecidableEq

/-- The states that an executor can report. -/
def State.Reported (state : State) : Prop :=
  state ≠ .queued ∧ state ≠ .preparing ∧ state ≠ .abandoned

instance (state : State) : Decidable state.Reported := inferInstanceAs (Decidable (_ ∧ _))

theorem State.reported_unknown : State.unknown.Reported := by decide

theorem State.released_unknown : State.unknown = .released → false = true := by decide

theorem State.succeeded_unknown : State.unknown = .succeeded → (none : Option ℕ) = some 0 := by
  decide

/-- An observed result. The validator `terminal_truth` and the literal type of the state are the
proof fields, so that a result that the validator refuses cannot be built. -/
structure AttemptResult extends Fence where
  state : State
  reason : Option String
  exitCode : Option ℕ
  outputBytes : ℕ
  errorBytes : ℕ
  cleanupConfirmed : Bool
  reported : state.Reported
  released_cleanup : state = .released → cleanupConfirmed = true
  succeeded_exitCode : state = .succeeded → exitCode = some 0
deriving DecidableEq

/-- Validates the fields of a result. -/
def AttemptResult.validate (fence : Fence) (state : State) (reason : Option String)
    (exitCode : Option ℕ) (outputBytes errorBytes : ℕ) (cleanupConfirmed : Bool) :
    Except Error AttemptResult :=
  if hreported : state.Reported then
    if hreleased : state = .released → cleanupConfirmed = true then
      if hsucceeded : state = .succeeded → exitCode = some 0 then
        if ∀ code ∈ exitCode, code ≤ 255 then
          .ok { fence with
            state, reason, exitCode, outputBytes, errorBytes, cleanupConfirmed
            reported := hreported
            released_cleanup := hreleased
            succeeded_exitCode := hsucceeded }
        else .error (.value "Input should be less than or equal to 255")
      else .error (.value "Success requires an observed zero exit status.")
    else .error (.value "Release requires confirmed workload cleanup.")
  else .error (.value "Input should be a reported state")

/-- What a validated result consists of. -/
theorem AttemptResult.validate_eq_ok {fence : Fence} {state : State} {reason : Option String}
    {exitCode : Option ℕ} {outputBytes errorBytes : ℕ} {cleanupConfirmed : Bool}
    {result : AttemptResult}
    (h : validate fence state reason exitCode outputBytes errorBytes cleanupConfirmed =
      .ok result) :
    result.toFence = fence ∧ result.state = state ∧ result.reason = reason ∧
      result.exitCode = exitCode ∧ result.outputBytes = outputBytes ∧
      result.errorBytes = errorBytes ∧ result.cleanupConfirmed = cleanupConfirmed := by
  unfold validate at h
  split_ifs at h
  obtain rfl := Except.ok.inj h
  exact ⟨rfl, rfl, rfl, rfl, rfl, rfl, rfl⟩

end Ficc.Execution
