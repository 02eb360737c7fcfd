import Ficc.Execution.Snapshot

/-!
# Workload records

The records of the controller: a submission, the delegation under which it runs, the job with its
state, and the attempts with the observations of their executors. A record is validated whenever
it is written, and `Record.Valid` and `Attempt.Valid` are those validators.
-/

namespace Ficc.Workloads

open Execution

/-- A dataset that a submission reads. -/
structure DatasetSelection where
  id : Identity
  manifestDigest : Digest
deriving DecidableEq

/-- A job with the contributors that may run it. -/
structure Submission where
  job : Job
  nodeIds : List Identity
  dataset : Option DatasetSelection
  modelRevision : Option Identity
  nodes_distinct : nodeIds.Nodup
  one_source : dataset = none ∨ modelRevision = none
deriving DecidableEq

/-- The authority under which a job runs, as it was captured at submission. -/
structure Delegation where
  id : Identity
  subjectId : Identity
  projectId : Identity
  credentialId : Identity
  scopes : List String
  subjectRevision : ℕ
  projectRevision : ℕ
  membershipRevision : ℕ
  policyRevision : ℕ
  roleRevision : ℕ
  policyDigest : Option Digest
  publisherRevision : ℕ
deriving DecidableEq

/-- A job of the controller. -/
structure Record where
  id : Identity
  subjectId : Identity
  projectId : Identity
  actor : Identity
  key : String
  digest : Digest
  request : Submission
  delegation : Delegation
  state : State
  reason : Option String
  currentAttempt : Option Identity
  generation : ℕ
  cancelled : Bool
  createdAt : ℚ
  updatedAt : ℚ
  revision : ℕ
deriving DecidableEq

/-- The literal type of the state, the declared ranges, and the validator `ownership`. -/
structure Record.Valid (record : Record) : Prop where
  literal : record.state ≠ .released ∧ record.state ≠ .abandoned
  createdAt_nonneg : 0 ≤ record.createdAt
  revision_le : record.revision ≤ maximumRevision
  owner : (record.subjectId, record.projectId) =
    (record.delegation.subjectId, record.delegation.projectId)
  ordered : record.createdAt ≤ record.updatedAt
  attempted : record.currentAttempt = none ↔ record.generation = 0

instance (record : Record) : Decidable record.Valid :=
  decidable_of_iff
    ((record.state ≠ .released ∧ record.state ≠ .abandoned) ∧ 0 ≤ record.createdAt ∧
      record.revision ≤ maximumRevision ∧
      (record.subjectId, record.projectId) =
        (record.delegation.subjectId, record.delegation.projectId) ∧
      record.createdAt ≤ record.updatedAt ∧
      (record.currentAttempt = none ↔ record.generation = 0))
    ⟨fun ⟨h₁, h₂, h₃, h₄, h₅, h₆⟩ => ⟨h₁, h₂, h₃, h₄, h₅, h₆⟩,
      fun ⟨h₁, h₂, h₃, h₄, h₅, h₆⟩ => ⟨h₁, h₂, h₃, h₄, h₅, h₆⟩⟩

/-- An attempt of a job on a contributor. -/
structure Attempt where
  id : Identity
  jobId : Identity
  nodeId : Identity
  installationId : Identity
  ledgerId : Option Identity
  admissionVersion : ℕ
  plan : Plan
  lease : Renewal
  observed : Option AttemptResult
  outcome : Option AttemptResult
  startRequested : Bool
  state : State
  createdAt : ℚ
  updatedAt : ℚ
deriving DecidableEq

/-- The literal type of the state, the declared ranges, and the validator `binding`. -/
structure Attempt.Valid [Hash Plan] (attempt : Attempt) : Prop where
  literal : attempt.state ≠ .queued
  createdAt_nonneg : 0 ≤ attempt.createdAt
  admission : attempt.admissionVersion = 1 ↔ attempt.ledgerId ≠ none
  plan_bound : (attempt.id, attempt.jobId, attempt.nodeId) =
    (attempt.plan.attemptId, attempt.plan.jobId, attempt.plan.nodeId)
  lease_bound : attempt.lease.toFence = attempt.plan.fence
  observed_bound : ∀ observed ∈ attempt.observed, observed.toFence = attempt.plan.fence
  outcome_bound : ∀ outcome ∈ attempt.outcome, outcome.toFence = attempt.plan.fence ∧
    (outcome.state ∈ TERMINAL ∨ outcome.state = .unknown)
  released : attempt.state = .released →
    ∃ observed ∈ attempt.observed, observed.cleanupConfirmed = true
  ordered : attempt.createdAt ≤ attempt.updatedAt

instance [Hash Plan] (attempt : Attempt) : Decidable attempt.Valid :=
  decidable_of_iff
    (attempt.state ≠ .queued ∧ 0 ≤ attempt.createdAt ∧
      (attempt.admissionVersion = 1 ↔ attempt.ledgerId ≠ none) ∧
      (attempt.id, attempt.jobId, attempt.nodeId) =
        (attempt.plan.attemptId, attempt.plan.jobId, attempt.plan.nodeId) ∧
      attempt.lease.toFence = attempt.plan.fence ∧
      (∀ observed ∈ attempt.observed, observed.toFence = attempt.plan.fence) ∧
      (∀ outcome ∈ attempt.outcome, outcome.toFence = attempt.plan.fence ∧
        (outcome.state ∈ TERMINAL ∨ outcome.state = .unknown)) ∧
      (attempt.state = .released →
        ∃ observed ∈ attempt.observed, observed.cleanupConfirmed = true) ∧
      attempt.createdAt ≤ attempt.updatedAt)
    ⟨fun ⟨h₁, h₂, h₃, h₄, h₅, h₆, h₇, h₈, h₉⟩ => ⟨h₁, h₂, h₃, h₄, h₅, h₆, h₇, h₈, h₉⟩,
      fun ⟨h₁, h₂, h₃, h₄, h₅, h₆, h₇, h₈, h₉⟩ => ⟨h₁, h₂, h₃, h₄, h₅, h₆, h₇, h₈, h₉⟩⟩

/-- The states in which an attempt may still run. -/
def Dispatched (state : State) : Prop :=
  state ∈ [State.preparing, .prepared, .starting, .running]

instance (state : State) : Decidable (Dispatched state) := inferInstanceAs (Decidable (_ ∈ _))

/-- A contributor, with the fields that the workload code reads. -/
structure Contributor where
  projectId : Identity
  mode : Mode
  disabled : Bool
  revision : ℕ
deriving DecidableEq

/-- The last snapshot of a contributor, without its attempts. -/
structure Observation where
  snapshot : Snapshot
  observedAt : ℚ
deriving DecidableEq

end Ficc.Workloads
