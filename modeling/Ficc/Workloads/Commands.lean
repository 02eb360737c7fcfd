import Ficc.Workloads.Runner

/-!
# Commands and their answers

The controller binds what an executor reports to the stored attempt before it records it. A
report that the attempt has been released is recorded in two transactions: first the outcome that
the attempt had before, then the release.

Which reports the controller takes is described by the actions of `Records`: an accepted report
acts on the attempt once or twice.
-/

namespace Ficc.Workloads

open Execution

/-- The fence with which the controller names an attempt. -/
def Attempt.fence [Hash Plan] (attempt : Attempt) : Fence :=
  ⟨attempt.id, attempt.plan.generation, attempt.plan.digest⟩

namespace Commands

section Definitions

variable [Hash Plan]

/-- The stored attempt of a report that comes from its ledger and stays within its lease. -/
def bound (store : Store) (report : Report) (snapshot : Snapshot) : Except Error Attempt := do
  let stored ← store.attempt report.attemptId
  raiseIf (stored.ledgerId ≠ none ∧ (stored.ledgerId, stored.admissionVersion) ≠
      (snapshot.ledgerId, snapshot.admissionVersion))
    (.failure "executor_replaced" "The result belongs to another executor admission ledger." 409)
  raiseIf (report.jobId ≠ stored.plan.jobId ∨ report.projectId ≠ stored.plan.projectId ∨
      report.offerRevision ≠ stored.plan.offerRevision ∨
      stored.lease.sequence < report.leaseSequence ∨
      stored.lease.expiresAt < report.leaseExpiresAt)
    (.failure "attempt_changed" "The executor result does not bind the admitted workload or lease."
      409)
  .ok stored

/-- The result that a released attempt had before its release. -/
def retained (report : Report) : Except Error AttemptResult := do
  let error := Error.failure "executor_response" "The released attempt has no retained outcome." 502
  let outcome ← orRaise report.outcome error
  raiseIf (¬outcome.Final) error
  AttemptResult.validate report.toFence outcome report.reason report.exitCode report.outputBytes
    report.errorBytes report.cleanupConfirmed

/-- One transaction of an observation. -/
def record (store : Store) (result : AttemptResult) (snapshot : Snapshot) (now : ℚ) :
    Store × Except Error Attempt :=
  match store.observation result snapshot.nodeId snapshot.installationId now with
  | .ok (attempt, next) => (next, .ok attempt)
  | .error e => (store, .error e)

/-- Records what an executor reports, under the snapshot that the controller has of it. What the
first transaction has committed stays when the second raises. -/
def observation (store : Store) (report : Report) (snapshot : Snapshot) (now : ℚ) :
    Store × Except Error Attempt :=
  match bound store report snapshot with
  | .error e => (store, .error e)
  | .ok stored =>
    if report.state = .released ∧ stored.state ≠ .released then
      match retained report with
      | .error e => (store, .error e)
      | .ok result =>
        match record store result snapshot now with
        | (_, .error e) => (store, .error e)
        | (next, .ok _) => record next report.toAttemptResult snapshot now
    else record store report.toAttemptResult snapshot now

/-- Keeps the outcome of a dispatched attempt open. -/
def uncertain (store : Store) (identity : Identity) (reason : String) (now : ℚ) :
    Except Error Store := do
  let attempt ← store.attempt identity
  if Dispatched attempt.state then
    (store.transition identity attempt.state .unknown (some reason) now).map Prod.snd
  else .ok store

end Definitions

section Accepted

/-- What the controller may record of a report: the reported result or, when the attempt has been
released, the outcome that it had before. -/
def Accepts (report : Report) (result : AttemptResult) : Prop :=
  result = report.toAttemptResult ∨
    (report.state = .released ∧ report.outcome = some result.state ∧ result.state.Final ∧
      result.toFence = report.toFence ∧ result.reason = report.reason ∧
      result.exitCode = report.exitCode ∧ result.outputBytes = report.outputBytes ∧
      result.errorBytes = report.errorBytes ∧ result.cleanupConfirmed = report.cleanupConfirmed)

variable {report : Report} {result : AttemptResult}

theorem Accepts.toFence (h : Accepts report result) :
    result.toFence = report.toFence := by
  obtain rfl | ⟨-, -, -, hfence, -⟩ := h
  · rfl
  · exact hfence

/-- A recorded release was reported. -/
theorem Accepts.released (h : Accepts report result) (hreleased : result.state = .released) :
    result = report.toAttemptResult := by
  obtain rfl | ⟨-, -, hfinal, -⟩ := h
  · rfl
  · rw [hreleased] at hfinal
    exact absurd hfinal (by decide)

theorem accepts_of_retained (hreleased : report.state = .released)
    (h : retained report = .ok result) :
    Accepts report result ∧ result.state ≠ .released := by
  simp only [retained, bind_eq_ok, orRaise_eq_ok, raiseIf_eq_ok, exists_const, not_not] at h
  obtain ⟨outcome, houtcome, hfinal, hvalid⟩ := h
  obtain ⟨hfence, rfl, hrest⟩ := AttemptResult.validate_eq_ok hvalid
  refine ⟨.inr ⟨hreleased, houtcome, hfinal, hfence, hrest⟩, fun hsame => ?_⟩
  rw [hsame] at hfinal
  exact absurd hfinal (by decide)

variable [Hash Plan] {store store' : Store}

/-- The second store has recorded the report, in any number of actions on its attempt. -/
def Records (report : Report) : Store → Store → Prop :=
  Relation.ReflTransGen fun store store' => ∃ result job attempt, Accepts report result ∧
    Store.Acts store (.observe result) job attempt store'

theorem Records.bound (hb : store.Bound) (h : Records report store store') :
    store'.Bound := by
  induction h with
  | refl => exact hb
  | tail _ hlast _ =>
    obtain ⟨result, job, attempt, -, hacts⟩ := hlast
    obtain ⟨job', attempt', -, -, -, -, hwrites⟩ := hacts.writes
    exact hwrites.bound

theorem records_record (hb : store.Bound) (haccepts : Accepts report result) (snapshot : Snapshot)
    (now : ℚ) :
    Records report store (record store result snapshot now).1 := by
  unfold record
  split
  · rename_i attempt next hobserve
    obtain ⟨found, -, -, -, ⟨-, -, hsame⟩ | ⟨job, hacts⟩⟩ := Store.observation_eq_ok hb hobserve
    · rw [hsame]
      exact .refl
    · exact .single ⟨result, job, found, haccepts, hacts⟩
  · exact .refl

/-- An observation records its report, whether it returns or raises. -/
theorem records_observation (hb : store.Bound) (report : Report) (snapshot : Snapshot) (now : ℚ) :
    Records report store (observation store report snapshot now).1 := by
  unfold observation
  split
  · exact .refl
  rename_i stored hbound
  split_ifs with hreleased
  · split
    · exact .refl
    rename_i result hretained
    have hfirst := records_record hb (accepts_of_retained hreleased.1 hretained).1 snapshot now
    split
    · exact .refl
    · rename_i next attempt hrecord
      rw [hrecord] at hfirst
      exact hfirst.trans (records_record (hfirst.bound hb) (.inl rfl) snapshot now)
  · exact records_record hb (.inl rfl) snapshot now

end Accepted

end Commands

namespace Runner

variable [Hash Plan]

/-- The checks of `authority` that bind an attempt to the executor that would get it. The others
only delay or prevent a command. -/
def bindsExecutor (attempt : Attempt) (snapshot : Snapshot) : Except Error Unit := do
  raiseIf (snapshot.installationId ≠ attempt.installationId)
    (.failure "executor_replaced" "The executor installation changed." 409)
  raiseIf (attempt.ledgerId ≠ none ∧ (snapshot.ledgerId, snapshot.admissionVersion) ≠
      (attempt.ledgerId, attempt.admissionVersion))
    (.failure "executor_replaced" "The executor admission ledger changed." 409)

/-- The attempts whose absence an executor is asked to confirm: nothing has been observed of
them, no start has been requested, and they belong to the ledger of the snapshot. -/
def RejectCandidate (snapshot : Snapshot) (attempt : Attempt) : Prop :=
  attempt.state = .unknown ∧ attempt.observed = none ∧ attempt.startRequested = false ∧
    attempt.admissionVersion = 1 ∧ snapshot.admissionVersion = 1 ∧
    (attempt.installationId, attempt.ledgerId) = (snapshot.installationId, snapshot.ledgerId)

instance (snapshot : Snapshot) (attempt : Attempt) :
    Decidable (RejectCandidate snapshot attempt) := inferInstanceAs (Decidable (_ ∧ _))

end Runner

end Ficc.Workloads
