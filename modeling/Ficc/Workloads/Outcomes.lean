import Ficc.Execution.Reservations
import Ficc.Workloads.StoreRuns

/-!
# Final outcomes

What is final in the record of an attempt. Its outcome only ever gains the confirmation of the
cleanup, and a released or abandoned attempt does not change at all.

An attempt with an outcome is not resurrected either, as long as no executor reports activity of
an attempt that the controller has as `unknown`. The guard of `observation` compares with the
last state only, so an attempt that went from a terminal state to `unknown` can go on to
`running`.
-/

namespace Ficc.Workloads

open Execution

/-- The second record of an attempt keeps what is final in the first. -/
structure Attempt.Continues (attempt attempt' : Attempt) : Prop where
  outcome : ∀ outcome ∈ attempt.outcome,
    ∃ outcome' ∈ attempt'.outcome, Store.SameOutcome outcome outcome'
  retired : Store.Retired attempt → attempt' = attempt

theorem Attempt.Continues.refl (attempt : Attempt) : attempt.Continues attempt :=
  ⟨fun outcome houtcome => ⟨outcome, houtcome, rfl, rfl, rfl, rfl, rfl, rfl⟩, fun _ => rfl⟩

theorem Store.SameOutcome.trans {first second third : AttemptResult}
    (h₁ : Store.SameOutcome first second) (h₂ : Store.SameOutcome second third) :
    Store.SameOutcome first third := by
  obtain ⟨a₁, b₁, c₁, d₁, e₁, f₁⟩ := h₁
  obtain ⟨a₂, b₂, c₂, d₂, e₂, f₂⟩ := h₂
  exact ⟨a₁.trans a₂, b₁.trans b₂, c₁.trans c₂, d₁.trans d₂, e₁.trans e₂, f₁.trans f₂⟩

theorem Attempt.Continues.trans {first second third : Attempt} (h₁ : first.Continues second)
    (h₂ : second.Continues third) : first.Continues third where
  outcome outcome houtcome := by
    obtain ⟨outcome', houtcome', hsame⟩ := h₁.outcome outcome houtcome
    obtain ⟨outcome'', houtcome'', hsame'⟩ := h₂.outcome outcome' houtcome'
    exact ⟨outcome'', houtcome'', hsame.trans hsame'⟩
  retired hretired := by
    have heq := h₁.retired hretired
    rw [h₂.retired (by rwa [heq]), heq]

section Finality

variable [Hash Plan]

variable {action : Action} {attempt : Attempt} {job : Record}

/-- A retired attempt admits no action. -/
theorem Action.Allowed.not_retired (h : action.Allowed job attempt) : ¬Store.Retired attempt := by
  rintro (hstate | hstate)
  · cases action with
    | observe result => exact h.2.1 hstate
    | dispatch state reason => simp [Action.Allowed, Store.transitions, hstate] at h
    | renew lease => simp [Action.Allowed, State.Active, hstate] at h
    | abandon => exact h.2.1 hstate
  · cases action with
    | observe result => exact h.1 hstate
    | dispatch state reason => simp [Action.Allowed, Store.transitions, hstate] at h
    | renew lease => simp [Action.Allowed, State.Active, hstate] at h
    | abandon => exact h.2.2 hstate

/-- An action keeps what is final in the record of the attempt. -/
theorem Action.continues_applyAttempt {attempt' : Attempt} (h : action.Allowed job attempt)
    (htouches : (action.applyAttempt attempt).Touches attempt') :
    attempt.Continues attempt' := by
  refine ⟨fun outcome houtcome => ?_, fun hretired => absurd hretired h.not_retired⟩
  obtain ⟨updatedAt, rfl⟩ := htouches
  have hself : Store.SameOutcome outcome outcome := ⟨rfl, rfl, rfl, rfl, rfl, rfl⟩
  cases action with
  | observe result =>
    by_cases hconclusive : Store.Conclusive result
    · refine ⟨result, ?_, h.2.2.2.2.2.1 hconclusive outcome houtcome⟩
      simp [applyAttempt, Store.observedAttempt, hconclusive]
    · refine ⟨outcome, ?_, hself⟩
      simpa [applyAttempt, Store.observedAttempt, hconclusive] using houtcome
  | dispatch state reason => exact ⟨outcome, houtcome, hself⟩
  | renew lease => exact ⟨outcome, houtcome, hself⟩
  | abandon =>
    refine ⟨outcome, ?_, hself⟩
    rw [Option.mem_def] at houtcome
    simp [applyAttempt, houtcome]

/-- The states of an attempt or a job that neither waits nor runs. -/
def Closed (state : State) : Prop := ¬Dispatched state ∧ state ≠ .queued

instance (state : State) : Decidable (Closed state) := inferInstanceAs (Decidable (_ ∧ _))

omit [Hash Plan] in
theorem closed_of_final {state : State} (h : state ∈ TERMINAL ∨ state = .unknown) :
    Closed state := by
  revert h
  cases state <;> decide

/-- An action that records the first outcome of an attempt ends the attempt and its job. -/
theorem Action.closed_of_outcome (h : action.Allowed job attempt) (hnone : attempt.outcome = none)
    (hsome : (action.applyAttempt attempt).outcome ≠ none) :
    Closed (action.applyAttempt attempt).state ∧ Closed (action.applyJob job).state := by
  cases action with
  | observe result =>
    have hconclusive : Store.Conclusive result := by
      by_contra hnot
      exact hsome (by simp [applyAttempt, Store.observedAttempt, hnot, hnone])
    have hfinal : result.state ∈ TERMINAL ∨ result.state = .unknown :=
      hconclusive.imp_right And.left
    have hstate : result.state ≠ .released := by
      intro hreleased
      simp [hreleased, TERMINAL] at hfinal
    rw [applyJob, if_pos hstate]
    exact ⟨closed_of_final hfinal, closed_of_final hfinal⟩
  | dispatch state reason => exact absurd hnone hsome
  | renew lease => exact absurd hnone hsome
  | abandon =>
    refine ⟨by simp [Closed, applyAttempt, Dispatched], ?_⟩
    rw [applyJob, h.1]
    exact closed_of_final (.inr rfl)

/-- An ended attempt with its job stays ended, unless it is uncertain and activity is reported. -/
theorem Action.closed_apply (h : action.Allowed job attempt) (hattempt : Closed attempt.state)
    (hjob : Closed job.state)
    (hquiet : ∀ result, action = .observe result → attempt.state = .unknown → ¬Dispatched result.state)
    :
    Closed (action.applyAttempt attempt).state ∧ Closed (action.applyJob job).state := by
  cases action with
  | observe result =>
    have hresult : Closed result.state := by
      refine ⟨?_, result.reported.1⟩
      by_cases hterminal : attempt.state ∈ TERMINAL
      · -- A terminal state is followed by itself, the release or uncertainty.
        have hnext := h.2.2.2.1 hterminal
        simp only [List.mem_cons, List.not_mem_nil, or_false] at hnext
        obtain heq | heq | heq := hnext
        · rw [heq]
          exact hattempt.1
        · simp [heq, Dispatched]
        · simp [heq, Dispatched]
      · refine hquiet result rfl ?_
        have habandoned := h.1
        have hreleased := h.2.1
        revert habandoned hreleased hterminal hattempt
        cases attempt.state <;> decide
    refine ⟨hresult, ?_⟩
    by_cases hreleased : result.state ≠ .released
    · rw [applyJob, if_pos hreleased]
      exact hresult
    · rw [applyJob, if_neg hreleased]
      exact hjob
  | dispatch state reason =>
    refine absurd h.1 (fun hlisted => hattempt.1 ?_)
    revert hlisted
    cases attempt.state <;> simp [Store.transitions, Dispatched]
  | renew lease =>
    refine absurd h.1 (fun hactive => hattempt.1 ?_)
    revert hactive
    cases attempt.state <;> simp [State.Active, Dispatched]
  | abandon => exact ⟨by simp [Closed, applyAttempt, Dispatched], hjob⟩

namespace Store

variable [Hash Submission] {store store' : Store}

section Final

/-- A released attempt has an outcome, and its cleanup was observed. -/
def ReleasedSettled (store : Store) : Prop :=
  ∀ id attempt, store.lookupAttempt id = some attempt → attempt.state = .released →
    attempt.outcome ≠ none ∧ ∃ observed ∈ attempt.observed, observed.cleanupConfirmed = true

/-- Along the operations every attempt keeps what is final in its record, until its job is
removed. -/
def KeepsOutcomes (store : Store) (operations : List Operation) : Prop :=
  ∀ id attempt, store.lookupAttempt id = some attempt →
    (∃ attempt', (run step store operations).lookupAttempt id = some attempt' ∧
      attempt.Continues attempt') ∨
    ∃ first, first <+: operations ∧ (run step store first).lookupAttempt id = none

/-- One operation keeps what is final in the record of an attempt, or removes it. -/
theorem continues_step (hl : store.Linked) (operation : Operation) {id : Identity}
    {attempt : Attempt} (hattempt : store.lookupAttempt id = some attempt) :
    (∃ attempt', (store.step operation).lookupAttempt id = some attempt' ∧
      attempt.Continues attempt') ∨ (store.step operation).lookupAttempt id = none := by
  obtain hsame | ⟨event, -, hchanges⟩ := changes_step hl operation
  · exact .inl ⟨attempt, by rw [hsame.lookupAttempt, hattempt], .refl attempt⟩
  · obtain hkept | ⟨action, job, attempt', rfl, htouches, hattempt'⟩ | ⟨job, -, -, hnone⟩ :=
      lookupAttempt_of_changes hl hchanges hattempt
    · exact .inl ⟨attempt, hkept, .refl attempt⟩
    · exact .inl ⟨attempt', hattempt',
        Action.continues_applyAttempt (Acts.allowed hchanges) htouches⟩
    · exact .inr hnone

theorem releasedSettled_step (hl : store.Linked) (h : store.ReleasedSettled)
    (operation : Operation) : (store.step operation).ReleasedSettled := by
  intro id attempt' hattempt' hreleased
  have hvalid := (linked_step hl operation).attempt hattempt'
  refine ⟨?_, hvalid.released hreleased⟩
  obtain hsame | ⟨event, -, hchanges⟩ := changes_step hl operation
  · rw [hsame.lookupAttempt] at hattempt'
    exact (h id attempt' hattempt' hreleased).1
  · cases hbefore : store.lookupAttempt id with
    | none =>
      -- A new attempt is not released.
      obtain ⟨job, rfl, -⟩ := reserve_of_changes hl hchanges hbefore hattempt'
      obtain ⟨now, hcreated⟩ := Reserves.created hchanges
      rw [hcreated] at hreleased
      exact absurd hreleased (by simp [reserved])
    | some attempt =>
      obtain hkept | ⟨action, job, found, rfl, htouches, hfound⟩ | ⟨job, -, -, hnone⟩ :=
        lookupAttempt_of_changes hl hchanges hbefore
      · obtain rfl := Option.some.inj (hkept.symm.trans hattempt')
        exact (h id attempt hbefore hreleased).1
      · obtain rfl := Option.some.inj (hfound.symm.trans hattempt')
        have hallowed := Acts.allowed hchanges
        have hcontinues := Action.continues_applyAttempt hallowed htouches
        obtain ⟨updatedAt, rfl⟩ := htouches
        -- Only an observation releases, and it requires an outcome.
        cases action with
        | observe result =>
          obtain ⟨outcome, houtcome⟩ :=
            Option.ne_none_iff_exists'.mp (hallowed.2.2.2.2.2.2 hreleased).2
          obtain ⟨outcome', houtcome', -⟩ := hcontinues.outcome outcome houtcome
          exact Option.ne_none_iff_exists'.mpr ⟨outcome', houtcome'⟩
        | dispatch state reason =>
          have hstate : state = .released := hreleased
          simp [Action.Allowed, transitions, hstate] at hallowed
        | renew lease => exact absurd (.inl hreleased) hallowed.not_retired
        | abandon => exact absurd hreleased (by simp [Action.applyAttempt])
      · rw [hnone] at hattempt'
        exact absurd hattempt' (by simp)

/-- The outcome of an attempt is final up to the confirmation of its cleanup, released attempts
have an outcome and a confirmed cleanup, and released and abandoned attempts never change. -/
theorem outcomes_final (projects identities : List Identity)
    (contributors : Table Identity Contributor) (policyRevision : ℕ) (managed : List String)
    (before after : List Operation) :
    let store := run step (initial projects identities contributors policyRevision managed) before
    store.ReleasedSettled ∧ store.KeepsOutcomes after := by
  intro store
  have hinvariant : store.Linked ∧ store.ReleasedSettled := by
    refine run_invariant (I := fun store => Linked store ∧ ReleasedSettled store)
      (fun store operation h => ?_) ⟨linked_initial .., ?_⟩ before
    · exact ⟨linked_step h.1 operation, releasedSettled_step h.1 h.2 operation⟩
    · simp [ReleasedSettled, initial, lookupAttempt]
  refine ⟨hinvariant.2, fun id attempt hattempt => ?_⟩
  -- The record continues from step to step, until the attempt is gone.
  have hlasts : ∀ store operation, Linked store → True →
      (∃ middle, store.lookupAttempt id = some middle ∧ attempt.Continues middle) →
      (∃ attempt', (store.step operation).lookupAttempt id = some attempt' ∧
        attempt.Continues attempt') ∨ (store.step operation).lookupAttempt id = none := by
    rintro store operation hl - ⟨middle, hmiddle, hcontinues⟩
    obtain ⟨attempt', hattempt', hcontinues'⟩ | hnone := continues_step hl operation hmiddle
    · exact .inl ⟨attempt', hattempt', hcontinues.trans hcontinues'⟩
    · exact .inr hnone
  exact Along.run_until (I := Linked) (P := fun store => ∃ attempt',
      store.lookupAttempt id = some attempt' ∧ attempt.Continues attempt')
    (fun store => store.lookupAttempt id = none)
    (fun store operation hl _ => linked_step hl operation) hlasts hinvariant.1
    ⟨attempt, hattempt, .refl attempt⟩ (Along.trivial store after)

end Final

section Resurrection

/-- The operation retries the job. -/
def retries (store : Store) (jobId : Identity) : Operation → Bool
  | .retry identity revision delegation acknowledgeUnknown now =>
    decide (identity = jobId) &&
      (store.retry identity revision delegation acknowledgeUnknown now).isOk
  | _ => false

/-- The operation observes activity of an attempt that is recorded as uncertain although its
outcome is known. -/
def resurrects (store : Store) : Operation → Bool
  | .observation result _ _ _ =>
    decide (Dispatched result.state) &&
      (store.lookupAttempt result.attemptId).any fun attempt =>
        decide (attempt.state = .unknown) && attempt.outcome.isSome
  | _ => false

/-- The operation records the first outcome of the attempt. -/
def Concludes (store : Store) (operation : Operation) (id jobId : Identity) : Prop :=
  (∀ attempt, store.lookupAttempt id = some attempt → attempt.outcome = none) ∧
    ∃ attempt, (store.step operation).lookupAttempt id = some attempt ∧ attempt.jobId = jobId ∧
      attempt.outcome ≠ none

/-- The attempt has an outcome and is the last one of its job, and neither waits nor runs. -/
def Concluded (store : Store) (id jobId : Identity) : Prop :=
  ∃ attempt job, store.lookupAttempt id = some attempt ∧ attempt.jobId = jobId ∧
    attempt.outcome ≠ none ∧ Closed attempt.state ∧ store.lookupJob jobId = some job ∧
    job.currentAttempt = some id ∧ Closed job.state

variable {job : Record} {operation : Operation}

omit [Hash Plan] [Hash Submission] in
/-- A job acted on, after the action. -/
theorem closed_of_touches {action : Action} {job' : Record} (h : Closed (action.applyJob job).state)
    (htouches : (action.applyJob job).Touches job') :
    Closed job'.state := by
  obtain ⟨updatedAt, revision, rfl⟩ := htouches
  exact h

theorem Concludes.concluded (hl : store.Linked) {id jobId : Identity}
    (h : store.Concludes operation id jobId) : (store.step operation).Concluded id jobId := by
  obtain ⟨hnone, attempt', hattempt', hjobId, hsome⟩ := h
  obtain hsame | ⟨event, -, hchanges⟩ := changes_step hl operation
  · rw [hsame.lookupAttempt] at hattempt'
    exact absurd (hnone attempt' hattempt') hsome
  · cases hbefore : store.lookupAttempt id with
    | none =>
      obtain ⟨job, rfl, -⟩ := reserve_of_changes hl hchanges hbefore hattempt'
      obtain ⟨now, hcreated⟩ := Reserves.created hchanges
      rw [hcreated] at hsome
      exact absurd rfl hsome
    | some attempt =>
      obtain hkept | ⟨action, job, found, rfl, htouches, hfound⟩ | ⟨job, -, -, hgone⟩ :=
        lookupAttempt_of_changes hl hchanges hbefore
      · obtain rfl := Option.some.inj (hkept.symm.trans hattempt')
        exact absurd (hnone attempt hbefore) hsome
      · obtain rfl := Option.some.inj (hfound.symm.trans hattempt')
        obtain ⟨updatedAt, rfl⟩ := htouches
        have hacts : Acts store action job attempt (store.step operation) := hchanges
        have hid : attempt.id = id := hl.bound.attempt_id hbefore
        obtain ⟨hclosed, hclosed'⟩ :=
          Action.closed_of_outcome hacts.allowed (hnone attempt hbefore) hsome
        obtain ⟨job', attempt', htouches, -, hkeeps, hkeeps', hid', -, hwrites⟩ :=
          hacts.writes_keeps hl
        have hown : attempt.jobId = jobId := by rw [← hjobId]; cases action <;> rfl
        have hjob'id : job'.id = jobId := by rw [hid', hl.bound.job_id hacts.foundJob, hown]
        refine ⟨_, job', hattempt', hjobId, hsome, hclosed, ?_, ?_, closed_of_touches hclosed'
          htouches⟩
        · rw [hwrites.jobs, if_pos hjob'id.symm]
        · rw [hkeeps.current, hacts.current, hid]
      · rw [hgone] at hattempt'
        exact absurd hattempt' (by simp)

omit [Hash Submission] in
/-- An operation that resurrects nothing observes no activity of an uncertain attempt with an
outcome. -/
theorem not_dispatched_of_resurrects {result : AttemptResult} {attempt : Attempt}
    (h : store.resurrects operation = false)
    (hcauses : operation.Causes (.act (.observe result) job attempt))
    (hacts : Acts store (.observe result) job attempt store') (hunknown : attempt.state = .unknown)
    (hsome : attempt.outcome ≠ none) : ¬Dispatched result.state := by
  intro hdispatched
  cases operation with
  | observation result' nodeId installationId now =>
    obtain rfl : result = result' := hcauses
    have hid : result.attemptId = attempt.id := congrArg Fence.attemptId hacts.allowed.2.2.1
    simp [resurrects, hdispatched, hid, hacts.foundAttempt, hunknown, hsome] at h
  | _ => exact hcauses.elim

/-- An operation other than a retry of the job causes no retry event of it. -/
theorem not_retry_of_retries {delegation : Delegation} (hcall : store.call operation = .ok store')
    (hcauses : operation.Causes (.edit (.retry delegation) job)) :
    store.retries job.id operation = true := by
  cases operation with
  | retry identity revision delegation' acknowledgeUnknown now =>
    obtain rfl : job.id = identity := hcauses
    obtain ⟨⟨returned, next⟩, hretry, rfl⟩ := map_eq_ok.mp hcall
    simp [retries, hretry, Except.isOk, Except.toBool]
  | _ => exact hcauses.elim

/-- An ended attempt stays ended through every operation except a retry, a removal and a report
of activity while it is uncertain. -/
theorem Concluded.step (hl : store.Linked) {id jobId : Identity} (h : store.Concluded id jobId)
    (hquiet : store.resurrects operation = false) (hretry : store.retries jobId operation = false) :
    (store.step operation).Concluded id jobId ∨ (store.step operation).lookupJob jobId = none := by
  obtain ⟨attempt, job, hattempt, hown, hsome, hclosed, hjob, hcurrent, hclosed'⟩ := h
  cases hcall : store.call operation with
  | error e =>
    rw [Store.step, hcall]
    exact .inl ⟨attempt, job, hattempt, hown, hsome, hclosed, hjob, hcurrent, hclosed'⟩
  | ok next =>
    rw [Store.step, hcall]
    obtain ⟨hsame, -⟩ | ⟨event, hcauses, hchanges⟩ := changes_of_call hl hcall
    · exact .inl ⟨attempt, job, by rw [hsame.lookupAttempt, hattempt], hown, hsome, hclosed,
        by rw [hsame.lookupJob, hjob], hcurrent, hclosed'⟩
    · -- An action on the job is one on its current attempt, which is this one.
      have haction : ∀ {action acted}, event = .act action job acted →
          acted = attempt ∧ Closed (action.applyAttempt attempt).state ∧
            Closed (action.applyJob job).state := by
        rintro action acted rfl
        have hacts : Acts store action job acted next := hchanges
        have hacted : acted.id = id :=
          Option.some.inj (hacts.current.symm.trans hcurrent)
        have hfound := hacts.foundAttempt
        rw [hacted, hattempt] at hfound
        obtain rfl := Option.some.inj hfound
        refine ⟨rfl, Action.closed_apply hacts.allowed hclosed hclosed' ?_⟩
        rintro result rfl hunknown
        exact not_dispatched_of_resurrects hquiet hcauses hacts hunknown hsome
      have hjobNext : (∃ job', next.lookupJob jobId = some job' ∧ job'.currentAttempt = some id ∧
          Closed job'.state) ∨ next.lookupJob jobId = none := by
        obtain hkept | ⟨fresh, job', rfl, -, -⟩ | ⟨action, acted, job', hevent, htouches, hnew⟩ |
          ⟨change, job', rfl, htouches, hnew⟩ | ⟨rfl, hnone⟩ := lookupJob_of_changes hl hchanges hjob
        · exact .inl ⟨job, hkept, hcurrent, hclosed'⟩
        · exact absurd (Reserves.queued hchanges) hclosed'.2
        · refine .inl ⟨job', hnew, ?_, closed_of_touches (haction hevent).2.2 htouches⟩
          obtain ⟨updatedAt, revision, rfl⟩ := htouches
          cases action with
          | observe result =>
            by_cases hreleased : result.state ≠ .released <;>
              simp [Action.applyJob, hreleased, hcurrent]
          | dispatch state reason => exact hcurrent
          | renew lease => exact hcurrent
          | abandon => exact hcurrent
        · obtain ⟨updatedAt, revision, rfl⟩ := htouches
          cases change with
          | cancel =>
            refine .inl ⟨_, hnew, ?_, ?_⟩ <;> simp [Edit.apply, hclosed'.2, hcurrent, hclosed']
          | retry delegation =>
            have hid : job.id = jobId := hl.bound.job_id hjob
            rw [← hid, not_retry_of_retries hcall hcauses] at hretry
            exact absurd hretry (by simp)
          | pending reason => exact absurd (Edits.allowed hchanges) hclosed'.2
        · exact .inr hnone
      obtain ⟨job', hjob', hcurrent', hclosedJob⟩ | hnone := hjobNext
      · refine .inl ?_
        obtain hkept | ⟨action, acted, attempt', rfl, htouches, hattempt'⟩ |
          ⟨removed, rfl, hremoved, -⟩ := lookupAttempt_of_changes hl hchanges hattempt
        · exact ⟨attempt, job', hkept, hown, hsome, hclosed, hjob', hcurrent', hclosedJob⟩
        · have hacts : Acts store action acted attempt next := hchanges
          have hfound := hacts.foundJob
          rw [hown, hjob] at hfound
          obtain rfl := Option.some.inj hfound
          have hcontinues := Action.continues_applyAttempt hacts.allowed htouches
          obtain ⟨outcome, houtcome⟩ := Option.ne_none_iff_exists'.mp hsome
          obtain ⟨outcome', houtcome', -⟩ := hcontinues.outcome outcome houtcome
          refine ⟨attempt', job', hattempt', ?_, Option.ne_none_iff_exists'.mpr ⟨_, houtcome'⟩, ?_,
            hjob', hcurrent', hclosedJob⟩
          · obtain ⟨updatedAt, rfl⟩ := htouches
            cases action <;> exact hown
          · have hclosedAttempt := (haction rfl).2.1
            obtain ⟨updatedAt, rfl⟩ := htouches
            exact hclosedAttempt
        · rw [Removes.jobs hchanges, if_pos (hown.symm.trans hremoved)] at hjob'
          exact absurd hjob' (by simp)
      · exact .inr hnone

/-- Neither the attempt nor its job runs after the operations, or the job has been removed. -/
def Rests (store : Store) (operations : List Operation) (id jobId : Identity) : Prop :=
  (∃ attempt job, (run step store operations).lookupAttempt id = some attempt ∧
    ¬Dispatched attempt.state ∧ (run step store operations).lookupJob jobId = some job ∧
    ¬Dispatched job.state) ∨
  ∃ first, first <+: operations ∧ (run step store first).lookupJob jobId = none

/-- Once the outcome of an attempt is recorded, neither the attempt nor its job runs again until
the job is retried, in every run in which no activity of an uncertain attempt with an outcome is
observed. -/
theorem rests_until_retry (projects identities : List Identity)
    (contributors : Table Identity Contributor) (policyRevision : ℕ) (managed : List String)
    (before after : List Operation) (operation : Operation) (id jobId : Identity) :
    let store := run step (initial projects identities contributors policyRevision managed) before
    store.Concludes operation id jobId →
    Along step (fun store operation => store.retries jobId operation = false)
      (store.step operation) after →
    Along step (fun store operation => store.resurrects operation = false)
      (store.step operation) after →
    (store.step operation).Rests after id jobId := by
  intro store hconcludes hretry hquiet
  have hlinked : store.Linked := run_invariant (I := Linked)
    (fun store operation hl => linked_step hl operation) (linked_initial ..) before
  have hlasts : ∀ store operation, Linked store →
      retries store jobId operation = false ∧ resurrects store operation = false →
      Concluded store id jobId →
      Concluded (store.step operation) id jobId ∨ (store.step operation).lookupJob jobId = none :=
    fun store operation hl hcond hconcluded => hconcluded.step hl hcond.2 hcond.1
  have hrun := Along.run_until (I := Linked) (P := fun store => store.Concluded id jobId)
    (fun store => store.lookupJob jobId = none)
    (fun store operation hl _ => linked_step hl operation) hlasts (linked_step hlinked operation)
    (hconcludes.concluded hlinked) (hretry.and hquiet)
  refine hrun.imp_left ?_
  rintro ⟨attempt, job, hattempt, -, -, hclosed, hjob, -, hclosed'⟩
  exact ⟨attempt, job, hattempt, hclosed.1, hjob, hclosed'.1⟩

end Resurrection

end Store

end Finality

/-! ## A small deployment

One project with one contributor and a job that may run on it. The executor of the contributor is
the sample installation. -/

namespace Sample

open Execution.Sample (hash)

/-- The digest of a submission of the sample deployment. -/
@[reducible]
def submissionHash : Hash Submission := ⟨fun request => request.job.limits.cpuMillis⟩

/-- The only contributor. -/
def contributors : Table Identity Contributor := AList.singleton 1 ⟨1, .managed, false, 1⟩

/-- The deployment before the first submission. -/
def store : Store := .initial [1] [1] contributors 0 []

/-- A submission of a job with the given processor share. -/
def submission (cpuMillis : ℕ) : Submission :=
  { job := Execution.Sample.job cpuMillis, nodeIds := [1], dataset := none, modelRevision := none
    nodes_distinct := by simp, one_source := .inl rfl }

/-- The authority of the only user. -/
def delegation : Delegation :=
  { id := 1, subjectId := 1, projectId := 1, credentialId := 1, scopes := ["jobs:execute"]
    subjectRevision := 1, projectRevision := 1, membershipRevision := 1, policyRevision := 0
    roleRevision := 0, policyDigest := none, publisherRevision := 0 }

/-- An observation of the first attempt of the job 6. -/
def result (state : State) (exitCode : Option ℕ) (cleanupConfirmed : Bool)
    (reported : state.Reported) (released : state = .released → cleanupConfirmed = true)
    (succeeded : state = .succeeded → exitCode = some 0) : AttemptResult :=
  { @Plan.fence hash (Execution.Sample.plan 5 6 1 3) with
    state, reason := none, exitCode, outputBytes := 0, errorBytes := 0, cleanupConfirmed
    reported, released_cleanup := released, succeeded_exitCode := succeeded }

/-- The job 6 is submitted, and its first attempt is reserved. -/
def reserved : List Store.Operation :=
  let plan := Execution.Sample.plan 5 6 1 3
  [.submit (submission 3) "sixteen-letter-key" delegation 6 100,
    .reserve plan (Execution.Sample.lease plan 1 110 Nat.one_pos Execution.Sample.lease_pos) 1
      (Execution.Sample.limits 4) (some 7) 1 101]

/-- The attempt is observed as succeeded. -/
def succeeded : Store.Operation :=
  .observation (result .succeeded (some 0) true (by decide) (by decide) (by decide)) 1 1 102

/-- The attempt is observed as uncertain. -/
def uncertain : Store.Operation :=
  .observation (result .unknown none false State.reported_unknown State.released_unknown
    State.succeeded_unknown) 1 1 103

/-- The attempt is observed as running. -/
def running : Store.Operation :=
  .observation (result .running none false (by decide) (by decide) (by decide)) 1 1 104

end Sample

/-- The uncertainty of a finished attempt does not resurrect it. -/
theorem Store.rests_uncertain :
    letI := Execution.Sample.hash
    letI := Sample.submissionHash
    ((run Store.step Sample.store Sample.reserved).step Sample.succeeded).Rests [Sample.uncertain]
      5 6 := by
  let _ := Execution.Sample.hash
  let _ := Sample.submissionHash
  refine Store.rests_until_retry [1] [1] Sample.contributors 0 [] Sample.reserved
    [Sample.uncertain] Sample.succeeded 5 6 ?_ (by decide +kernel) (by decide +kernel)
  refine ⟨?_, ?_⟩
  · decide +kernel
  · decide +kernel

/-- A finished attempt can return to `running` by way of `unknown`. -/
theorem Store.not_rests_uncertain_running :
    ¬∀ [Hash Plan] [Hash Submission] (projects identities : List Identity)
      (contributors : Table Identity Contributor) (policyRevision : ℕ) (managed : List String)
      (before after : List Store.Operation) (operation : Store.Operation) (id jobId : Identity),
      let store := run Store.step
        (Store.initial projects identities contributors policyRevision managed) before
      store.Concludes operation id jobId →
      Along Store.step (fun store operation => store.retries jobId operation = false)
        (store.step operation) after →
      (store.step operation).Rests after id jobId := by
  intro hclaim
  let _ := Execution.Sample.hash
  let _ := Sample.submissionHash
  have hrests := hclaim [1] [1] Sample.contributors 0 [] Sample.reserved
    [Sample.uncertain, Sample.running] Sample.succeeded 5 6
    ⟨by decide +kernel, by decide +kernel⟩ (by decide +kernel)
  obtain ⟨attempt, job, hattempt, hstate, -⟩ | ⟨first, hfirst, hnone⟩ := hrests
  · -- The attempt is running again.
    have hrunning : ((run Store.step ((run Store.step Sample.store Sample.reserved).step
        Sample.succeeded) [Sample.uncertain, Sample.running]).lookupAttempt 5).map
        Attempt.state = some .running := by decide +kernel
    have hstate' : attempt.state = .running := by
      rw [← Option.some.injEq, ← hrunning]
      exact (congrArg (Option.map Attempt.state) hattempt).symm
    exact hstate (by rw [hstate']; decide)
  · -- The job is never removed.
    have hkept : ∀ first ∈ [Sample.uncertain, Sample.running].inits,
        ((run Store.step ((run Store.step Sample.store Sample.reserved).step
          Sample.succeeded) first).lookupJob 6).isSome = true := by decide +kernel
    have hsome := hkept first ((List.mem_inits _ _).mpr hfirst)
    have hnone' : ((run Store.step ((run Store.step Sample.store Sample.reserved).step
        Sample.succeeded) first).lookupJob 6) = none := hnone
    rw [hnone'] at hsome
    exact absurd hsome (by simp)

end Ficc.Workloads
