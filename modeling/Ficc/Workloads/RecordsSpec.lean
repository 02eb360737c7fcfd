import Ficc.Workloads.Records

/-!
# What the record operations do

The controller touches a job and its current attempt together. An `Action` is what it does to the
pair, `Allowed` is the guard of the operation, and `applyJob` and `applyAttempt` are the records
it writes. Each operation is described by one lemma, in terms of lookups, so that the order of the
rows and the unchanged rows never appear in later proofs.
-/

namespace Ficc.Workloads

open Execution

/-- The row of a job whose columns are those of its record. -/
def JobRow.of (record : Record) : JobRow :=
  ⟨record.subjectId, record.projectId, record.key, record.digest, record⟩

/-- The row of an attempt whose columns are those of its record. -/
def AttemptRow.of (attempt : Attempt) : AttemptRow :=
  ⟨attempt.jobId, attempt.nodeId, attempt⟩

/-- What the controller does to a job and its current attempt. -/
inductive Action
  | observe (result : AttemptResult)
  | dispatch (state : State) (reason : Option String)
  | renew (lease : Renewal)
  | abandon

namespace Action

variable [Hash Plan]

/-- The attempt after the action, up to the time of its last change. -/
def applyAttempt (attempt : Attempt) : Action → Attempt
  | .observe result => Store.observedAttempt attempt result
  | .dispatch state _ =>
    { attempt with
      state, startRequested := if state = .starting then true else attempt.startRequested }
  | .renew lease => { attempt with lease }
  | .abandon =>
    { attempt with
      state := .abandoned
      outcome := some (attempt.outcome.getD (Store.abandonedOutcome attempt)) }

/-- The job after the action, up to its revision and the time of its last change. -/
def applyJob (job : Record) : Action → Record
  | .observe result =>
    if result.state ≠ .released then { job with state := result.state, reason := result.reason }
    else job
  | .dispatch state reason => { job with state, reason }
  | .renew _ => job
  | .abandon => { job with cancelled := true, reason := some "operator_abandoned" }

/-- The operation accepts the action. -/
def Allowed (job : Record) (attempt : Attempt) : Action → Prop
  | .observe result =>
    attempt.state ≠ .abandoned ∧ attempt.state ≠ .released ∧
      result.toFence = ⟨attempt.id, attempt.plan.generation, attempt.plan.digest⟩ ∧
      (attempt.state ∈ TERMINAL → result.state ∈ [attempt.state, .released, .unknown]) ∧
      (result.state = .prepared → attempt.startRequested = false ∧ attempt.state ≠ .starting ∧
        attempt.state ≠ .running) ∧
      (Store.Conclusive result → ∀ outcome ∈ attempt.outcome, Store.SameOutcome outcome result) ∧
      (result.state = .released → (job.state ∈ TERMINAL ∨ job.state = .unknown) ∧
        attempt.outcome ≠ none)
  | .dispatch state _ =>
    (attempt.state, state) ∈ Store.transitions ∧
      (state = .starting → job.cancelled = false)
  | .renew lease =>
    attempt.state.Active ∧ lease.sequence = attempt.lease.sequence + 1 ∧
      attempt.lease.expiresAt < lease.expiresAt
  | .abandon => job.state = .unknown ∧ attempt.state ≠ .released ∧ attempt.state ≠ .abandoned

end Action

/-- What a user or the scheduler does to a job alone. -/
inductive Edit
  | cancel
  | retry (delegation : Delegation)
  | pending (reason : String)

namespace Edit

/-- The job after the edit, up to its revision and the time of its last change. -/
def apply (job : Record) : Edit → Record
  | .cancel =>
    if job.state = .queued then
      { job with
        cancelled := true, state := .cancelled, reason := some "cancelled_before_dispatch" }
    else { job with cancelled := true }
  | .retry delegation =>
    { job with delegation, state := .queued, reason := none, cancelled := false }
  | .pending reason => { job with reason := some reason }

/-- The operation accepts the edit. -/
def Allowed (job : Record) : Edit → Prop
  | .cancel => True
  | .retry _ => job.state ∈ TERMINAL ∨ job.state = .unknown
  | .pending _ => job.state = .queued

/-- An edit keeps the columns of the row. -/
theorem apply_columns (edit : Edit) (job : Record) :
    (edit.apply job).id = job.id ∧ (edit.apply job).subjectId = job.subjectId ∧
      (edit.apply job).projectId = job.projectId ∧ (edit.apply job).key = job.key ∧
      (edit.apply job).digest = job.digest := by
  cases edit with
  | cancel => by_cases h : job.state = .queued <;> simp [apply, h]
  | retry delegation => simp [apply]
  | pending reason => simp [apply]

end Edit

/-- The second job differs from the first in its revision and the time of its last change. -/
def Record.Touches (record record' : Record) : Prop :=
  ∃ updatedAt revision, record' = { record with updatedAt, revision }

/-- The second attempt differs from the first in the time of its last change. -/
def Attempt.Touches (attempt attempt' : Attempt) : Prop :=
  ∃ updatedAt, attempt' = { attempt with updatedAt }

namespace Store

/-- The job under an identity. -/
def lookupJob (store : Store) (id : Identity) : Option Record :=
  (store.jobs.lookup id).map JobRow.value

/-- The attempt under an identity. -/
def lookupAttempt (store : Store) (id : Identity) : Option Attempt :=
  (store.attempts.lookup id).map AttemptRow.value

/-- The columns of every row agree with its record, which is stored under its own identity. -/
structure Bound (store : Store) : Prop where
  job : ∀ {id : Identity} {row : JobRow}, store.jobs.lookup id = some row →
    row = .of row.value ∧ row.value.id = id
  attempt : ∀ {id : Identity} {row : AttemptRow}, store.attempts.lookup id = some row →
    row = .of row.value ∧ row.value.id = id

/-- Everything except the jobs and the attempts is the same. -/
structure SameTables (store store' : Store) : Prop where
  projects : store'.projects = store.projects
  identities : store'.identities = store.identities
  contributors : store'.contributors = store.contributors
  nodes : store'.nodes = store.nodes
  policyRevision : store'.policyRevision = store.policyRevision
  managed : store'.managed = store.managed

theorem SameTables.refl (store : Store) : SameTables store store :=
  ⟨rfl, rfl, rfl, rfl, rfl, rfl⟩

variable {store store' : Store}

theorem SameTables.trans {middle : Store} (h₁ : SameTables store middle)
    (h₂ : SameTables middle store') : SameTables store store' := by
  obtain ⟨a₁, b₁, c₁, d₁, e₁, f₁⟩ := h₁
  obtain ⟨a₂, b₂, c₂, d₂, e₂, f₂⟩ := h₂
  exact ⟨a₂.trans a₁, b₂.trans b₁, c₂.trans c₁, d₂.trans d₁, e₂.trans e₁, f₂.trans f₁⟩

/-- The jobs and the attempts are the same. -/
structure SameRecords (store store' : Store) : Prop where
  jobs : store'.jobs = store.jobs
  attempts : store'.attempts = store.attempts

theorem SameRecords.lookupJob (h : SameRecords store store')
    (id : Identity) : store'.lookupJob id = store.lookupJob id := by
  rw [Store.lookupJob, Store.lookupJob, h.jobs]

theorem SameRecords.lookupAttempt (h : SameRecords store store')
    (id : Identity) : store'.lookupAttempt id = store.lookupAttempt id := by
  rw [Store.lookupAttempt, Store.lookupAttempt, h.attempts]

variable {id : Identity} {record : Record} {attempt : Attempt}

theorem Bound.job_id (hb : store.Bound) (h : store.lookupJob id = some record) :
    record.id = id := by
  obtain ⟨row, hrow, rfl⟩ := Option.map_eq_some_iff.mp h
  exact (hb.job hrow).2

theorem Bound.attempt_id (hb : store.Bound) (h : store.lookupAttempt id = some attempt) :
    attempt.id = id := by
  obtain ⟨row, hrow, rfl⟩ := Option.map_eq_some_iff.mp h
  exact (hb.attempt hrow).2

theorem job_eq_ok :
    store.job id = .ok record ↔ store.lookupJob id = some record := by
  simp [job, lookupJob]

theorem attempt_eq_ok :
    store.attempt id = .ok attempt ↔ store.lookupAttempt id = some attempt := by
  simp [Store.attempt, lookupAttempt]

/-- The records after one job has been written. -/
structure WritesJob (store store' : Store) (record : Record) : Prop where
  bound : store'.Bound
  tables : SameTables store store'
  attempts : store'.attempts = store.attempts
  jobs : ∀ id, store'.lookupJob id = if id = record.id then some record else store.lookupJob id

/-- The records after one attempt has been written. -/
structure WritesAttempt (store store' : Store) (attempt : Attempt) : Prop where
  bound : store'.Bound
  tables : SameTables store store'
  jobs : store'.jobs = store.jobs
  attempts : ∀ id, store'.lookupAttempt id =
    if id = attempt.id then some attempt else store.lookupAttempt id

/-- The records after a job and an attempt have been written. -/
structure Writes (store store' : Store) (record : Record) (attempt : Attempt) : Prop where
  bound : store'.Bound
  tables : SameTables store store'
  jobs : ∀ id, store'.lookupJob id = if id = record.id then some record else store.lookupJob id
  attempts : ∀ id, store'.lookupAttempt id =
    if id = attempt.id then some attempt else store.lookupAttempt id

theorem WritesJob.insert (hb : store.Bound) (record : Record) :
    WritesJob store { store with jobs := store.jobs.insert record.id (.of record) } record where
  bound := by
    refine ⟨fun {id row} h => ?_, hb.attempt⟩
    simp only [Table.lookup_insert_eq] at h
    split_ifs at h with hid
    · obtain rfl := Option.some.inj h
      exact ⟨rfl, hid.symm⟩
    · exact hb.job h
  tables := ⟨rfl, rfl, rfl, rfl, rfl, rfl⟩
  attempts := rfl
  jobs id := by
    simp only [lookupJob, Table.lookup_insert_eq]
    split_ifs <;> rfl

theorem WritesAttempt.insert (hb : store.Bound) (attempt : Attempt) :
    WritesAttempt store
      { store with attempts := store.attempts.insert attempt.id (.of attempt) } attempt where
  bound := by
    refine ⟨hb.job, fun {id row} h => ?_⟩
    simp only [Table.lookup_insert_eq] at h
    split_ifs at h with hid
    · obtain rfl := Option.some.inj h
      exact ⟨rfl, hid.symm⟩
    · exact hb.attempt h
  tables := ⟨rfl, rfl, rfl, rfl, rfl, rfl⟩
  jobs := rfl
  attempts id := by
    simp only [lookupAttempt, Table.lookup_insert_eq]
    split_ifs <;> rfl

/-- Writing a job that is already there changes nothing. -/
theorem WritesJob.self (hb : store.Bound) (h : store.lookupJob id = some record) :
    WritesJob store store record where
  bound := hb
  tables := .refl store
  attempts := rfl
  jobs other := by
    split_ifs with hid
    · rw [hid, hb.job_id h, h]
    · rfl

theorem WritesJob.then_attempt {middle : Store} (h₁ : WritesJob store middle record)
    (h₂ : WritesAttempt middle store' attempt) :
    Writes store store' record attempt where
  bound := h₂.bound
  tables := h₁.tables.trans h₂.tables
  jobs id := by rw [← h₁.jobs id, lookupJob, lookupJob, h₂.jobs]
  attempts id := by rw [h₂.attempts id, lookupAttempt, lookupAttempt, h₁.attempts]

theorem WritesAttempt.then_job {middle : Store} (h₁ : WritesAttempt store middle attempt)
    (h₂ : WritesJob middle store' record) :
    Writes store store' record attempt where
  bound := h₂.bound
  tables := h₁.tables.trans h₂.tables
  jobs id := by rw [h₂.jobs id, lookupJob, lookupJob, h₁.jobs]
  attempts id := by rw [← h₁.attempts id, lookupAttempt, lookupAttempt, h₂.attempts]

/-- Saving a changed record of a stored job. -/
theorem saveJob_eq_ok (hb : store.Bound) {before record' : Record} {now : ℚ}
    (hget : store.lookupJob id = some before) (h : store.saveJob record now = .ok (record', store'))
    (hcolumns : record.id = before.id ∧ record.subjectId = before.subjectId ∧ record.projectId = before.projectId ∧ record.key = before.key ∧ record.digest = before.digest)
    :
    record.Touches record' ∧ record'.Valid ∧ WritesJob store store' record' := by
  obtain ⟨row, hrow, rfl⟩ := Option.map_eq_some_iff.mp hget
  obtain ⟨hof, hid⟩ := hb.job hrow
  simp only [saveJob, bind_eq_ok, raiseIf_eq_ok, exists_const, not_not] at h
  obtain ⟨hvalid, h⟩ := h
  have hlookup : store.jobs.lookup record.id = some row := by rw [hcolumns.1, hid, hrow]
  simp only [hlookup, Except.ok.injEq, Prod.mk.injEq] at h
  obtain ⟨rfl, rfl⟩ := h
  refine ⟨⟨_, _, rfl⟩, hvalid, ?_⟩
  -- The other columns are those of the unchanged owner, key and digest.
  have hrow' : { row with value := ({ record with
      updatedAt := max record.updatedAt now, revision := record.revision + 1 } : Record) } =
      JobRow.of { record with
        updatedAt := max record.updatedAt now, revision := record.revision + 1 } := by
    obtain ⟨-, hsubject, hproject, hkey, hdigest⟩ := hcolumns
    rw [hof]
    simp [JobRow.of, hsubject, hproject, hkey, hdigest]
  rw [hrow']
  exact WritesJob.insert hb { record with
    updatedAt := max record.updatedAt now, revision := record.revision + 1 }

/-- Saving a changed record of a stored attempt. -/
theorem saveAttempt_eq_ok [Hash Plan] (hb : store.Bound) {before attempt' : Attempt} {now : ℚ}
    (hget : store.lookupAttempt id = some before)
    (h : store.saveAttempt attempt now = .ok (attempt', store'))
    (hcolumns : attempt.id = before.id ∧ attempt.jobId = before.jobId ∧ attempt.nodeId = before.nodeId)
    :
    attempt.Touches attempt' ∧ attempt'.Valid ∧ WritesAttempt store store' attempt' := by
  obtain ⟨row, hrow, rfl⟩ := Option.map_eq_some_iff.mp hget
  obtain ⟨hof, hid⟩ := hb.attempt hrow
  simp only [saveAttempt, bind_eq_ok, raiseIf_eq_ok, exists_const, not_not] at h
  obtain ⟨hvalid, h⟩ := h
  have hlookup : store.attempts.lookup attempt.id = some row := by rw [hcolumns.1, hid, hrow]
  simp only [hlookup, Except.ok.injEq, Prod.mk.injEq] at h
  obtain ⟨rfl, rfl⟩ := h
  refine ⟨⟨_, rfl⟩, hvalid, ?_⟩
  have hrow' : { row with value := ({ attempt with
      updatedAt := max attempt.updatedAt now } : Attempt) } =
      AttemptRow.of { attempt with updatedAt := max attempt.updatedAt now } := by
    rw [hof]
    simp [AttemptRow.of, hcolumns.2.1, hcolumns.2.2]
  rw [hrow']
  exact WritesAttempt.insert hb { attempt with updatedAt := max attempt.updatedAt now }

section Pairs

variable [Hash Plan]

/-- The store after an action on a job and its current attempt. -/
structure Acts (store : Store) (action : Action) (job : Record) (attempt : Attempt)
    (store' : Store) : Prop where
  foundAttempt : store.lookupAttempt attempt.id = some attempt
  foundJob : store.lookupJob attempt.jobId = some job
  current : job.currentAttempt = some attempt.id
  allowed : action.Allowed job attempt
  revoked : action = .abandon →
    ∃ node, store.contributors.lookup attempt.nodeId = some node ∧ node.disabled = true
  writes : ∃ job' attempt', (action.applyJob job).Touches job' ∧ (job' = job ∨ job'.Valid) ∧
    (action.applyAttempt attempt).Touches attempt' ∧ attempt'.Valid ∧
    Writes store store' job' attempt'

variable {now : ℚ} {identity : Identity}

omit [Hash Plan] in
/-- The job follows an observation. -/
theorem followJob_eq_ok (hb : store.Bound) {id : Identity} {job : Record}
    {outcome : Option AttemptResult} {result : AttemptResult} (hjob : store.lookupJob id = some job)
    (h : store.followJob job outcome result now = .ok store') :
    ∃ job', ((Action.observe result).applyJob job).Touches job' ∧ (job' = job ∨ job'.Valid) ∧
      WritesJob store store' job' := by
  unfold followJob at h
  by_cases hreleased : result.state ≠ .released
  · rw [if_pos hreleased] at h
    split_ifs at h with hchanged
    · obtain ⟨⟨job', next⟩, hsave, rfl⟩ := map_eq_ok.mp h
      obtain ⟨htouches, hvalid, hwrites⟩ := saveJob_eq_ok hb hjob hsave ⟨rfl, rfl, rfl, rfl, rfl⟩
      refine ⟨job', ?_, .inr hvalid, hwrites⟩
      simpa only [Action.applyJob, if_pos hreleased] using htouches
    · obtain rfl := Except.ok.inj h
      refine ⟨job, ⟨job.updatedAt, job.revision, ?_⟩, .inl rfl, .self hb hjob⟩
      rw [not_not, Prod.mk.injEq] at hchanged
      rw [Action.applyJob, if_pos hreleased, ← hchanged.1, ← hchanged.2]
  · rw [if_neg hreleased] at h
    simp only [bind_eq_ok, raiseIf_eq_ok, exists_const, Except.ok.injEq] at h
    obtain ⟨-, rfl⟩ := h
    refine ⟨job, ⟨job.updatedAt, job.revision, ?_⟩, .inl rfl, .self hb hjob⟩
    simp only [Action.applyJob, if_neg hreleased]

/-- An accepted observation repeats what is recorded of a released attempt, or acts on the
attempt and its job. -/
theorem observation_eq_ok (hb : store.Bound) {result : AttemptResult}
    {nodeId installationId : Identity} {returned : Attempt}
    (h : store.observation result nodeId installationId now = .ok (returned, store')) :
    ∃ attempt, store.lookupAttempt result.attemptId = some attempt ∧
      attempt.nodeId = nodeId ∧ attempt.installationId = installationId ∧
      ((attempt.state = .released ∧ attempt.observed = some result ∧ store' = store) ∨
        ∃ job, Acts store (.observe result) job attempt store') := by
  simp only [observation, bind_eq_ok, raiseIf_eq_ok, exists_const, attempt_eq_ok, not_or,
    not_not, Prod.mk.injEq] at h
  obtain ⟨attempt, hattempt, habandoned, ⟨⟨hnode, hinstallation⟩, hgeneration, hdigest⟩, h⟩ := h
  have hid := hb.attempt_id hattempt
  refine ⟨attempt, hattempt, hnode, hinstallation, ?_⟩
  split_ifs at h with hreleased
  · simp only [bind_eq_ok, raiseIf_eq_ok, exists_const, not_not, Except.ok.injEq,
      Prod.mk.injEq] at h
    obtain ⟨hobserved, -, rfl⟩ := h
    exact .inl ⟨hreleased, hobserved.symm, rfl⟩
  · simp only [bind_eq_ok, raiseIf_eq_ok, exists_const, not_not, job_eq_ok] at h
    obtain ⟨hactive, hprepared, job, hjob, hcurrent, hfinal, middle, hfollow, hsave⟩ := h
    obtain ⟨job', htouches, hvalid, hwrites⟩ := followJob_eq_ok hb hjob hfollow
    have hkept : middle.lookupAttempt result.attemptId = some attempt := by
      rw [← hattempt, lookupAttempt, lookupAttempt, hwrites.attempts]
    obtain ⟨htouches', hvalid', hwrites'⟩ := saveAttempt_eq_ok hwrites.bound hkept hsave
      ⟨rfl, rfl, rfl⟩
    refine .inr ⟨job, by rw [hid, hattempt], hjob, hcurrent, ?_, nofun, job', returned, htouches, hvalid,
      htouches', hvalid', hwrites.then_attempt hwrites'⟩
    refine ⟨habandoned, hreleased, Fence.ext hid.symm hgeneration hdigest, ?_, ?_, ?_, ?_⟩
    · intro hterminal
      by_contra hstate
      exact hactive ⟨hterminal, hstate⟩
    · intro hstate
      refine ⟨?_, fun hstarting => hprepared ⟨.inr (.inl hstarting), hstate⟩,
        fun hrunning => hprepared ⟨.inr (.inr hrunning), hstate⟩⟩
      by_contra hrequested
      exact hprepared ⟨.inl (by simpa using hrequested), hstate⟩
    · intro hconclusive outcome houtcome
      by_contra hdiffers
      exact hfinal ⟨hconclusive, outcome, houtcome, hdiffers⟩
    · -- A release is accepted only after the outcome.
      intro hstate
      have hinconclusive : ¬Conclusive result := by
        simp [Conclusive, hstate, TERMINAL]
      simp only [followJob, hstate, ne_eq, not_true_eq_false, if_false, bind_eq_ok,
        raiseIf_eq_ok, exists_const, not_or] at hfollow
      obtain ⟨⟨hjobstate, houtcome⟩, -⟩ := hfollow
      refine ⟨?_, by simpa [observedAttempt, hinconclusive] using houtcome⟩
      by_contra hstate'
      rw [not_or] at hstate'
      exact hjobstate hstate'

/-- A transition of the controller acts on the attempt and its job. -/
theorem transition_eq_ok (hb : store.Bound) {expected state : State} {reason : Option String}
    {returned : Attempt}
    (h : store.transition identity expected state reason now = .ok (returned, store')) :
    ∃ job attempt, attempt.id = identity ∧ attempt.state = expected ∧
      store'.lookupAttempt identity = some returned ∧
      Acts store (.dispatch state reason) job attempt store' := by
  simp only [transition, bind_eq_ok, raiseIf_eq_ok, exists_const, attempt_eq_ok, job_eq_ok,
    not_or, not_not, Prod.exists, Except.ok.injEq, Prod.mk.injEq] at h
  obtain ⟨hlisted, attempt, hattempt, job, hjob, ⟨hstate, hcurrent, hcancelled⟩, saved, middle,
    hsave, touched, final, hsaveJob, rfl, rfl⟩ := h
  have hid := hb.attempt_id hattempt
  obtain ⟨htouches, hvalid, hwrites⟩ := saveAttempt_eq_ok hb hattempt hsave ⟨rfl, rfl, rfl⟩
  have hkept : middle.lookupJob attempt.jobId = some job := by
    rw [← hjob, lookupJob, lookupJob, hwrites.jobs]
  obtain ⟨htouches', hvalid', hwrites'⟩ := saveJob_eq_ok hwrites.bound hkept hsaveJob
    ⟨rfl, rfl, rfl, rfl, rfl⟩
  have hboth := hwrites.then_job hwrites'
  refine ⟨job, attempt, hid, hstate, ?_, by rw [hid, hattempt], hjob, by rw [hid, hcurrent],
    ⟨by rw [hstate]; exact hlisted, ?_⟩, nofun, touched, saved, htouches', .inr hvalid', htouches, hvalid,
    hboth⟩
  · have hsaved : saved.id = identity := by
      obtain ⟨updatedAt, rfl⟩ := htouches
      exact hid
    rw [hboth.attempts, if_pos hsaved.symm]
  · intro hstarting
    by_contra hcancel
    exact hcancelled ⟨by simpa using hcancel, hstarting⟩

/-- A renewal of the controller acts on the attempt. -/
theorem renew_eq_ok (hb : store.Bound) {expiresAt : ℚ} {lease : Renewal}
    (h : store.renew identity expiresAt now = .ok (lease, store')) :
    ∃ job attempt, attempt.id = identity ∧ lease.expiresAt = expiresAt ∧
      lease.toFence = ⟨identity, attempt.plan.generation, attempt.plan.digest⟩ ∧
      Acts store (.renew lease) job attempt store' := by
  simp only [renew, bind_eq_ok, raiseIf_eq_ok, exists_const, attempt_eq_ok, job_eq_ok,
    not_or, not_not, Prod.exists, Except.ok.injEq, Prod.mk.injEq] at h
  obtain ⟨attempt, hattempt, job, hjob, ⟨hactive, -, hcurrent, -, hlater, -⟩, renewal, hrenewal,
    saved, middle, hsave, rfl, rfl⟩ := h
  have hid := hb.attempt_id hattempt
  unfold validateRenewal at hrenewal
  split_ifs at hrenewal with hrange
  obtain rfl := Except.ok.inj hrenewal
  obtain ⟨htouches, hvalid, hwrites⟩ := saveAttempt_eq_ok hb hattempt hsave ⟨rfl, rfl, rfl⟩
  exact ⟨job, attempt, hid, rfl, rfl, by rw [hid, hattempt], hjob, by rw [hid, hcurrent],
    ⟨hactive, rfl, hlater⟩, nofun, job, saved, ⟨job.updatedAt, job.revision, rfl⟩, .inl rfl, htouches,
    hvalid, (WritesJob.self hb hjob).then_attempt hwrites⟩

/-- Abandoning acts on the attempt of a revoked contributor and on its job. -/
theorem abandon_eq_ok (hb : store.Bound) {revision : ℕ} {returned : Record}
    (h : store.abandon identity revision now = .ok (returned, store')) :
    ∃ job attempt, store.lookupJob identity = some job ∧
      store.lookupAttempt attempt.id = some attempt ∧ job.currentAttempt = some attempt.id ∧
      (store.lookupJob attempt.jobId = some job → Acts store .abandon job attempt store') := by
  simp only [abandon, bind_eq_ok, raiseIf_eq_ok, exists_const, attempt_eq_ok, job_eq_ok,
    orRaise_eq_ok, contributor, not_or, not_not, Prod.exists] at h
  obtain ⟨job, hjob, ⟨-, hunknown⟩, current, hcurrent, attempt, hattempt,
    ⟨hreleased, habandoned⟩, node, hnode, hdisabled, saved, middle, hsave, hsaveJob⟩ := h
  have hid := hb.attempt_id hattempt
  obtain ⟨htouches, hvalid, hwrites⟩ := saveAttempt_eq_ok hb hattempt hsave ⟨rfl, rfl, rfl⟩
  have hkept : middle.lookupJob identity = some job := by
    rw [← hjob, lookupJob, lookupJob, hwrites.jobs]
  obtain ⟨htouches', hvalid', hwrites'⟩ := saveJob_eq_ok hwrites.bound hkept hsaveJob
    ⟨rfl, rfl, rfl, rfl, rfl⟩
  have hfound : store.lookupAttempt attempt.id = some attempt := by rw [hid, hattempt]
  have hcurrent : job.currentAttempt = some attempt.id := by rw [hid, hcurrent]
  refine ⟨job, attempt, hjob, hfound, hcurrent, fun hown => ?_⟩
  exact ⟨hfound, hown, hcurrent, ⟨hunknown, hreleased, habandoned⟩,
    fun _ => ⟨node, hnode, by simpa using hdisabled⟩, returned, saved, htouches', .inr hvalid', htouches, hvalid, hwrites.then_job hwrites'⟩

/-- The store after the next attempt of a queued job has been reserved. -/
structure Reserves (store : Store) (job : Record) (attempt : Attempt) (store' : Store) : Prop where
  found : store.lookupJob job.id = some job
  absent : store.lookupAttempt attempt.id = none
  queued : job.state = .queued
  generation : attempt.plan.generation = job.generation + 1
  subject : attempt.plan.subjectId = job.subjectId
  project : attempt.plan.projectId = job.projectId
  node : attempt.nodeId ∈ job.request.nodeIds
  job_eq : attempt.plan.job = job.request.job
  first : attempt.lease.sequence = 1
  created : ∃ now, attempt = reserved job.id attempt.plan attempt.lease attempt.installationId
    attempt.ledgerId attempt.admissionVersion now
  valid : attempt.Valid
  writes : ∃ job', Record.Touches
    { job with
      currentAttempt := some attempt.id, generation := attempt.plan.generation
      state := .preparing, reason := none } job' ∧
    job'.Valid ∧ Writes store store' job' attempt

/-- A reservation binds a new attempt to a queued job. -/
theorem reserve_eq_ok (hb : store.Bound) {plan : Plan} {lease : Renewal} {installationId : Identity}
    {capacity : Limits} {ledgerId : Option Identity} {admissionVersion : ℕ} {attempt : Attempt}
    (h : store.reserve plan lease installationId capacity ledgerId admissionVersion now = .ok (attempt, store'))
    :
    ∃ job, attempt =
        reserved job.id plan lease installationId ledgerId admissionVersion now ∧
      Reserves store job attempt store' := by
  simp only [reserve, bind_eq_ok, raiseIf_eq_ok, exists_const, job_eq_ok, not_or, not_not,
    Prod.exists, Except.ok.injEq, Prod.mk.injEq] at h
  obtain ⟨job, hjob, ⟨-, hqueued, hgeneration, hsubject, hproject, hnode, hrequest, -⟩,
    ⟨hsequence, -⟩, -, -, -, -, -, -, hvalid, habsent, saved, final, hsave, rfl, rfl⟩ := h
  have hid := hb.job_id hjob
  have hwrites := WritesAttempt.insert hb
    (reserved job.id plan lease installationId ledgerId admissionVersion now)
  obtain ⟨htouches, hvalid', hwrites'⟩ := saveJob_eq_ok hwrites.bound hjob hsave
    ⟨rfl, rfl, rfl, rfl, rfl⟩
  exact ⟨job, rfl, by rw [hid, hjob], by simp [lookupAttempt, habsent], hqueued,
    hgeneration.symm, hsubject.symm, hproject.symm, hnode, hrequest.symm, hsequence, ⟨now, rfl⟩,
    hvalid, saved, htouches, hvalid', hwrites.then_job hwrites'⟩

end Pairs

section Jobs

/-- The store after a job has been submitted. -/
structure Submits [Hash Submission] (store : Store) (record : Record) (store' : Store) : Prop where
  absent : store.lookupJob record.id = none
  created : ∃ now, record = submitted record.request record.key record.delegation record.id now
  valid : record.Valid
  writes : WritesJob store store' record

variable {id identity : Identity} {now : ℚ} {job returned : Record} {revision : ℕ}

/-- A submission returns the job of an earlier request or creates one. -/
theorem submit_eq_ok [Hash Submission] (hb : store.Bound) {request : Submission} {key : String}
    {delegation : Delegation} {record : Record}
    (h : store.submit request key delegation id now = .ok (record, store')) :
    store' = store ∨
      (record = submitted request key delegation id now ∧ Submits store record store') := by
  unfold submit at h
  split at h
  · simp only [bind_eq_ok, raiseIf_eq_ok, exists_const, Except.ok.injEq, Prod.mk.injEq] at h
    exact .inl h.2.2.symm
  · simp only [bind_eq_ok, raiseIf_eq_ok, exists_const, not_not, Except.ok.injEq,
      Prod.mk.injEq] at h
    obtain ⟨-, hvalid, habsent, rfl, rfl⟩ := h
    exact .inr ⟨rfl, by simp [lookupJob, submitted, habsent], ⟨now, rfl⟩, hvalid,
      WritesJob.insert hb (submitted request key delegation id now)⟩

/-- The store after an edit of a job. -/
structure Edits (store : Store) (edit : Edit) (job : Record) (store' : Store) : Prop where
  found : store.lookupJob job.id = some job
  allowed : edit.Allowed job
  released : ∀ delegation, edit = .retry delegation → ∀ current ∈ job.currentAttempt,
    ∃ attempt, store.lookupAttempt current = some attempt ∧ attempt.state = .released
  writes : ∃ job', (edit.apply job).Touches job' ∧ job'.Valid ∧ WritesJob store store' job'

theorem edits_of_saveJob (hb : store.Bound) (edit : Edit) (hjob : store.lookupJob id = some job)
    (hallowed : edit.Allowed job)
    (hreleased : ∀ delegation, edit = .retry delegation → ∀ current ∈ job.currentAttempt, ∃ attempt, store.lookupAttempt current = some attempt ∧ attempt.state = .released)
    (h : store.saveJob (edit.apply job) now = .ok (returned, store')) :
    Edits store edit job store' := by
  obtain ⟨htouches, hvalid, hwrites⟩ := saveJob_eq_ok hb hjob h (edit.apply_columns job)
  exact ⟨by rw [hb.job_id hjob, hjob], hallowed, hreleased, returned, htouches, hvalid, hwrites⟩

theorem cancel_eq_ok (hb : store.Bound)
    (h : store.cancel identity revision now = .ok (returned, store')) :
    ∃ job, job.id = identity ∧ Edits store .cancel job store' := by
  simp only [cancel, bind_eq_ok, raiseIf_eq_ok, exists_const, job_eq_ok] at h
  obtain ⟨job, hjob, -, hsave⟩ := h
  exact ⟨job, hb.job_id hjob, edits_of_saveJob hb .cancel hjob trivial (by simp) hsave⟩

theorem retry_eq_ok (hb : store.Bound) {delegation : Delegation} {acknowledgeUnknown : Bool}
    (h : store.retry identity revision delegation acknowledgeUnknown now = .ok (returned, store')) :
    ∃ job, job.id = identity ∧ Edits store (.retry delegation) job store' := by
  simp only [retry, bind_eq_ok, raiseIf_eq_ok, exists_const, job_eq_ok, not_or, not_and,
    not_not] at h
  obtain ⟨job, hjob, ⟨-, hstate⟩, released, hreleased, hrelease, hsave⟩ := h
  refine ⟨job, hb.job_id hjob, edits_of_saveJob hb (.retry delegation) hjob ?_ ?_ hsave⟩
  · by_cases hterminal : job.state ∈ TERMINAL
    · exact .inl hterminal
    · exact .inr (by_contra fun hknown => hstate hterminal fun _ => hknown)
  · intro _ _ current hcurrent
    rw [Option.mem_def] at hcurrent
    simp only [currentReleased, hcurrent, bind_eq_ok, attempt_eq_ok, Except.ok.injEq] at hreleased
    obtain ⟨attempt, hattempt, rfl⟩ := hreleased
    exact ⟨attempt, hattempt, by simpa using hrelease⟩

theorem pending_eq_ok (hb : store.Bound) {reason : String}
    (h : store.pending identity reason now = .ok (returned, store')) :
    store' = store ∨ ∃ job, job.id = identity ∧ Edits store (.pending reason) job store' := by
  simp only [pending, bind_eq_ok, job_eq_ok] at h
  obtain ⟨job, hjob, h⟩ := h
  split_ifs at h with hqueued
  · exact .inr ⟨job, hb.job_id hjob,
      edits_of_saveJob hb (.pending reason) hjob hqueued.1 (by simp) h⟩
  · simp only [Except.ok.injEq, Prod.mk.injEq] at h
    exact .inl h.2.symm

/-- The store after a job has been removed with its attempts. -/
structure Removes (store : Store) (job : Record) (store' : Store) : Prop where
  found : store.lookupJob job.id = some job
  retired : ∀ {id : Identity} {attempt : Attempt}, store.lookupAttempt id = some attempt →
    attempt.jobId = job.id → Retired attempt
  bound : store'.Bound
  tables : SameTables store store'
  jobs : ∀ id, store'.lookupJob id = if id = job.id then none else store.lookupJob id
  attempts : ∀ id, store'.lookupAttempt id =
    (store.lookupAttempt id).filter fun attempt => attempt.jobId ≠ job.id

/-- An attempt after a removal was there before and belongs to another job. -/
theorem Removes.lookupAttempt_eq_some (h : Removes store job store') {attempt : Attempt} :
    store'.lookupAttempt id = some attempt ↔
      store.lookupAttempt id = some attempt ∧ attempt.jobId ≠ job.id := by
  rw [h.attempts, Option.filter_eq_some_iff, decide_eq_true_eq]

/-- A job after a removal was there before and is another one. -/
theorem Removes.lookupJob_eq_some (h : Removes store job store') {found : Record} :
    store'.lookupJob id = some found ↔ store.lookupJob id = some found ∧ id ≠ job.id := by
  rw [h.jobs]
  by_cases hid : id = job.id <;> simp [hid]

theorem mem_allAttempts {attempt : Attempt} :
    attempt ∈ store.allAttempts ↔ ∃ id, store.lookupAttempt id = some attempt := by
  simp only [allAttempts, List.mem_map, Table.mem_values, lookupAttempt, Option.map_eq_some_iff]
  constructor
  · rintro ⟨row, ⟨id, hrow⟩, rfl⟩
    exact ⟨id, row, hrow, rfl⟩
  · rintro ⟨id, row, hrow, rfl⟩
    exact ⟨row, ⟨id, hrow⟩, rfl⟩

theorem remove_eq_ok (hb : store.Bound) (h : store.remove identity revision = .ok store') :
    ∃ job, job.id = identity ∧ Removes store job store' := by
  simp only [remove, bind_eq_ok, raiseIf_eq_ok, exists_const, job_eq_ok, not_or,
    Except.ok.injEq] at h
  obtain ⟨job, hjob, ⟨-, -, hretired⟩, rfl⟩ := h
  have hid := hb.job_id hjob
  refine ⟨job, hid, by rw [hid, hjob], ?_, ⟨?_, ?_⟩, ⟨rfl, rfl, rfl, rfl, rfl, rfl⟩, ?_, ?_⟩
  · intro id attempt hattempt hown
    by_contra hnot
    refine hretired ⟨attempt, ?_, hnot⟩
    simpa [hown] using mem_allAttempts.mpr ⟨id, hattempt⟩
  · intro id row hrow
    by_cases hidentity : id = identity
    · subst hidentity
      simp [AList.lookup_erase] at hrow
    · exact hb.job ((AList.lookup_erase_ne hidentity).symm.trans hrow)
  · intro id row hrow
    rw [Table.lookup_discard, Option.filter_eq_some_iff] at hrow
    exact hb.attempt hrow.1
  · intro id
    by_cases hidentity : id = identity
    · subst hidentity
      simp [lookupJob, hid, AList.lookup_erase]
    · simp [lookupJob, hid, hidentity, AList.lookup_erase_ne hidentity]
  · intro id
    -- The deleted rows are chosen by their column, which is the job of the attempt.
    simp only [lookupAttempt, Table.lookup_discard, hid]
    cases hrow : store.attempts.lookup id with
    | none => rfl
    | some row =>
      have hjobId : row.jobId = row.value.jobId := by rw [(hb.attempt hrow).1]; rfl
      by_cases hown : row.value.jobId = identity <;>
        simp [Option.filter, hjobId, hown]

end Jobs

end Store

end Ficc.Workloads
