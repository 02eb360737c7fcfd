import Ficc.Workloads.StoreRuns

/-!
# Validation of the stored records

`validateRecords` is the gate that a stored database passes before a backup and after a restore.
It is written apart from the operations, and here it is proved to accept every store that they
reach. The queue calls a submission and a retry only after `Authority.capture` in the same
transaction, and it stores snapshots of known contributors only; these calls are `Queue.call`.
-/

namespace Ficc.Workloads

open Execution

variable [Hash Plan] [Hash Submission]

namespace Authority

/-- The enabled contributor of a project. -/
def node (store : Store) (project identity : Identity) : Except Error Contributor := do
  let value ← store.contributor identity
  raiseIf (value.projectId ≠ project)
    (.failure "not_found" "The contributor was not found in this project." 404)
  raiseIf (value.disabled = true)
    (.failure "contributor_disabled" "The contributor is disabled." 403)
  .ok value

/-- Checks that the subject of a delegation may run a request. Scopes, memberships and policies
only refuse more and are not modelled. -/
def capture (store : Store) (delegation : Delegation) (request : Submission) :
    Except Error Unit := do
  raiseIf (delegation.subjectId ∉ store.identities ∨ delegation.projectId ∉ store.projects)
    (.failure "not_found" "The identity or project was not found." 404)
  request.nodeIds.forM fun identity => do
    let _ ← node store delegation.projectId identity
    .ok ()

end Authority

namespace Queue

/-- The store that a call through the queue commits. -/
def call (store : Store) : Store.Operation → Except Error Store
  | .submit request key delegation id now => do
    Authority.capture store delegation request
    store.call (.submit request key delegation id now)
  | .retry identity revision delegation acknowledgeUnknown now => do
    let job ← store.job identity
    raiseIf (job.subjectId ≠ delegation.subjectId)
      (.failure "denied" "Only the original submitter can retry this workload." 403)
    Authority.capture store delegation job.request
    store.call (.retry identity revision delegation acknowledgeUnknown now)
  -- The commands accept a snapshot only of a contributor.
  | .saveNode snapshot now => do
    let _ ← store.contributor snapshot.nodeId
    store.call (.saveNode snapshot now)
  | operation => store.call operation

/-- A call that raises is rolled back. -/
def step (store : Store) (operation : Store.Operation) : Store :=
  match call store operation with
  | .ok next => next
  | .error _ => store

end Queue

namespace Store

/-- Checks a row of a job. -/
def validateJob (store : Store) (quiescent : Bool) (entry : Identity × JobRow) :
    Except Error Unit := do
  let (identity, row) := entry
  let value := row.value
  raiseIf (¬value.Valid) invalid
  raiseIf ((identity, row.subjectId, row.projectId, row.key, row.digest) ≠
      (value.id, value.subjectId, value.projectId, value.key, value.digest) ∨
      row.subjectId ∉ store.identities ∨ row.projectId ∉ store.projects ∨
      row.digest ≠ Hash.digest value.request)
    (.value "A stored workload identity or submission is invalid.")
  raiseIf (quiescent = true ∧ value.state ∉ TERMINAL ∧ value.state ≠ .unknown)
    (.value "Resolve all active or unknown workloads before backup or restore.")

/-- An abandoned attempt belongs to a revoked contributor. -/
def validateAbandoned (store : Store) (nodeId : Identity) (state : State) : Except Error Unit :=
  raiseIf (state = .abandoned ∧
      ∀ node ∈ store.contributors.lookup nodeId, node.disabled = false)
    (.value "An abandoned attempt requires a revoked contributor identity.")

/-- Checks a row of an attempt. -/
def validateAttempt (store : Store) (quiescent : Bool) (entry : Identity × AttemptRow) :
    Except Error Unit := do
  let (identity, row) := entry
  let attempt := row.value
  let unbound := Error.value "A stored workload attempt is not bound to its submission."
  raiseIf (¬attempt.Valid) invalid
  raiseIf ((identity, row.jobId, row.nodeId) ≠ (attempt.id, attempt.jobId, attempt.nodeId)) unbound
  let job ← orRaise (store.lookupJob row.jobId) unbound
  raiseIf (store.contributors.lookup row.nodeId = none ∨
      attempt.plan.subjectId ≠ job.subjectId ∨ attempt.plan.projectId ≠ job.projectId ∨
      attempt.plan.job ≠ job.request.job ∨ row.nodeId ∉ job.request.nodeIds) unbound
  store.validateAbandoned row.nodeId attempt.state
  raiseIf (quiescent = true ∧ ¬Retired attempt)
    (.value
      "Resolve active or unknown outcomes and release workload storage before backup or restore.")

/-- The generations of the attempts of a job. -/
def generations (store : Store) (jobId : Identity) : List ℕ :=
  (store.allAttempts.filter fun item => item.jobId = jobId).map fun item => item.plan.generation

/-- Checks the attempts of a job against it. -/
def validateGenerations (store : Store) (quiescent : Bool) (entry : Identity × JobRow) :
    Except Error Unit := do
  let job := entry.2.value
  raiseIf (quiescent = true ∧ job.state = .unknown ∧
      ∀ current ∈ job.currentAttempt, ∀ attempt ∈ store.lookupAttempt current,
        attempt.state ≠ .abandoned)
    (.value "Resolve all active or unknown workloads before backup or restore.")
  raiseIf (∃ current ∈ job.currentAttempt, ∀ attempt ∈ store.lookupAttempt current,
      attempt.jobId ≠ job.id ∨ attempt.plan.generation ≠ job.generation)
    (.value "The latest workload generation is invalid.")
  raiseIf (¬(store.generations job.id).Nodup ∨
      ∃ generation ∈ store.generations job.id, job.generation < generation)
    (.value "A retained workload generation is duplicated or out of order.")

/-- Checks a saved observation of a node. -/
def validateNode (store : Store) (entry : Identity × Observation) : Except Error Unit := do
  let (identity, value) := entry
  raiseIf (value.observedAt < 0) invalid
  raiseIf (store.contributors.lookup identity = none ∨ value.snapshot.nodeId ≠ identity ∨
      value.snapshot.attempts ≠ [] ∨ value.snapshot.next ≠ none)
    (.value "A saved execution offer has an invalid node binding.")

/-- Checks all records. -/
def validateRecords (store : Store) (quiescent : Bool) : Except Error Unit := do
  store.jobs.rows.forM (store.validateJob quiescent)
  store.attempts.rows.forM (store.validateAttempt quiescent)
  store.jobs.rows.forM (store.validateGenerations quiescent)
  store.nodes.rows.forM store.validateNode

/-- The records refer to accounts, projects and contributors that exist. -/
structure Registered (store : Store) : Prop where
  owner : ∀ {id : Identity} {job : Record}, store.lookupJob id = some job →
    job.subjectId ∈ store.identities ∧ job.projectId ∈ store.projects
  queued : ∀ {id : Identity} {job : Record}, store.lookupJob id = some job →
    job.state = .queued → ∀ node ∈ job.request.nodeIds, store.contributors.lookup node ≠ none
  placed : ∀ {id : Identity} {attempt : Attempt}, store.lookupAttempt id = some attempt →
    store.contributors.lookup attempt.nodeId ≠ none
  revoked : ∀ {id : Identity} {attempt : Attempt}, store.lookupAttempt id = some attempt →
    attempt.state = .abandoned →
    ∃ node, store.contributors.lookup attempt.nodeId = some node ∧ node.disabled = true
  nodes : ∀ {id : Identity} {value : Observation}, store.nodes.lookup id = some value →
    store.contributors.lookup id ≠ none ∧ 0 ≤ value.observedAt ∧ value.snapshot.nodeId = id ∧
      value.snapshot.attempts = [] ∧ value.snapshot.next = none

variable {store store' : Store}

omit [Hash Plan] [Hash Submission] in
theorem capture_eq_ok {delegation : Delegation} {request : Submission}
    (h : Authority.capture store delegation request = .ok ()) :
    delegation.subjectId ∈ store.identities ∧ delegation.projectId ∈ store.projects ∧
      ∀ node ∈ request.nodeIds, store.contributors.lookup node ≠ none := by
  simp only [Authority.capture, bind_eq_ok, raiseIf_eq_ok, exists_const, not_or, not_not,
    forM_eq_ok] at h
  obtain ⟨⟨hsubject, hproject⟩, hnodes⟩ := h
  refine ⟨hsubject, hproject, fun node hnode hnone => ?_⟩
  have hround := hnodes node hnode
  simp [Authority.node, contributor, hnone, orRaise, bind, Except.bind] at hround

/-- An event keeps the records registered, given that a submission and a retry were captured. -/
theorem Registered.changes (hl : store.Linked) (hr : store.Registered) {event : Event}
    (h : event.Changes store store')
    (hsubmit : ∀ record, event = .submit record →
      (record.subjectId ∈ store.identities ∧ record.projectId ∈ store.projects) ∧
        ∀ node ∈ record.request.nodeIds, store.contributors.lookup node ≠ none)
    (hretry : ∀ delegation job, event = .edit (.retry delegation) job →
      ∀ node ∈ job.request.nodeIds, store.contributors.lookup node ≠ none) :
    store'.Registered := by
  obtain ⟨hprojects, hidentities, hcontributors, hnodes, -, -⟩ := tables_of_changes h
  refine ⟨?_, ?_, ?_, ?_, ?_⟩
  · intro id job' hjob'
    rw [hidentities, hprojects]
    obtain rfl | ⟨job, hjob, hsubject, hproject, -, -⟩ := job_of_changes hl h hjob'
    · exact (hsubmit job' rfl).1
    · rw [hsubject, hproject]
      exact hr.owner hjob
  · intro id job' hjob' hqueued
    rw [hcontributors]
    obtain rfl | ⟨job, hjob, -, -, hrequest, horigin⟩ := job_of_changes hl h hjob'
    · exact (hsubmit job' rfl).2
    · rw [hrequest]
      obtain hbefore | ⟨delegation, rfl⟩ := horigin hqueued
      · exact hr.queued hjob hbefore
      · exact hretry delegation job rfl
  · intro id attempt' hattempt'
    rw [hcontributors]
    obtain ⟨job, rfl⟩ | ⟨attempt, hattempt, hnode, -⟩ := attempt_of_changes hl h hattempt'
    · -- A queued job lists contributors only.
      exact hr.queued (Reserves.found h) (Reserves.queued h) attempt'.nodeId (Reserves.node h)
    · rw [hnode]
      exact hr.placed hattempt
  · intro id attempt' hattempt' habandoned
    rw [hcontributors]
    obtain ⟨job, rfl⟩ | ⟨attempt, hattempt, hnode, horigin⟩ := attempt_of_changes hl h hattempt'
    · obtain ⟨now, hcreated⟩ := Reserves.created h
      rw [hcreated] at habandoned
      exact absurd habandoned (by simp [reserved])
    · rw [hnode]
      obtain hbefore | ⟨job, rfl⟩ := horigin habandoned
      · exact hr.revoked hattempt hbefore
      · exact Acts.revoked h rfl
  · intro id value hvalue
    rw [hnodes] at hvalue
    rw [hcontributors]
    exact hr.nodes hvalue

/-- The tables of the other modules grow, except that a contributor without retained records may
go. -/
structure Grows (store store' : Store) : Prop where
  records : SameRecords store store'
  identities : store.identities ⊆ store'.identities
  projects : store.projects ⊆ store'.projects
  contributors : ∀ {id : Identity} {node : Contributor}, store.contributors.lookup id = some node →
    (∃ node', store'.contributors.lookup id = some node' ∧
      (node.disabled = true → node'.disabled = true)) ∨ ¬store.RetainedForNode id
  nodes : ∀ {id : Identity} {value : Observation}, store'.nodes.lookup id = some value →
    (store.nodes.lookup id = some value ∧
      (store.contributors.lookup id ≠ none → store'.contributors.lookup id ≠ none)) ∨
    store'.contributors.lookup id ≠ none ∧ 0 ≤ value.observedAt ∧ value.snapshot.nodeId = id ∧
      value.snapshot.attempts = [] ∧ value.snapshot.next = none

variable {id : Identity} {operation : Operation}

theorem retained_of_attempt (hl : store.Linked) {attempt : Attempt}
    (h : store.lookupAttempt id = some attempt) : store.RetainedForNode attempt.nodeId := by
  obtain ⟨row, hrow, rfl⟩ := Option.map_eq_some_iff.mp h
  refine .inl ⟨row, Table.mem_values.mpr ⟨id, hrow⟩, ?_⟩
  rw [(hl.bound.attempt hrow).1]
  rfl

omit [Hash Plan] [Hash Submission] in
theorem retained_of_queued {node : Identity} {job : Record} (h : store.lookupJob id = some job)
    (hqueued : job.state = .queued) (hnode : node ∈ job.request.nodeIds) :
    store.RetainedForNode node := by
  obtain ⟨row, hrow, rfl⟩ := Option.map_eq_some_iff.mp h
  exact .inr ⟨row, Table.mem_values.mpr ⟨id, hrow⟩, hnode, by rw [hqueued]; decide⟩

theorem Registered.grows (hl : store.Linked) (hr : store.Registered) (h : Grows store store') :
    store'.Registered := by
  -- A contributor with retained records stays.
  have hstays : ∀ {id}, store.RetainedForNode id → store.contributors.lookup id ≠ none →
      store'.contributors.lookup id ≠ none := by
    intro id hretained hsome
    obtain ⟨node, hnode⟩ := Option.ne_none_iff_exists'.mp hsome
    obtain ⟨node', hnode', -⟩ | hgone := h.contributors hnode
    · simp [hnode']
    · exact absurd hretained hgone
  refine ⟨?_, ?_, ?_, ?_, ?_⟩
  · intro id job hjob
    obtain ⟨hsubject, hproject⟩ := hr.owner ((h.records.lookupJob id).symm.trans hjob)
    exact ⟨h.identities hsubject, h.projects hproject⟩
  · intro id job hjob hqueued node hnode
    have hjob := (h.records.lookupJob id).symm.trans hjob
    exact hstays (retained_of_queued hjob hqueued hnode) (hr.queued hjob hqueued node hnode)
  · intro id attempt hattempt
    have hattempt := (h.records.lookupAttempt id).symm.trans hattempt
    exact hstays (retained_of_attempt hl hattempt) (hr.placed hattempt)
  · intro id attempt hattempt habandoned
    have hattempt := (h.records.lookupAttempt id).symm.trans hattempt
    obtain ⟨node, hnode, hdisabled⟩ := hr.revoked hattempt habandoned
    obtain ⟨node', hnode', hkeeps⟩ | hgone := h.contributors hnode
    · exact ⟨node', hnode', hkeeps hdisabled⟩
    · exact absurd (retained_of_attempt hl hattempt) hgone
  · intro id value hvalue
    obtain ⟨hbefore, hcontributor⟩ | hnew := h.nodes hvalue
    · obtain ⟨hsome, hrest⟩ := hr.nodes hbefore
      exact ⟨hcontributor hsome, hrest⟩
    · exact hnew

/-- The operations of the other modules only let the tables grow. -/
theorem grows_of_call (hadministers : operation.administers = true)
    (h : Queue.call store operation = .ok store') : Grows store store' := by
  -- The contributors and the observed nodes are what they were, unless said otherwise.
  have hsame : ∀ {id : Identity} {node : Contributor}, store.contributors.lookup id = some node →
      (∃ node', store.contributors.lookup id = some node' ∧
        (node.disabled = true → node'.disabled = true)) ∨ ¬store.RetainedForNode id :=
    fun {id node} hnode => .inl ⟨node, hnode, fun hdisabled => hdisabled⟩
  -- Rewriting one contributor without enabling it.
  have hrewrite : ∀ {identity : Identity} {new : Contributor}
      (_ : ∀ old, store.contributors.lookup identity = some old →
        old.disabled = true → new.disabled = true) {id : Identity} {node : Contributor},
      store.contributors.lookup id = some node →
      (∃ node', (store.contributors.insert identity new).lookup id = some node' ∧
        (node.disabled = true → node'.disabled = true)) ∨ ¬store.RetainedForNode id := by
    intro identity new hnew id node hnode
    rw [Table.lookup_insert_eq]
    split_ifs with hid
    · exact .inl ⟨new, rfl, hnew node (by rw [← hid, hnode])⟩
    · exact .inl ⟨node, hnode, fun hdisabled => hdisabled⟩
  have hpresent : ∀ {identity id : Identity} {new : Contributor},
      store.contributors.lookup id ≠ none →
      (store.contributors.insert identity new).lookup id ≠ none := by
    intro identity id new hsome
    rw [Table.lookup_insert_eq]
    split_ifs
    · simp
    · exact hsome
  cases operation with
  | enroll identity project mode =>
    simp only [Queue.call, call, enroll, bind_eq_ok, raiseIf_eq_ok, exists_const, not_not,
      Except.ok.injEq] at h
    obtain ⟨-, habsent, rfl⟩ := h
    exact ⟨⟨rfl, rfl⟩, List.Subset.refl _, List.Subset.refl _, hrewrite (by simp [habsent]),
      fun {id value} hvalue => .inl ⟨hvalue, hpresent⟩⟩
  | activate identity =>
    simp only [Queue.call, call, activate, bind_eq_ok, raiseIf_eq_ok, exists_const, contributor,
      orRaise_eq_ok, Except.ok.injEq] at h
    obtain ⟨node, hnode, -, rfl⟩ := h
    exact ⟨⟨rfl, rfl⟩, List.Subset.refl _, List.Subset.refl _, hrewrite (by simp [hnode]),
      fun {id value} hvalue => .inl ⟨hvalue, hpresent⟩⟩
  | disable identity revision project =>
    simp only [Queue.call, call, disable, bind_eq_ok, raiseIf_eq_ok, exists_const,
      Except.ok.injEq] at h
    obtain ⟨node, -, -, -, rfl⟩ := h
    exact ⟨⟨rfl, rfl⟩, List.Subset.refl _, List.Subset.refl _, hrewrite fun _ _ _ => rfl,
      fun {id value} hvalue => .inl ⟨hvalue, hpresent⟩⟩
  | removeContributor identity revision project =>
    simp only [Queue.call, call, removeContributor, bind_eq_ok, raiseIf_eq_ok, exists_const,
      Except.ok.injEq] at h
    obtain ⟨node, -, -, -, hretained, rfl⟩ := h
    refine ⟨⟨rfl, rfl⟩, List.Subset.refl _, List.Subset.refl _, fun {id node} hnode => ?_, fun {id value} hvalue => ?_⟩
    · by_cases hid : id = identity
      · exact .inr (by rw [hid]; exact hretained)
      · exact .inl ⟨node, (AList.lookup_erase_ne hid).trans hnode, fun hdisabled => hdisabled⟩
    · by_cases hid : id = identity
      · subst hid
        simp [AList.lookup_erase] at hvalue
      · refine .inl ⟨(AList.lookup_erase_ne hid).symm.trans hvalue, fun hsome => ?_⟩
        exact fun hnone => hsome ((AList.lookup_erase_ne hid).symm.trans hnone)
  | saveNode snapshot now =>
    simp only [Queue.call, call, saveNode, bind_eq_ok, raiseIf_eq_ok, exists_const, contributor,
      orRaise_eq_ok, not_lt, Except.ok.injEq] at h
    obtain ⟨node, hnode, -, -, hnow, rfl⟩ := h
    refine ⟨⟨rfl, rfl⟩, List.Subset.refl _, List.Subset.refl _, hsame, fun {id value} hvalue => ?_⟩
    rw [Table.lookup_insert_eq] at hvalue
    split_ifs at hvalue with hid
    · obtain rfl := Option.some.inj hvalue
      exact .inr ⟨by rw [hid, hnode]; simp, hnow, hid.symm, rfl, rfl⟩
    · exact .inl ⟨hvalue, fun hsome => hsome⟩
  | govern projects identities policyRevision managed =>
    obtain rfl := Except.ok.inj h
    exact ⟨⟨rfl, rfl⟩, List.subset_append_left _ _, List.subset_append_left _ _, hsame,
      fun {id value} hvalue => .inl ⟨hvalue, fun hsome => hsome⟩⟩
  | _ => exact absurd hadministers (by simp [Operation.administers])

/-- A call through the queue is a call of the operation. -/
theorem call_of_queue (h : Queue.call store operation = .ok store') :
    store.call operation = .ok store' := by
  cases operation with
  | submit request key delegation id now =>
    simp only [Queue.call, bind_eq_ok] at h
    obtain ⟨_, -, h⟩ := h
    exact h
  | retry identity revision delegation acknowledgeUnknown now =>
    simp only [Queue.call, bind_eq_ok] at h
    obtain ⟨_, -, _, -, _, -, h⟩ := h
    exact h
  | saveNode snapshot now =>
    simp only [Queue.call, bind_eq_ok] at h
    obtain ⟨_, -, h⟩ := h
    exact h
  | _ => exact h

theorem registered_call (hl : store.Linked) (hr : store.Registered)
    (h : Queue.call store operation = .ok store') : store'.Registered := by
  cases hadministers : operation.administers with
  | true => exact hr.grows hl (grows_of_call hadministers h)
  | false =>
    obtain ⟨-, hsame⟩ | ⟨event, hcauses, hchanges⟩ := changes_of_call hl (call_of_queue h)
    · rw [hsame hadministers]
      exact hr
    · refine hr.changes hl hchanges ?_ ?_
      · rintro record rfl
        cases operation with
        | submit request key delegation id now =>
          simp only [Queue.call, bind_eq_ok] at h
          obtain ⟨_, hcapture, -⟩ := h
          obtain ⟨hsubject, hproject, hnodes⟩ := capture_eq_ok hcapture
          obtain ⟨rfl, rfl⟩ := hcauses
          obtain ⟨created, hcreated⟩ := Submits.created hchanges
          have howner : record.subjectId = record.delegation.subjectId ∧
              record.projectId = record.delegation.projectId := by
            rw [hcreated]
            exact ⟨rfl, rfl⟩
          rw [howner.1, howner.2]
          exact ⟨⟨hsubject, hproject⟩, hnodes⟩
        | _ => exact hcauses.elim
      · rintro delegation job rfl
        cases operation with
        | retry identity revision delegation' acknowledgeUnknown now =>
          simp only [Queue.call, bind_eq_ok, job_eq_ok] at h
          obtain ⟨found, hfound, _, -, _, hcapture, -⟩ := h
          obtain rfl : job.id = identity := hcauses
          have hjob : store.lookupJob job.id = some job := Edits.found hchanges
          obtain rfl := Option.some.inj (hjob.symm.trans hfound)
          exact (capture_eq_ok hcapture).2.2
        | _ => exact hcauses.elim

theorem registered_step (hl : store.Linked) (hr : store.Registered) (operation : Operation) :
    (Queue.step store operation).Linked ∧ (Queue.step store operation).Registered := by
  unfold Queue.step
  cases hcall : Queue.call store operation with
  | ok next =>
    refine ⟨?_, registered_call hl hr hcall⟩
    obtain ⟨hsame, -⟩ | ⟨event, -, hchanges⟩ := changes_of_call hl (call_of_queue hcall)
    · exact hl.same hsame
    · exact hl.changes hchanges
  | error e => exact ⟨hl, hr⟩

/-- The generations of a job are distinct, because attempts are told apart by them. -/
theorem nodup_generations (hl : store.Linked) (jobId : Identity) :
    (store.generations jobId).Nodup := by
  have hvalues : store.attempts.values = store.attempts.rows.map Prod.snd :=
    Table.values_eq_map_rows store.attempts
  rw [generations, allAttempts, hvalues, List.map_map, List.filter_map, List.map_map]
  refine List.Nodup.map_on ?_ ((List.Nodup.of_map Prod.fst
    (Table.nodup_map_fst_rows store.attempts)).filter _)
  rintro ⟨id, row⟩ hmem ⟨id', row'⟩ hmem' hgeneration
  simp only [List.mem_filter, Function.comp_apply, decide_eq_true_eq] at hmem hmem'
  have hrow : store.attempts.lookup id = some row := Table.mem_rows.mp hmem.1
  have hrow' : store.attempts.lookup id' = some row' := Table.mem_rows.mp hmem'.1
  have hid : id = id' := hl.distinct (by rw [lookupAttempt, hrow]; rfl)
    (by rw [lookupAttempt, hrow']; rfl) (hmem.2.trans hmem'.2.symm) hgeneration
  subst hid
  rw [Option.some.inj (hrow.symm.trans hrow')]

omit [Hash Plan] in
theorem validateJob_eq_ok {quiescent : Bool} {entry : Identity × JobRow} :
    store.validateJob quiescent entry = .ok () ↔
      entry.2.value.Valid ∧
      ((entry.1, entry.2.subjectId, entry.2.projectId, entry.2.key, entry.2.digest) =
        (entry.2.value.id, entry.2.value.subjectId, entry.2.value.projectId, entry.2.value.key,
          entry.2.value.digest) ∧
        entry.2.subjectId ∈ store.identities ∧ entry.2.projectId ∈ store.projects ∧
        entry.2.digest = Hash.digest entry.2.value.request) ∧
      ¬(quiescent = true ∧ entry.2.value.state ∉ TERMINAL ∧ entry.2.value.state ≠ .unknown) := by
  simp only [validateJob, bind_eq_ok, raiseIf_eq_ok, exists_const, not_or, not_not]

omit [Hash Submission] in
theorem validateAttempt_eq_ok {quiescent : Bool} {entry : Identity × AttemptRow} :
    store.validateAttempt quiescent entry = .ok () ↔
      entry.2.value.Valid ∧
      (entry.1, entry.2.jobId, entry.2.nodeId) =
        (entry.2.value.id, entry.2.value.jobId, entry.2.value.nodeId) ∧
      ∃ job, store.lookupJob entry.2.jobId = some job ∧
        (store.contributors.lookup entry.2.nodeId ≠ none ∧
          entry.2.value.plan.subjectId = job.subjectId ∧
          entry.2.value.plan.projectId = job.projectId ∧
          entry.2.value.plan.job = job.request.job ∧ entry.2.nodeId ∈ job.request.nodeIds) ∧
        ¬(entry.2.value.state = .abandoned ∧
          ∀ node ∈ store.contributors.lookup entry.2.nodeId, node.disabled = false) ∧
        ¬(quiescent = true ∧ ¬Retired entry.2.value) := by
  simp only [validateAttempt, validateAbandoned, bind_eq_ok, raiseIf_eq_ok, orRaise_eq_ok,
    exists_const, not_or, not_not, ne_eq]

theorem Linked.job_row (hl : store.Linked) {row : JobRow} (h : store.jobs.lookup id = some row) :
    store.lookupJob id = some row.value ∧ row = .of row.value ∧ row.value.id = id :=
  ⟨by rw [lookupJob, h]; rfl, hl.bound.job h⟩

theorem Linked.attempt_row (hl : store.Linked) {row : AttemptRow}
    (h : store.attempts.lookup id = some row) :
    store.lookupAttempt id = some row.value ∧ row = .of row.value ∧ row.value.id = id :=
  ⟨by rw [lookupAttempt, h]; rfl, hl.bound.attempt h⟩

/-- The validation accepts linked and registered records. -/
theorem validateRecords_eq_ok (hl : store.Linked) (hr : store.Registered) :
    store.validateRecords false = .ok () := by
  simp only [validateRecords, bind_eq_ok]
  refine ⟨(), forM_eq_ok.mpr ?_, (), forM_eq_ok.mpr ?_, (), forM_eq_ok.mpr ?_, forM_eq_ok.mpr ?_⟩
  · rintro ⟨id, row⟩ hmem
    obtain ⟨hjob, hof, hid⟩ := hl.job_row (Table.mem_rows.mp hmem)
    refine validateJob_eq_ok.mpr ⟨(hl.job hjob).1, ?_, by simp⟩
    obtain ⟨hsubject, hproject⟩ := hr.owner hjob
    have hdigest := (hl.job hjob).2
    rw [hof]
    exact ⟨by rw [← hid]; rfl, hsubject, hproject, hdigest⟩
  · rintro ⟨id, row⟩ hmem
    obtain ⟨hattempt, hof, hid⟩ := hl.attempt_row (Table.mem_rows.mp hmem)
    obtain ⟨job, hjob, howns⟩ := hl.owner hattempt
    have hcolumns : row.jobId = row.value.jobId ∧ row.nodeId = row.value.nodeId :=
      ⟨congrArg AttemptRow.jobId hof, congrArg AttemptRow.nodeId hof⟩
    refine validateAttempt_eq_ok.mpr ⟨hl.attempt hattempt, ?_, job, ?_, ⟨?_, howns.subject,
      howns.project, howns.job_eq, ?_⟩, ?_, by simp⟩
    · rw [hcolumns.1, hcolumns.2, hid]
    · rw [hcolumns.1, hjob]
    · rw [hcolumns.2]
      exact hr.placed hattempt
    · rw [hcolumns.2]
      exact howns.node
    · rintro ⟨habandoned, henabled⟩
      obtain ⟨node, hnode, hdisabled⟩ := hr.revoked hattempt habandoned
      have := henabled node (by rw [hcolumns.2]; exact hnode)
      simp [this] at hdisabled
  · rintro ⟨id, row⟩ hmem
    obtain ⟨hjob, -, hid⟩ := hl.job_row (Table.mem_rows.mp hmem)
    simp only [validateGenerations, bind_eq_ok, raiseIf_eq_ok, exists_const]
    refine ⟨by simp, ?_, ?_⟩
    · rintro ⟨current, hcurrent, hwrong⟩
      obtain ⟨attempt, hattempt, hown, hgeneration⟩ := hl.current hjob current hcurrent
      obtain hne | hne := hwrong attempt hattempt
      · exact hne (by rw [hown, hid])
      · exact hne hgeneration
    · rintro (hdup | ⟨generation, hgeneration, hlt⟩)
      · exact hdup (nodup_generations hl row.value.id)
      · simp only [generations, List.mem_map, List.mem_filter, decide_eq_true_eq,
          mem_allAttempts] at hgeneration
        obtain ⟨attempt, ⟨⟨other, hattempt⟩, hown⟩, rfl⟩ := hgeneration
        obtain ⟨owner, howner, howns⟩ := hl.owner hattempt
        rw [hown, hid, hjob] at howner
        obtain rfl := Option.some.inj howner
        exact absurd howns.generation (not_le.mpr hlt)
  · rintro ⟨id, value⟩ hmem
    obtain ⟨hcontributor, hobserved, hnode, hattempts, hnext⟩ := hr.nodes (Table.mem_rows.mp hmem)
    simp only [validateNode, bind_eq_ok, raiseIf_eq_ok, exists_const, not_lt, not_or, not_not,
      ne_eq]
    exact ⟨hobserved, hcontributor, hnode, hattempts, hnext⟩

/-- Every store that the queue reaches passes the validation. -/
theorem validateRecords_of_run (projects identities : List Identity)
    (contributors : Table Identity Contributor) (policyRevision : ℕ) (managed : List String)
    (operations : List Operation) :
    (run Queue.step (initial projects identities contributors policyRevision managed)
      operations).validateRecords false = .ok () := by
  have hinvariant := run_invariant (I := fun store => Linked store ∧ Registered store)
    (fun store operation h => registered_step h.1 h.2 operation)
    (s := initial projects identities contributors policyRevision managed)
    ⟨linked_initial .., ?_⟩ operations
  · exact validateRecords_eq_ok hinvariant.1 hinvariant.2
  · constructor <;> simp [initial, lookupJob, lookupAttempt]

end Store

end Ficc.Workloads
