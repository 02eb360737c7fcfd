import Ficc.Foundations.Transition
import Ficc.Workloads.RecordsSpec

/-!
# Runs of the controller's store

The store as a machine whose actions are the operations on its records, with any arguments, and
the operations of the other modules on the tables that the records refer to. An operation that
changes jobs or attempts is one of the five kinds of `Event`. In every run the records stay
`Linked`: the current attempt of a job exists and carries its generation, every attempt is bound
to the submission of its job, and the generations of a job are distinct.
-/

namespace Ficc.Workloads

open Execution

variable [Hash Plan] [Hash Submission]

/-- A call of an operation on the store. -/
inductive Store.Operation
  | submit (request : Submission) (key : String) (delegation : Delegation) (id : Identity)
    (now : ℚ)
  | reserve (plan : Plan) (lease : Renewal) (installationId : Identity) (capacity : Limits)
    (ledgerId : Option Identity) (admissionVersion : ℕ) (now : ℚ)
  | observation (result : AttemptResult) (nodeId installationId : Identity) (now : ℚ)
  | transition (identity : Identity) (expected state : State) (reason : Option String) (now : ℚ)
  | renew (identity : Identity) (expiresAt now : ℚ)
  | cancel (identity : Identity) (revision : ℕ) (now : ℚ)
  | retry (identity : Identity) (revision : ℕ) (delegation : Delegation)
    (acknowledgeUnknown : Bool) (now : ℚ)
  | pending (identity : Identity) (reason : String) (now : ℚ)
  | abandon (identity : Identity) (revision : ℕ) (now : ℚ)
  | remove (identity : Identity) (revision : ℕ)
  | enroll (identity project : Identity) (mode : Mode)
  | activate (identity : Identity)
  | disable (identity : Identity) (revision : ℕ) (project : Identity)
  | removeContributor (identity : Identity) (revision : ℕ) (project : Identity)
  | saveNode (snapshot : Snapshot) (now : ℚ)
  | govern (projects identities : List Identity) (policyRevision : ℕ) (managed : List String)

namespace Store

/-- The store that an operation commits. -/
def call (store : Store) : Operation → Except Error Store
  | .submit request key delegation id now =>
    (store.submit request key delegation id now).map Prod.snd
  | .reserve plan lease installationId capacity ledgerId admissionVersion now =>
    (store.reserve plan lease installationId capacity ledgerId admissionVersion now).map Prod.snd
  | .observation result nodeId installationId now =>
    (store.observation result nodeId installationId now).map Prod.snd
  | .transition identity expected state reason now =>
    (store.transition identity expected state reason now).map Prod.snd
  | .renew identity expiresAt now => (store.renew identity expiresAt now).map Prod.snd
  | .cancel identity revision now => (store.cancel identity revision now).map Prod.snd
  | .retry identity revision delegation acknowledgeUnknown now =>
    (store.retry identity revision delegation acknowledgeUnknown now).map Prod.snd
  | .pending identity reason now => (store.pending identity reason now).map Prod.snd
  | .abandon identity revision now => (store.abandon identity revision now).map Prod.snd
  | .remove identity revision => store.remove identity revision
  | .enroll identity project mode => store.enroll identity project mode
  | .activate identity => store.activate identity
  | .disable identity revision project => store.disable identity revision project
  | .removeContributor identity revision project =>
    store.removeContributor identity revision project
  | .saveNode snapshot now => store.saveNode snapshot now
  -- Accounts, policies and managed jobs are other modules, which delete no account or project.
  | .govern projects identities policyRevision managed =>
    .ok { store with
      projects := store.projects ++ projects, identities := store.identities ++ identities
      policyRevision, managed }

/-- An operation that raises is rolled back. -/
def step (store : Store) (operation : Operation) : Store :=
  match store.call operation with
  | .ok next => next
  | .error _ => store

/-- A store without jobs, attempts and observed nodes. -/
def initial (projects identities : List Identity) (contributors : Table Identity Contributor)
    (policyRevision : ℕ) (managed : List String) : Store :=
  { projects, identities, contributors, jobs := ∅, attempts := ∅, nodes := ∅
    policyRevision, managed }

/-- The operation belongs to another module than the records. -/
def Operation.administers : Operation → Bool
  | .enroll .. | .activate .. | .disable .. | .removeContributor .. | .saveNode .. | .govern .. =>
    true
  | _ => false

/-- What an operation does to jobs and attempts. -/
inductive Event
  | submit (record : Record)
  | reserve (job : Record) (attempt : Attempt)
  | act (action : Action) (job : Record) (attempt : Attempt)
  | edit (edit : Edit) (job : Record)
  | remove (job : Record)

/-- The store after the event. -/
def Event.Changes (store : Store) (store' : Store) : Event → Prop
  | .submit record => Submits store record store'
  | .reserve job attempt => Reserves store job attempt store'
  | .act action job attempt => Acts store action job attempt store'
  | .edit change job => Edits store change job store'
  | .remove job => Removes store job store'

/-- The events that an operation may cause. -/
def Operation.Causes : Operation → Event → Prop
  | .submit request _ delegation _ _, .submit record =>
    record.request = request ∧ record.delegation = delegation
  | .reserve .., .reserve .. => True
  | .observation result .., .act (.observe result') .. => result' = result
  | .transition .., .act (.dispatch ..) .. => True
  | .renew .., .act (.renew _) .. => True
  | .abandon .., .act .abandon .. => True
  | .cancel .., .edit .cancel _ => True
  | .retry identity .., .edit (.retry _) job => job.id = identity
  | .pending .., .edit (.pending _) _ => True
  | .remove .., .remove _ => True
  | _, _ => False

/-- The attempt runs the submission of the job. -/
structure Owns (job : Record) (attempt : Attempt) : Prop where
  subject : attempt.plan.subjectId = job.subjectId
  project : attempt.plan.projectId = job.projectId
  job_eq : attempt.plan.job = job.request.job
  node : attempt.nodeId ∈ job.request.nodeIds
  generation : attempt.plan.generation ≤ job.generation

/-- Jobs and attempts refer to each other as they should. -/
structure Linked (store : Store) : Prop where
  bound : store.Bound
  job : ∀ {id : Identity} {job : Record}, store.lookupJob id = some job →
    job.Valid ∧ job.digest = Hash.digest job.request
  attempt : ∀ {id : Identity} {attempt : Attempt}, store.lookupAttempt id = some attempt →
    attempt.Valid
  current : ∀ {id : Identity} {job : Record}, store.lookupJob id = some job →
    ∀ current ∈ job.currentAttempt, ∃ attempt, store.lookupAttempt current = some attempt ∧
      attempt.jobId = id ∧ attempt.plan.generation = job.generation
  owner : ∀ {id : Identity} {attempt : Attempt}, store.lookupAttempt id = some attempt →
    ∃ job, store.lookupJob attempt.jobId = some job ∧ Owns job attempt
  distinct : ∀ {id id' : Identity} {attempt attempt' : Attempt},
    store.lookupAttempt id = some attempt → store.lookupAttempt id' = some attempt' →
    attempt.jobId = attempt'.jobId → attempt.plan.generation = attempt'.plan.generation → id = id'

/-- The second job is the same submission with the same attempts. -/
structure KeepsJob (job job' : Record) : Prop where
  valid : job'.Valid
  subject : job'.subjectId = job.subjectId
  project : job'.projectId = job.projectId
  request : job'.request = job.request
  digest : job'.digest = job.digest
  current : job'.currentAttempt = job.currentAttempt
  generation : job'.generation = job.generation

/-- The second attempt is the same attempt. -/
structure KeepsAttempt (attempt attempt' : Attempt) : Prop where
  valid : attempt'.Valid
  job : attempt'.jobId = attempt.jobId
  node : attempt'.nodeId = attempt.nodeId
  plan : attempt'.plan = attempt.plan

/-- The records under the same keys correspond to each other. -/
structure Follows {α : Type} (R : α → α → Prop) (before after : Identity → Option α) : Prop where
  back : ∀ {id : Identity} {a' : α}, after id = some a' → ∃ a, before id = some a ∧ R a a'
  forth : ∀ {id : Identity} {a : α}, before id = some a → ∃ a', after id = some a' ∧ R a a'

omit [Hash Plan] [Hash Submission] in
/-- Rewriting one record, under a relation that every record has to itself. -/
theorem Follows.write {α : Type} {R : α → α → Prop} {before after : Identity → Option α}
    (hrefl : ∀ {id : Identity} {a : α}, before id = some a → R a a) {key : Identity} {old new : α}
    (hold : before key = some old) (hR : R old new)
    (hafter : ∀ id, after id = if id = key then some new else before id) :
    Follows R before after where
  back {id a'} h := by
    rw [hafter] at h
    split_ifs at h with hid
    · obtain rfl := Option.some.inj h
      exact ⟨old, by rw [hid, hold], hR⟩
    · exact ⟨a', h, hrefl h⟩
  forth {id a} h := by
    by_cases hid : id = key
    · subst hid
      obtain rfl := Option.some.inj (hold.symm.trans h)
      exact ⟨new, by rw [hafter, if_pos rfl], hR⟩
    · exact ⟨a, by rw [hafter, if_neg hid, h], hrefl h⟩

omit [Hash Plan] [Hash Submission] in
theorem Follows.same {α : Type} {R : α → α → Prop} {before after : Identity → Option α}
    (hrefl : ∀ {id : Identity} {a : α}, before id = some a → R a a)
    (hafter : ∀ id, after id = before id) : Follows R before after where
  back {id a'} h := ⟨a', by rw [← hafter, h], hrefl ((hafter id).symm.trans h)⟩
  forth {id a} h := ⟨a, by rw [hafter, h], hrefl h⟩

variable {store store' : Store}

/-- A store with the same jobs and attempts, up to their progress, is linked as well. -/
theorem Linked.of_follows (h : store.Linked) (hb : store'.Bound)
    (hjobs : Follows KeepsJob store.lookupJob store'.lookupJob)
    (hattempts : Follows KeepsAttempt store.lookupAttempt store'.lookupAttempt) :
    store'.Linked where
  bound := hb
  job hjob' := by
    obtain ⟨job, hjob, hkept⟩ := hjobs.back hjob'
    exact ⟨hkept.valid, by rw [hkept.digest, hkept.request, (h.job hjob).2]⟩
  attempt hattempt' := by
    obtain ⟨attempt, -, hkept⟩ := hattempts.back hattempt'
    exact hkept.valid
  current hjob' current hcurrent := by
    obtain ⟨job, hjob, hkept⟩ := hjobs.back hjob'
    rw [hkept.current] at hcurrent
    obtain ⟨attempt, hattempt, hown, hgeneration⟩ := h.current hjob current hcurrent
    obtain ⟨attempt', hattempt', hkept'⟩ := hattempts.forth hattempt
    exact ⟨attempt', hattempt', by rw [hkept'.job, hown],
      by rw [hkept'.plan, hgeneration, hkept.generation]⟩
  owner hattempt' := by
    obtain ⟨attempt, hattempt, hkept⟩ := hattempts.back hattempt'
    obtain ⟨job, hjob, howns⟩ := h.owner hattempt
    obtain ⟨job', hjob', hkept'⟩ := hjobs.forth hjob
    refine ⟨job', by rw [hkept.job, hjob'], ?_⟩
    constructor
    · rw [hkept.plan, hkept'.subject, howns.subject]
    · rw [hkept.plan, hkept'.project, howns.project]
    · rw [hkept.plan, hkept'.request, howns.job_eq]
    · rw [hkept.node, hkept'.request]
      exact howns.node
    · rw [hkept.plan, hkept'.generation]
      exact howns.generation
  distinct hfirst' hsecond' hjob hgeneration := by
    obtain ⟨first, hfirst, hkept⟩ := hattempts.back hfirst'
    obtain ⟨second, hsecond, hkept'⟩ := hattempts.back hsecond'
    rw [hkept.job, hkept'.job] at hjob
    rw [hkept.plan, hkept'.plan] at hgeneration
    exact h.distinct hfirst hsecond hjob hgeneration

variable {id : Identity} {job : Record} {attempt : Attempt} {action : Action} {event : Event}

theorem Linked.keepsJob_self (h : store.Linked) (hjob : store.lookupJob id = some job) :
    KeepsJob job job :=
  ⟨(h.job hjob).1, rfl, rfl, rfl, rfl, rfl, rfl⟩

theorem Linked.keepsAttempt_self (h : store.Linked)
    (hattempt : store.lookupAttempt id = some attempt) : KeepsAttempt attempt attempt :=
  ⟨h.attempt hattempt, rfl, rfl, rfl⟩

omit [Hash Plan] [Hash Submission] in
theorem keepsJob_of_act {job' : Record} (hvalid : job'.Valid)
    (h : (action.applyJob job).Touches job') : KeepsJob job job' := by
  obtain ⟨updatedAt, revision, rfl⟩ := h
  cases action with
  | observe result =>
    by_cases hreleased : result.state ≠ .released <;>
      constructor <;> first | exact hvalid | simp [Action.applyJob, hreleased]
  | dispatch state reason => exact ⟨hvalid, rfl, rfl, rfl, rfl, rfl, rfl⟩
  | renew lease => exact ⟨hvalid, rfl, rfl, rfl, rfl, rfl, rfl⟩
  | abandon => exact ⟨hvalid, rfl, rfl, rfl, rfl, rfl, rfl⟩

omit [Hash Submission] in
theorem keepsAttempt_of_act {attempt' : Attempt} (hvalid : attempt'.Valid)
    (h : (action.applyAttempt attempt).Touches attempt') :
    KeepsAttempt attempt attempt' := by
  obtain ⟨updatedAt, rfl⟩ := h
  cases action <;> exact ⟨hvalid, rfl, rfl, rfl⟩

/-- The records that an action writes are those of the same job and the same attempt. -/
theorem Acts.writes_keeps (hl : store.Linked) (h : Acts store action job attempt store') :
    ∃ job' attempt', (action.applyJob job).Touches job' ∧
      (action.applyAttempt attempt).Touches attempt' ∧ KeepsJob job job' ∧
      KeepsAttempt attempt attempt' ∧ job'.id = job.id ∧ attempt'.id = attempt.id ∧
      Writes store store' job' attempt' := by
  obtain ⟨job', attempt', htouches, hvalid, htouches', hvalid', hwrites⟩ := h.writes
  have hvalid : job'.Valid := by
    obtain rfl | hvalid := hvalid
    · exact (hl.job h.foundJob).1
    · exact hvalid
  refine ⟨job', attempt', htouches, htouches', keepsJob_of_act hvalid htouches,
    keepsAttempt_of_act hvalid' htouches', ?_, ?_, hwrites⟩
  · obtain ⟨updatedAt, revision, rfl⟩ := htouches
    cases action with
    | observe result =>
      by_cases hreleased : result.state ≠ .released <;> simp [Action.applyJob, hreleased]
    | dispatch state reason => rfl
    | renew lease => rfl
    | abandon => rfl
  · obtain ⟨updatedAt, rfl⟩ := htouches'
    cases action <;> rfl

theorem Linked.act (hl : store.Linked) (h : Acts store action job attempt store') :
    store'.Linked := by
  obtain ⟨job', attempt', -, -, hjob, hattempt, hid, hid', hwrites⟩ := h.writes_keeps hl
  refine hl.of_follows hwrites.bound (.write hl.keepsJob_self ?_ hjob hwrites.jobs)
    (.write hl.keepsAttempt_self ?_ hattempt hwrites.attempts)
  · rw [hid, hl.bound.job_id h.foundJob, h.foundJob]
  · rw [hid', h.foundAttempt]

theorem Linked.edit (hl : store.Linked) {edit : Edit} (h : Edits store edit job store') :
    store'.Linked := by
  obtain ⟨job', htouches, hvalid, hwrites⟩ := h.writes
  have hkept : KeepsJob job job' ∧ job'.id = job.id := by
    obtain ⟨updatedAt, revision, rfl⟩ := htouches
    cases edit with
    | cancel =>
      by_cases hqueued : job.state = .queued <;> refine ⟨⟨hvalid, ?_, ?_, ?_, ?_, ?_, ?_⟩, ?_⟩ <;>
        simp [Edit.apply, hqueued]
    | retry delegation => exact ⟨⟨hvalid, rfl, rfl, rfl, rfl, rfl, rfl⟩, rfl⟩
    | pending reason => exact ⟨⟨hvalid, rfl, rfl, rfl, rfl, rfl, rfl⟩, rfl⟩
  refine hl.of_follows hwrites.bound (.write hl.keepsJob_self ?_ hkept.1 hwrites.jobs)
    (.same hl.keepsAttempt_self fun id => ?_)
  · rw [hkept.2, h.found]
  · rw [lookupAttempt, lookupAttempt, hwrites.attempts]

theorem Linked.submit (hl : store.Linked) {record : Record} (h : Submits store record store') :
    store'.Linked := by
  obtain ⟨now, hcreated⟩ := h.created
  have hattempts : ∀ id, store'.lookupAttempt id = store.lookupAttempt id := fun id => by
    rw [lookupAttempt, lookupAttempt, h.writes.attempts]
  -- A job is the new one or an old one.
  have hjobs : ∀ {id job}, store'.lookupJob id = some job →
      job = record ∧ id = record.id ∨ store.lookupJob id = some job := by
    intro id job hjob
    rw [h.writes.jobs] at hjob
    split_ifs at hjob with hid
    · exact .inl ⟨(Option.some.inj hjob).symm, hid⟩
    · exact .inr hjob
  refine ⟨h.writes.bound, ?_, ?_, ?_, ?_, ?_⟩
  · intro id job hjob
    obtain ⟨rfl, -⟩ | hjob := hjobs hjob
    · exact ⟨h.valid, by rw [hcreated]; rfl⟩
    · exact hl.job hjob
  · intro id attempt hattempt
    exact hl.attempt ((hattempts id).symm.trans hattempt)
  · intro id job hjob current hcurrent
    obtain ⟨rfl, -⟩ | hjob := hjobs hjob
    · rw [hcreated] at hcurrent
      simp [submitted] at hcurrent
    · rw [hattempts]
      exact hl.current hjob current hcurrent
  · intro id attempt hattempt
    obtain ⟨job, hjob, howns⟩ := hl.owner ((hattempts id).symm.trans hattempt)
    refine ⟨job, ?_, howns⟩
    have hne : attempt.jobId ≠ record.id := by
      intro heq
      rw [heq, h.absent] at hjob
      exact absurd hjob (by simp)
    rw [h.writes.jobs, if_neg hne, hjob]
  · intro id id' first second hfirst hsecond
    exact hl.distinct ((hattempts id).symm.trans hfirst) ((hattempts id').symm.trans hsecond)

/-- The generation of a new attempt is above all earlier ones of its job. -/
theorem Reserves.generation_lt (hl : store.Linked) (h : Reserves store job attempt store')
    {earlier : Attempt} (hearlier : store.lookupAttempt id = some earlier)
    (hown : earlier.jobId = job.id) :
    earlier.plan.generation < attempt.plan.generation := by
  obtain ⟨owner, howner, howns⟩ := hl.owner hearlier
  rw [hown, h.found] at howner
  obtain rfl := Option.some.inj howner
  have := howns.generation
  have := h.generation
  omega

theorem Linked.reserve (hl : store.Linked) (h : Reserves store job attempt store') :
    store'.Linked := by
  obtain ⟨job', htouches, hvalid, hwrites⟩ := h.writes
  obtain ⟨now, hcreated⟩ := h.created
  have hjobId : attempt.jobId = job.id := by rw [hcreated]; rfl
  have hjob'id : job'.id = job.id := by obtain ⟨_, _, rfl⟩ := htouches; rfl
  have hjobs : ∀ {id found}, store'.lookupJob id = some found →
      found = job' ∧ id = job.id ∨ id ≠ job.id ∧ store.lookupJob id = some found := by
    intro id found hfound
    rw [hwrites.jobs, hjob'id] at hfound
    split_ifs at hfound with hid
    · exact .inl ⟨(Option.some.inj hfound).symm, hid⟩
    · exact .inr ⟨hid, hfound⟩
  have hattempts : ∀ {id found}, store'.lookupAttempt id = some found →
      found = attempt ∧ id = attempt.id ∨ store.lookupAttempt id = some found := by
    intro id found hfound
    rw [hwrites.attempts] at hfound
    split_ifs at hfound with hid
    · exact .inl ⟨(Option.some.inj hfound).symm, hid⟩
    · exact .inr hfound
  refine ⟨hwrites.bound, ?_, ?_, ?_, ?_, ?_⟩
  · intro id found hfound
    obtain ⟨rfl, -⟩ | ⟨-, hfound⟩ := hjobs hfound
    · refine ⟨hvalid, ?_⟩
      obtain ⟨_, _, rfl⟩ := htouches
      exact (hl.job h.found).2
    · exact hl.job hfound
  · intro id found hfound
    obtain ⟨rfl, -⟩ | hfound := hattempts hfound
    · exact h.valid
    · exact hl.attempt hfound
  · intro id found hfound current hcurrent
    obtain ⟨rfl, rfl⟩ | ⟨-, hfound⟩ := hjobs hfound
    · obtain ⟨_, _, rfl⟩ := htouches
      obtain rfl := Option.some.inj hcurrent
      exact ⟨attempt, by rw [hwrites.attempts, if_pos rfl], hjobId, rfl⟩
    · obtain ⟨old, hold, hown⟩ := hl.current hfound current hcurrent
      have hne : current ≠ attempt.id := by
        rintro rfl
        rw [h.absent] at hold
        exact absurd hold (by simp)
      exact ⟨old, by rw [hwrites.attempts, if_neg hne, hold], hown⟩
  · intro id found hfound
    obtain ⟨rfl, -⟩ | hfound := hattempts hfound
    · refine ⟨job', by rw [hwrites.jobs, hjobId, hjob'id, if_pos rfl], ?_⟩
      obtain ⟨_, _, rfl⟩ := htouches
      exact ⟨h.subject, h.project, h.job_eq, h.node, le_rfl⟩
    · obtain ⟨owner, howner, howns⟩ := hl.owner hfound
      by_cases hown : found.jobId = job.id
      · have hlt := h.generation_lt hl hfound hown
        rw [hown, h.found] at howner
        obtain rfl := Option.some.inj howner
        refine ⟨job', by rw [hwrites.jobs, hown, hjob'id, if_pos rfl], ?_⟩
        obtain ⟨_, _, rfl⟩ := htouches
        exact ⟨howns.subject, howns.project, howns.job_eq, howns.node, hlt.le⟩
      · exact ⟨owner, by rw [hwrites.jobs, hjob'id, if_neg hown, howner], howns⟩
  · intro id id' first second hfirst hsecond hsame hgeneration
    obtain ⟨rfl, rfl⟩ | hfirst := hattempts hfirst <;>
      obtain ⟨rfl, rfl⟩ | hsecond := hattempts hsecond
    · rfl
    · exact absurd hgeneration.symm (h.generation_lt hl hsecond (by rw [← hsame, hjobId])).ne
    · exact absurd hgeneration (h.generation_lt hl hfirst (by rw [hsame, hjobId])).ne
    · exact hl.distinct hfirst hsecond hsame hgeneration

theorem Linked.remove (hl : store.Linked) (h : Removes store job store') :
    store'.Linked := by
  refine ⟨h.bound, ?_, ?_, ?_, ?_, ?_⟩
  · intro id found hfound
    exact hl.job (h.lookupJob_eq_some.mp hfound).1
  · intro id attempt hattempt
    exact hl.attempt (h.lookupAttempt_eq_some.mp hattempt).1
  · intro id found hfound current hcurrent
    obtain ⟨hfound, hne⟩ := h.lookupJob_eq_some.mp hfound
    obtain ⟨attempt, hattempt, hown, hgeneration⟩ := hl.current hfound current hcurrent
    exact ⟨attempt, h.lookupAttempt_eq_some.mpr ⟨hattempt, by rw [hown]; exact hne⟩, hown,
      hgeneration⟩
  · intro id attempt hattempt
    obtain ⟨hattempt, hne⟩ := h.lookupAttempt_eq_some.mp hattempt
    obtain ⟨owner, howner, howns⟩ := hl.owner hattempt
    exact ⟨owner, h.lookupJob_eq_some.mpr ⟨howner, hne⟩, howns⟩
  · intro id id' first second hfirst hsecond
    exact hl.distinct (h.lookupAttempt_eq_some.mp hfirst).1 (h.lookupAttempt_eq_some.mp hsecond).1

theorem Linked.changes (hl : store.Linked) (h : event.Changes store store') :
    store'.Linked := by
  cases event with
  | submit record => exact hl.submit h
  | reserve job attempt => exact hl.reserve h
  | act action job attempt => exact hl.act h
  | edit change job => exact hl.edit h
  | remove job => exact hl.remove h

theorem Linked.same (hl : store.Linked) (h : SameRecords store store') : store'.Linked := by
  refine hl.of_follows ⟨fun {id row} hrow => ?_, fun {id row} hrow => ?_⟩
    (.same hl.keepsJob_self h.lookupJob) (.same hl.keepsAttempt_self h.lookupAttempt)
  · rw [h.jobs] at hrow
    exact hl.bound.job hrow
  · rw [h.attempts] at hrow
    exact hl.bound.attempt hrow

theorem tables_of_changes (h : event.Changes store store') :
    SameTables store store' := by
  cases event with
  | submit record => exact h.writes.tables
  | reserve job attempt =>
    obtain ⟨job', -, -, hwrites⟩ := h.writes
    exact hwrites.tables
  | act action job attempt =>
    obtain ⟨job', attempt', -, -, -, -, hwrites⟩ := h.writes
    exact hwrites.tables
  | edit change job =>
    obtain ⟨job', -, -, hwrites⟩ := h.writes
    exact hwrites.tables
  | remove job => exact h.tables

/-- What an event does to a stored attempt. -/
theorem lookupAttempt_of_changes (hl : store.Linked) (h : event.Changes store store')
    (hattempt : store.lookupAttempt id = some attempt) :
    store'.lookupAttempt id = some attempt ∨
      (∃ action job attempt', event = .act action job attempt ∧
        (action.applyAttempt attempt).Touches attempt' ∧
        store'.lookupAttempt id = some attempt') ∨
      ∃ job, event = .remove job ∧ attempt.jobId = job.id ∧ store'.lookupAttempt id = none := by
  cases event with
  | submit record =>
    refine .inl ?_
    rw [lookupAttempt, h.writes.attempts]
    exact hattempt
  | reserve job fresh =>
    obtain ⟨job', -, -, hwrites⟩ := h.writes
    have hne : id ≠ fresh.id := by
      rintro rfl
      rw [h.absent] at hattempt
      exact absurd hattempt (by simp)
    exact .inl (by rw [hwrites.attempts, if_neg hne, hattempt])
  | act action job acted =>
    obtain ⟨job', attempt', -, htouches, -, -, -, hid, hwrites⟩ := h.writes_keeps hl
    by_cases hsame : id = acted.id
    · subst hsame
      obtain rfl := Option.some.inj (h.foundAttempt.symm.trans hattempt)
      exact .inr (.inl ⟨action, job, attempt', rfl, htouches,
        by rw [hwrites.attempts, if_pos hid.symm]⟩)
    · exact .inl (by rw [hwrites.attempts, hid, if_neg hsame, hattempt])
  | edit change job =>
    obtain ⟨job', -, -, hwrites⟩ := h.writes
    refine .inl ?_
    rw [lookupAttempt, hwrites.attempts]
    exact hattempt
  | remove job =>
    by_cases hown : attempt.jobId = job.id
    · refine .inr (.inr ⟨job, rfl, hown, ?_⟩)
      rw [h.attempts, hattempt]
      simp [Option.filter, hown]
    · exact .inl (h.lookupAttempt_eq_some.mpr ⟨hattempt, hown⟩)

/-- Only a reservation creates an attempt. -/
theorem reserve_of_changes (hl : store.Linked) (h : event.Changes store store')
    (hbefore : store.lookupAttempt id = none) (hafter : store'.lookupAttempt id = some attempt) :
    ∃ job, event = .reserve job attempt ∧ id = attempt.id := by
  have hnone : store'.lookupAttempt id ≠ none := by simp [hafter]
  cases event with
  | submit record =>
    refine absurd ?_ hnone
    rw [lookupAttempt, h.writes.attempts]
    exact hbefore
  | reserve job fresh =>
    obtain ⟨job', -, -, hwrites⟩ := h.writes
    rw [hwrites.attempts] at hafter
    split_ifs at hafter with hid
    · obtain rfl := Option.some.inj hafter
      exact ⟨job, rfl, hid⟩
    · exact absurd hafter (by simp [hbefore])
  | act action job acted =>
    obtain ⟨job', attempt', -, -, -, -, -, hid, hwrites⟩ := h.writes_keeps hl
    rw [hwrites.attempts, hid] at hafter
    split_ifs at hafter with hsame
    · rw [hsame, h.foundAttempt] at hbefore
      exact absurd hbefore (by simp)
    · exact absurd hafter (by simp [hbefore])
  | edit change job =>
    obtain ⟨job', -, -, hwrites⟩ := h.writes
    refine absurd ?_ hnone
    rw [lookupAttempt, hwrites.attempts]
    exact hbefore
  | remove job =>
    refine absurd ?_ hnone
    rw [h.attempts, hbefore]
    rfl

/-- Only a submission creates a job. -/
theorem submit_of_changes (hl : store.Linked) (h : event.Changes store store')
    (hbefore : store.lookupJob id = none) (hafter : store'.lookupJob id = some job) :
    event = .submit job ∧ id = job.id := by
  -- The other events rewrite a job that is there.
  have hwrite : ∀ {written new : Record}, store.lookupJob written.id = some written →
      new.id = written.id →
      ¬∀ other, store'.lookupJob other = if other = new.id then some new
        else store.lookupJob other := by
    intro written new hwritten hnew hlookup
    rw [hlookup, hbefore] at hafter
    split_ifs at hafter with hid
    rw [hid, hnew, hwritten] at hbefore
    exact absurd hbefore (by simp)
  cases event with
  | submit record =>
    have hafter' := hafter
    rw [h.writes.jobs, hbefore] at hafter'
    split_ifs at hafter' with hid
    obtain rfl := Option.some.inj hafter'
    exact ⟨rfl, hid⟩
  | reserve written attempt =>
    obtain ⟨job', htouches, -, hwrites⟩ := h.writes
    have hid : job'.id = written.id := by obtain ⟨_, _, rfl⟩ := htouches; rfl
    exact absurd hwrites.jobs (hwrite h.found hid)
  | act action written attempt =>
    obtain ⟨job', attempt', -, -, -, -, hid, -, hwrites⟩ := h.writes_keeps hl
    have hwritten : store.lookupJob written.id = some written := by
      rw [hl.bound.job_id h.foundJob, h.foundJob]
    exact absurd hwrites.jobs (hwrite hwritten hid)
  | edit change written =>
    obtain ⟨job', htouches, -, hwrites⟩ := h.writes
    have hid : job'.id = written.id := by
      obtain ⟨_, _, rfl⟩ := htouches
      exact (change.apply_columns written).1
    exact absurd hwrites.jobs (hwrite h.found hid)
  | remove removed =>
    rw [(h.lookupJob_eq_some.mp hafter).1] at hbefore
    exact absurd hbefore (by simp)

/-- What an event does to a stored job. -/
theorem lookupJob_of_changes (hl : store.Linked) (h : event.Changes store store')
    (hjob : store.lookupJob id = some job) :
    store'.lookupJob id = some job ∨
      (∃ attempt job', event = .reserve job attempt ∧ Record.Touches
        { job with
          currentAttempt := some attempt.id, generation := attempt.plan.generation
          state := .preparing, reason := none } job' ∧ store'.lookupJob id = some job') ∨
      (∃ action attempt job', event = .act action job attempt ∧
        (action.applyJob job).Touches job' ∧ store'.lookupJob id = some job') ∨
      (∃ change job', event = .edit change job ∧ (change.apply job).Touches job' ∧
        store'.lookupJob id = some job') ∨
      (event = .remove job ∧ store'.lookupJob id = none) := by
  have hjobId := hl.bound.job_id hjob
  -- The rewritten job is this one or another one.
  have hwrite : ∀ {written new : Record}, store.lookupJob written.id = some written →
      new.id = written.id →
      (∀ other, store'.lookupJob other = if other = new.id then some new
        else store.lookupJob other) →
      store'.lookupJob id = some job ∨ written = job ∧ store'.lookupJob id = some new := by
    intro written new hwritten hnew hlookup
    by_cases hsame : id = written.id
    · rw [hsame, hwritten] at hjob
      exact .inr ⟨Option.some.inj hjob, by rw [hlookup, hsame, if_pos hnew.symm]⟩
    · exact .inl (by rw [hlookup, hnew, if_neg hsame, hjob])
  cases event with
  | submit record =>
    have hne : id ≠ record.id := by
      rintro rfl
      rw [h.absent] at hjob
      exact absurd hjob (by simp)
    exact .inl (by rw [h.writes.jobs, if_neg hne, hjob])
  | reserve written attempt =>
    obtain ⟨job', htouches, -, hwrites⟩ := h.writes
    have hid : job'.id = written.id := by obtain ⟨_, _, rfl⟩ := htouches; rfl
    obtain hsame | ⟨rfl, hnew⟩ := hwrite h.found hid hwrites.jobs
    · exact .inl hsame
    · exact .inr (.inl ⟨attempt, job', rfl, htouches, hnew⟩)
  | act action written attempt =>
    obtain ⟨job', attempt', htouches, -, -, -, hid, -, hwrites⟩ := h.writes_keeps hl
    have hwritten : store.lookupJob written.id = some written := by
      rw [hl.bound.job_id h.foundJob, h.foundJob]
    obtain hsame | ⟨rfl, hnew⟩ := hwrite hwritten hid hwrites.jobs
    · exact .inl hsame
    · exact .inr (.inr (.inl ⟨action, attempt, job', rfl, htouches, hnew⟩))
  | edit change written =>
    obtain ⟨job', htouches, -, hwrites⟩ := h.writes
    have hid : job'.id = written.id := by
      obtain ⟨_, _, rfl⟩ := htouches
      exact (change.apply_columns written).1
    obtain hsame | ⟨rfl, hnew⟩ := hwrite h.found hid hwrites.jobs
    · exact .inl hsame
    · exact .inr (.inr (.inr (.inl ⟨change, job', rfl, htouches, hnew⟩)))
  | remove removed =>
    by_cases hsame : id = removed.id
    · rw [hsame, h.found] at hjob
      obtain rfl := Option.some.inj hjob
      exact .inr (.inr (.inr (.inr ⟨rfl, by rw [h.jobs, if_pos hsame]⟩)))
    · exact .inl (h.lookupJob_eq_some.mpr ⟨hjob, hsame⟩)

/-- Where a stored job comes from. It is queued only after its submission or a retry. -/
theorem job_of_changes (hl : store.Linked) (h : event.Changes store store') {job' : Record}
    (hjob' : store'.lookupJob id = some job') :
    event = .submit job' ∨ ∃ job, store.lookupJob id = some job ∧
      job'.subjectId = job.subjectId ∧ job'.projectId = job.projectId ∧
      job'.request = job.request ∧ (job'.state = .queued →
        job.state = .queued ∨ ∃ delegation, event = .edit (.retry delegation) job) := by
  cases hbefore : store.lookupJob id with
  | none => exact .inl (submit_of_changes hl h hbefore hjob').1
  | some job =>
    refine .inr ⟨job, rfl, ?_⟩
    obtain hkept | ⟨attempt, found, -, ⟨updatedAt, revision, rfl⟩, hnew⟩ |
      ⟨action, attempt, found, rfl, htouches, hnew⟩ |
      ⟨change, found, rfl, ⟨updatedAt, revision, rfl⟩, hnew⟩ | ⟨-, hnone⟩ :=
        lookupJob_of_changes hl h hbefore
    · obtain rfl := Option.some.inj (hkept.symm.trans hjob')
      exact ⟨rfl, rfl, rfl, .inl⟩
    · obtain rfl := Option.some.inj (hnew.symm.trans hjob')
      exact ⟨rfl, rfl, rfl, nofun⟩
    · obtain rfl := Option.some.inj (hnew.symm.trans hjob')
      have hkeeps := keepsJob_of_act ((hl.changes h).job hjob').1 htouches
      refine ⟨hkeeps.subject, hkeeps.project, hkeeps.request, fun hqueued => .inl ?_⟩
      obtain ⟨updatedAt, revision, rfl⟩ := htouches
      -- Executors do not report the state, and the controller does not decide it.
      cases action with
      | observe result =>
        by_cases hreleased : result.state ≠ .released
        · simp only [Action.applyJob, if_pos hreleased] at hqueued
          exact absurd hqueued result.reported.1
        · simpa only [Action.applyJob, if_neg hreleased] using hqueued
      | dispatch state reason =>
        have hlisted := (Acts.allowed h).1
        simp only [Action.applyJob] at hqueued
        simp [hqueued, transitions] at hlisted
      | renew lease => exact hqueued
      | abandon => exact hqueued
    · obtain rfl := Option.some.inj (hnew.symm.trans hjob')
      cases change with
      | cancel =>
        by_cases hqueued : job.state = .queued
        · simp [Edit.apply, hqueued]
        · simp [Edit.apply, hqueued]
      | retry delegation => exact ⟨rfl, rfl, rfl, fun _ => .inr ⟨delegation, rfl⟩⟩
      | pending reason => exact ⟨rfl, rfl, rfl, .inl⟩
    · rw [hnone] at hjob'
      exact absurd hjob' (by simp)

/-- Where a stored attempt comes from. It is abandoned only by that action. -/
theorem attempt_of_changes (hl : store.Linked) (h : event.Changes store store') {attempt' : Attempt}
    (hattempt' : store'.lookupAttempt id = some attempt') :
    (∃ job, event = .reserve job attempt') ∨ ∃ attempt, store.lookupAttempt id = some attempt ∧
      attempt'.nodeId = attempt.nodeId ∧ (attempt'.state = .abandoned →
        attempt.state = .abandoned ∨ ∃ job, event = .act .abandon job attempt) := by
  cases hbefore : store.lookupAttempt id with
  | none =>
    obtain ⟨job, hevent, -⟩ := reserve_of_changes hl h hbefore hattempt'
    exact .inl ⟨job, hevent⟩
  | some attempt =>
    refine .inr ⟨attempt, rfl, ?_⟩
    obtain hkept | ⟨action, job, found, rfl, htouches, hnew⟩ | ⟨job, -, -, hnone⟩ :=
      lookupAttempt_of_changes hl h hbefore
    · obtain rfl := Option.some.inj (hkept.symm.trans hattempt')
      exact ⟨rfl, .inl⟩
    · obtain rfl := Option.some.inj (hnew.symm.trans hattempt')
      have hkeeps := keepsAttempt_of_act ((hl.changes h).attempt hattempt') htouches
      refine ⟨hkeeps.node, fun habandoned => ?_⟩
      obtain ⟨updatedAt, rfl⟩ := htouches
      cases action with
      | observe result => exact absurd habandoned result.reported.2.2
      | dispatch state reason =>
        have hlisted := (Acts.allowed h).1
        simp only [Action.applyAttempt] at habandoned
        simp [habandoned, transitions] at hlisted
      | renew lease => exact .inl habandoned
      | abandon => exact .inr ⟨job, rfl⟩
    · rw [hnone] at hattempt'
      exact absurd hattempt' (by simp)

/-- An operation that returns leaves the records as they are or causes one event. -/
theorem changes_of_call (hl : store.Linked) {operation : Operation}
    (h : store.call operation = .ok store') :
    (SameRecords store store' ∧ (operation.administers = false → store' = store)) ∨
      ∃ event, operation.Causes event ∧ event.Changes store store' := by
  have hself : ∀ {other : Store}, other = store →
      SameRecords store other ∧ (operation.administers = false → other = store) := by
    rintro _ rfl
    exact ⟨⟨rfl, rfl⟩, fun _ => rfl⟩
  cases operation with
  | submit request key delegation id now =>
    obtain ⟨⟨record, next⟩, hsubmit, rfl⟩ := map_eq_ok.mp h
    obtain hsame | ⟨rfl, hsubmits⟩ := submit_eq_ok hl.bound hsubmit
    · exact .inl (hself hsame)
    · exact .inr ⟨.submit (submitted request key delegation id now), ⟨rfl, rfl⟩, hsubmits⟩
  | reserve plan lease installationId capacity ledgerId admissionVersion now =>
    obtain ⟨⟨attempt, next⟩, hreserve, rfl⟩ := map_eq_ok.mp h
    obtain ⟨job, -, hreserves⟩ := reserve_eq_ok hl.bound hreserve
    exact .inr ⟨.reserve job attempt, trivial, hreserves⟩
  | observation result nodeId installationId now =>
    obtain ⟨⟨attempt, next⟩, hobserve, rfl⟩ := map_eq_ok.mp h
    obtain ⟨attempt, -, -, -, ⟨-, -, hsame⟩ | ⟨job, hacts⟩⟩ := observation_eq_ok hl.bound hobserve
    · exact .inl (hself hsame)
    · exact .inr ⟨.act (.observe result) job attempt, rfl, hacts⟩
  | transition identity expected state reason now =>
    obtain ⟨⟨attempt, next⟩, htransition, rfl⟩ := map_eq_ok.mp h
    obtain ⟨job, attempt, -, -, -, hacts⟩ := transition_eq_ok hl.bound htransition
    exact .inr ⟨.act (.dispatch state reason) job attempt, trivial, hacts⟩
  | renew identity expiresAt now =>
    obtain ⟨⟨lease, next⟩, hrenew, rfl⟩ := map_eq_ok.mp h
    obtain ⟨job, attempt, -, -, -, hacts⟩ := renew_eq_ok hl.bound hrenew
    exact .inr ⟨.act (.renew lease) job attempt, trivial, hacts⟩
  | cancel identity revision now =>
    obtain ⟨⟨record, next⟩, hcancel, rfl⟩ := map_eq_ok.mp h
    obtain ⟨job, -, hedits⟩ := cancel_eq_ok hl.bound hcancel
    exact .inr ⟨.edit .cancel job, trivial, hedits⟩
  | retry identity revision delegation acknowledgeUnknown now =>
    obtain ⟨⟨record, next⟩, hretry, rfl⟩ := map_eq_ok.mp h
    obtain ⟨job, hid, hedits⟩ := retry_eq_ok hl.bound hretry
    exact .inr ⟨.edit (.retry delegation) job, hid, hedits⟩
  | pending identity reason now =>
    obtain ⟨⟨record, next⟩, hpending, rfl⟩ := map_eq_ok.mp h
    obtain hsame | ⟨job, -, hedits⟩ := pending_eq_ok hl.bound hpending
    · exact .inl (hself hsame)
    · exact .inr ⟨.edit (.pending reason) job, trivial, hedits⟩
  | abandon identity revision now =>
    obtain ⟨⟨record, next⟩, habandon, rfl⟩ := map_eq_ok.mp h
    obtain ⟨job, attempt, hjob, hattempt, hcurrent, hacts⟩ := abandon_eq_ok hl.bound habandon
    obtain ⟨owned, howned, hown, -⟩ := hl.current hjob attempt.id hcurrent
    obtain rfl := Option.some.inj (hattempt.symm.trans howned)
    exact .inr ⟨.act .abandon job attempt, trivial, hacts (by rw [hown, hjob])⟩
  | remove identity revision =>
    obtain ⟨job, -, hremoves⟩ := remove_eq_ok hl.bound h
    exact .inr ⟨.remove job, trivial, hremoves⟩
  | enroll identity project mode =>
    simp only [call, enroll, bind_eq_ok, raiseIf_eq_ok, exists_const, Except.ok.injEq] at h
    obtain ⟨-, -, rfl⟩ := h
    exact .inl ⟨⟨rfl, rfl⟩, nofun⟩
  | activate identity =>
    simp only [call, activate, bind_eq_ok, raiseIf_eq_ok, exists_const, Except.ok.injEq] at h
    obtain ⟨node, -, -, rfl⟩ := h
    exact .inl ⟨⟨rfl, rfl⟩, nofun⟩
  | disable identity revision project =>
    simp only [call, disable, bind_eq_ok, raiseIf_eq_ok, exists_const, Except.ok.injEq] at h
    obtain ⟨node, -, -, -, rfl⟩ := h
    exact .inl ⟨⟨rfl, rfl⟩, nofun⟩
  | removeContributor identity revision project =>
    simp only [call, removeContributor, bind_eq_ok, raiseIf_eq_ok, exists_const,
      Except.ok.injEq] at h
    obtain ⟨node, -, -, -, -, rfl⟩ := h
    exact .inl ⟨⟨rfl, rfl⟩, nofun⟩
  | saveNode snapshot now =>
    simp only [call, saveNode, bind_eq_ok, Except.ok.injEq] at h
    obtain ⟨-, -, -, -, rfl⟩ := h
    exact .inl ⟨⟨rfl, rfl⟩, nofun⟩
  | govern projects identities policyRevision managed =>
    obtain rfl := Except.ok.inj h
    exact .inl ⟨⟨rfl, rfl⟩, nofun⟩

theorem changes_step (hl : store.Linked) (operation : Operation) :
    SameRecords store (store.step operation) ∨
      ∃ event, operation.Causes event ∧ event.Changes store (store.step operation) := by
  unfold step
  cases hcall : store.call operation with
  | ok next => exact (changes_of_call hl hcall).imp_left And.left
  | error e => exact .inl ⟨rfl, rfl⟩

theorem linked_step (hl : store.Linked) (operation : Operation) :
    (store.step operation).Linked := by
  obtain hsame | ⟨event, -, hchanges⟩ := changes_step hl operation
  · exact hl.same hsame
  · exact hl.changes hchanges

theorem linked_initial (projects identities : List Identity)
    (contributors : Table Identity Contributor) (policyRevision : ℕ) (managed : List String) :
    (initial projects identities contributors policyRevision managed).Linked := by
  constructor <;> simp [initial, lookupJob, lookupAttempt]
  exact ⟨by simp, by simp⟩

end Store

end Ficc.Workloads
