import Ficc.Jobs.Runs
import Ficc.System.Cleanup

/-!
# Devices of the two job systems

The controller runs managed jobs over SSH and workloads of contributors, and both may reserve the
same devices. Each of them asks, in the transaction of its reservation, whether the devices are
free in both tables. A managed job reserves its devices until it is final, and an attempt holds its
devices until it is released or abandoned, or its cleanup is confirmed.

An attempt that does not hold its devices never holds them again. For a confirmed cleanup this
needs that the reports are those of the executors and arrive in order.
-/

namespace Ficc

open Execution Workloads
open Jobs (JobStore JobRequest)

/-- The attempt holds its devices. -/
def Workloads.Attempt.Holds (attempt : Attempt) : Prop :=
  attempt.state ≠ .released ∧ attempt.state ≠ .abandoned ∧
    ∀ observed ∈ attempt.observed, observed.cleanupConfirmed = false

/-- The devices of an attempt. -/
def Workloads.Attempt.devices (attempt : Attempt) : List String :=
  attempt.plan.job.limits.gpuDevices

variable [Hash Plan]

/-- The controller with the managed jobs and the contributors. -/
structure Controller where
  system : System
  jobs : Jobs.Machine

namespace Controller

/-- A step of one of the job systems. -/
inductive Action
  | workloads (action : System.Action)
  | jobs (action : Jobs.Machine.Step)

/-- The records of the workloads together with the devices that managed jobs reserve now. -/
def view (s : Controller) : System :=
  { s.system with store := { s.system.store with managed := s.jobs.store.managed } }

section Steps

variable [Hash Submission] [Hash JobRequest] [Hash (Jobs.Job × Identity)]

/-- One step. Reports about an attempt do not overtake each other. -/
def step (s : Controller) : Action → Controller
  | .workloads action => if s.view.InOrder action then { s with system := s.view.step action } else s
  | .jobs (.submit previewId key actor now operationId jobId admittance) =>
    { s with
      jobs := s.jobs.step (.submit previewId key actor now operationId jobId
        { admittance with requireFree := s.view.store.requireFree }) }
  | .jobs action => { s with jobs := s.jobs.step action }

omit [Hash Submission] [Hash JobRequest] [Hash (Jobs.Job × Identity)] in
/-- A controller without jobs. -/
def initial (controllerId : Identity) (projects identities : List Identity)
    (contributors : Table Identity Contributor) (policyRevision : ℕ) : Controller :=
  { system := .initial projects identities contributors policyRevision []
    jobs := .initial controllerId }

end Steps

omit [Hash Plan] in
/-- The devices that managed jobs reserve. -/
theorem mem_managed {store : JobStore} {device : String} :
    device ∈ store.managed ↔ ∃ operationId nodeId target,
      store.target operationId nodeId = some target ∧ target.state ∉ Jobs.TERMINAL ∧
        device ∈ JobStore.devices target := by
  simp only [JobStore.managed, List.mem_flatMap, List.mem_filter, decide_eq_true_eq]
  constructor
  · rintro ⟨operation, hoperation, target, ⟨htarget, hopen⟩, hdevice⟩
    obtain ⟨operationId, hlookup⟩ := Table.mem_values.mp hoperation
    obtain ⟨nodeId, hkey⟩ := Table.mem_values.mp htarget
    refine ⟨operationId, nodeId, target, ?_, hopen, hdevice⟩
    rw [JobStore.target, hlookup, Option.bind_some, hkey]
  · rintro ⟨operationId, nodeId, target, hfound, hopen, hdevice⟩
    obtain ⟨operation, hoperation, htarget⟩ := Option.bind_eq_some_iff.mp hfound
    exact ⟨operation, Table.mem_values.mpr ⟨operationId, hoperation⟩, target,
      ⟨Table.mem_values.mpr ⟨nodeId, htarget⟩, hopen⟩, hdevice⟩

omit [Hash Plan] in
/-- What is free is neither reserved by a managed job nor held by an attempt. -/
theorem free_of_requireFree {store : Store} {devices : List String}
    (h : store.requireFree devices = .ok ()) {device : String} (hdevice : device ∈ devices) :
    device ∉ store.managed ∧ ∀ {id : Identity} {attempt : Attempt},
      store.lookupAttempt id = some attempt → attempt.Holds → device ∉ attempt.devices := by
  simp only [Store.requireFree, bind_eq_ok, raiseIf_eq_ok, exists_const, not_exists, not_and] at h
  refine ⟨h.1 device hdevice, fun {id attempt} hattempt hholds => ?_⟩
  exact h.2 attempt (Store.mem_allAttempts.mpr ⟨id, hattempt⟩) hholds.1 hholds.2.2 device hdevice

section Invariant

/-- No device is reserved twice. -/
structure Disjoint (s : Controller) : Prop where
  managed : ∀ {id : Identity} {attempt : Attempt}, s.system.store.lookupAttempt id = some attempt →
    attempt.Holds → ∀ device ∈ attempt.devices, device ∉ s.jobs.store.managed
  attempts : ∀ {id id' : Identity} {attempt attempt' : Attempt},
    s.system.store.lookupAttempt id = some attempt →
    s.system.store.lookupAttempt id' = some attempt' → id' ≠ id → attempt.Holds → attempt'.Holds →
    ∀ device ∈ attempt.devices, device ∉ attempt'.devices

/-- What holds of both job systems. -/
structure Regular [Hash Submission] (s : Controller) : Prop where
  sound : s.system.Sound
  traced : s.system.Traced
  attested : s.system.Attested
  ordered : s.system.Ordered
  orderly : s.jobs.Orderly
  disjoint : s.Disjoint

variable {s : Controller}

/-- The view has the same records. -/
theorem view_change [Hash Submission] (s : Controller) : System.Change False s.system s.view :=
  .administer ⟨rfl, rfl⟩

/-- An attempt that holds its devices after a step has held them before it. -/
theorem holds_of_resumes {system : System} (ho : system.Ordered) {action : System.Action}
    {id : Identity} {attempt attempt' : Attempt}
    (hattempt : system.store.lookupAttempt id = some attempt)
    (h : System.Resumes (fun _ => False) attempt attempt' ∨ ∃ index snapshot now report,
      action = .receive index snapshot now ∧ system.reports[index]? = some report ∧
        System.Resumes (fun confirmed => confirmed = report.cleanupConfirmed ∧
          report.attemptId = id) attempt attempt')
    (hholds : attempt'.Holds) : attempt.Holds ∧ attempt.devices = attempt'.devices := by
  obtain ⟨confirms, hresumes, hconfirms⟩ : ∃ confirms : Bool → Prop,
      System.Resumes confirms attempt attempt' ∧ ∀ observed, attempt.observed = some observed →
        observed.cleanupConfirmed = true → ∀ confirmed, confirms confirmed → confirmed = true := by
    obtain hresumes | ⟨index, snapshot, now, report, -, hreport, hresumes⟩ := h
    · exact ⟨_, hresumes, fun _ _ _ _ hfalse => hfalse.elim⟩
    · refine ⟨_, hresumes, ?_⟩
      rintro observed hobserved hcleanup confirmed ⟨rfl, hid⟩
      exact ho.current hattempt hobserved hcleanup report (List.mem_of_getElem? hreport) hid
  refine ⟨?_, by rw [Attempt.devices, Attempt.devices, hresumes.plan]⟩
  -- A retired attempt stays as it is, so that it would not hold its devices after the step.
  have hopen : ¬Store.Retired attempt := by
    intro hretired
    rw [hresumes.retired hretired] at hholds
    exact hretired.elim hholds.1 hholds.2.1
  refine ⟨fun hreleased => hopen (.inl hreleased), fun habandoned => hopen (.inr habandoned), ?_⟩
  intro observed hobserved
  by_contra hcleanup
  have hconfirmed : observed.cleanupConfirmed = true := by simpa using hcleanup
  obtain hsame | ⟨result, hresult, hresultConfirms⟩ := hresumes.observed
  · exact hcleanup (hholds.2.2 observed (hsame ▸ hobserved))
  · have hfalse := hholds.2.2 result hresult
    rw [hconfirms observed hobserved hconfirmed _ hresultConfirms] at hfalse
    cases hfalse

omit [Hash Plan] in
/-- The targets of a request reserve the devices that the submission asks for. -/
theorem managed_of_inserts {store store' : JobStore} {operationId : Identity}
    {request : JobRequest} {jobId : Identity → Identity}
    (h : Jobs.Inserts store operationId request jobId store') {device : String}
    (hdevice : device ∈ store'.managed) :
    device ∈ store.managed ∨
      device ∈ (Table.values (request.targets jobId)).flatMap JobStore.devices := by
  obtain ⟨other, nodeId, target, hfound, hopen, hmem⟩ := mem_managed.mp hdevice
  obtain hold | ⟨-, hnode, rfl⟩ := h.cases hfound
  · exact .inl (mem_managed.mpr ⟨other, nodeId, target, hold, hopen, hmem⟩)
  · refine .inr (List.mem_flatMap.mpr ⟨_, Table.mem_values.mpr ⟨nodeId, ?_⟩, hmem⟩)
    rw [Jobs.lookup_targets, if_pos hnode]

omit [Hash Plan] in
/-- A target that has moved reserves what it reserved before. -/
theorem managed_of_evolves {store store' : JobStore} (h : store.Evolves store') {device : String}
    (hdevice : device ∈ store'.managed) : device ∈ store.managed := by
  obtain ⟨operationId, nodeId, target', hfound', hopen', hmem⟩ := mem_managed.mp hdevice
  obtain ⟨target, hfound, hmoves⟩ := h.back hfound'
  refine mem_managed.mpr ⟨operationId, nodeId, target, hfound, ?_, ?_⟩
  · exact fun hterminal => hopen' (hmoves.terminal hterminal ▸ hterminal)
  · rw [JobStore.devices, ← hmoves.reservations]
    exact hmem

section Steps

variable [Hash Submission]

theorem Disjoint.workloads (hr : s.Regular) {action : System.Action}
    (hsound : s.view.Sound) (hordered : s.view.Ordered) :
    Disjoint { s with system := s.view.step action } where
  managed {id attempt'} hattempt' hholds' device hdevice := by
    obtain ⟨attempt, hattempt, hresumes⟩ | ⟨-, -, hfree⟩ :=
      System.attempt_of_step hsound action hattempt'
    · obtain ⟨hholds, hsame⟩ := holds_of_resumes hordered hattempt hresumes hholds'
      exact hr.disjoint.managed hattempt hholds device (hsame ▸ hdevice)
    · exact (free_of_requireFree hfree hdevice).1
  attempts {id id' attempt attempt'} hattempt hattempt' hne hholds hholds' device hdevice := by
    obtain ⟨before, hbefore, hresumes⟩ | ⟨hnone, -, hfree⟩ :=
      System.attempt_of_step hsound action hattempt <;>
    obtain ⟨before', hbefore', hresumes'⟩ | ⟨hnone', -, hfree'⟩ :=
      System.attempt_of_step hsound action hattempt'
    · obtain ⟨hold, hsame⟩ := holds_of_resumes hordered hbefore hresumes hholds
      obtain ⟨hold', hsame'⟩ := holds_of_resumes hordered hbefore' hresumes' hholds'
      rw [← hsame']
      exact hr.disjoint.attempts hbefore hbefore' hne hold hold' device (hsame ▸ hdevice)
    · -- The second attempt is new, and its devices were free.
      obtain ⟨hold, hsame⟩ := holds_of_resumes hordered hbefore hresumes hholds
      intro hmem
      exact (free_of_requireFree hfree' hmem).2 hbefore hold (hsame ▸ hdevice)
    · obtain ⟨hold', hsame'⟩ := holds_of_resumes hordered hbefore' hresumes' hholds'
      rw [← hsame']
      exact (free_of_requireFree hfree hdevice).2 hbefore' hold'
    · exact absurd (System.new_attempt_unique hsound action hnone hnone' hattempt hattempt') hne

theorem Regular.workloads (hr : s.Regular) {action : System.Action}
    (hin : s.view.InOrder action) : Regular { s with system := s.view.step action } := by
  have hview := view_change s
  have hsound : s.view.Sound := hr.sound.change hview
  have htraced : s.view.Traced := hr.traced.change hr.sound hview
  have hattested : s.view.Attested := hr.attested.change hr.sound hr.traced hview
  have hordered : s.view.Ordered := ⟨hr.ordered.pairwise, hr.ordered.current⟩
  obtain ⟨htraced', hattested'⟩ : (s.view.step action).Traced ∧ (s.view.step action).Attested := by
    have hchanges : System.Changes False s.view (s.view.step action) :=
      System.changes_step hsound action nofun
    have hkept := hchanges.invariant (I := fun s => s.Sound ∧ s.Traced ∧ s.Attested)
      (fun h hchange => ⟨h.1.change hchange, h.2.1.change h.1 hchange,
        h.2.2.change h.1 h.2.1 hchange⟩) ⟨hsound, htraced, hattested⟩
    exact hkept.2
  exact {
    sound := hsound.step action
    traced := htraced'
    attested := hattested'
    ordered := hordered.step hsound htraced hattested hin
    orderly := hr.orderly
    disjoint := .workloads hr hsound hordered }

variable [Hash JobRequest] [Hash (Jobs.Job × Identity)]

theorem Regular.step (hr : s.Regular) (action : Action) : (s.step action).Regular := by
  -- A step of the managed jobs keeps the records of the workloads.
  have hjobs {jobs' : Jobs.Machine} (horderly : jobs'.Orderly)
      (hmanaged : ∀ device ∈ jobs'.store.managed, device ∈ s.jobs.store.managed ∨
        ∀ {id : Identity} {attempt : Attempt}, s.system.store.lookupAttempt id = some attempt →
          attempt.Holds → device ∉ attempt.devices) :
      Regular { s with jobs := jobs' } := by
    refine ⟨hr.sound, hr.traced, hr.attested, hr.ordered, horderly, ⟨?_, hr.disjoint.attempts⟩⟩
    intro id attempt hattempt hholds device hdevice hreserved
    obtain hbefore | hfree := hmanaged device hreserved
    · exact hr.disjoint.managed hattempt hholds device hdevice hbefore
    · exact hfree hattempt hholds hdevice
  cases action with
  | workloads action =>
    by_cases hin : s.view.InOrder action
    · rw [Controller.step, if_pos hin]
      exact hr.workloads hin
    · rw [Controller.step, if_neg hin]
      exact hr
  | jobs action =>
    by_cases hsubmit : ∃ previewId key actor now operationId jobId admittance,
        action = .submit previewId key actor now operationId jobId admittance
    · obtain ⟨previewId, key, actor, now, operationId, jobId, admittance, rfl⟩ := hsubmit
      obtain ⟨horderly, hcases⟩ := Jobs.Machine.submit_spec hr.orderly previewId key actor now
        operationId jobId { admittance with requireFree := s.view.store.requireFree }
      refine hjobs horderly fun device hdevice => ?_
      obtain hsame | ⟨request, hinserts, hfree⟩ := hcases
      · exact .inl (hsame ▸ hdevice)
      obtain hold | hnew := managed_of_inserts hinserts hdevice
      · exact .inl hold
      · exact .inr (free_of_requireFree hfree hnew).2
    · have hother : ∀ previewId key actor now operationId jobId admittance,
          action ≠ .submit previewId key actor now operationId jobId admittance :=
        fun previewId key actor now operationId jobId admittance heq =>
          hsubmit ⟨previewId, key, actor, now, operationId, jobId, admittance, heq⟩
      obtain ⟨horderly, hevolves⟩ := Jobs.Machine.safe_step hr.orderly hother
      have hstep : s.step (.jobs action) = { s with jobs := s.jobs.step action } := by
        cases action with
        | submit previewId key actor now operationId jobId admittance =>
          exact absurd rfl (hother previewId key actor now operationId jobId admittance)
        | _ => rfl
      rw [hstep]
      exact hjobs horderly fun device hdevice => .inl (managed_of_evolves hevolves hdevice)

end Steps

theorem regular_initial [Hash Submission] (controllerId : Identity)
    (projects identities : List Identity) (contributors : Table Identity Contributor)
    (policyRevision : ℕ) :
    (initial controllerId projects identities contributors policyRevision).Regular := by
  have hnone (id : Identity) : (System.initial projects identities contributors policyRevision
      []).store.lookupAttempt id = none := by
    simp [System.initial, Store.initial, Store.lookupAttempt]
  refine ⟨System.sound_initial _ _ _ _ _, System.traced_initial _ _ _ _ _, ⟨?_, ?_, ?_⟩,
    ⟨List.Pairwise.nil, ?_⟩, Jobs.Machine.orderly_initial controllerId, ⟨?_, ?_⟩⟩
  · intro ledger executor hlookup
    simp [initial, System.initial] at hlookup
  · intro report hreport
    exact absurd hreport List.not_mem_nil
  · intro id attempt observed hattempt
    exact absurd ((hnone id).symm.trans hattempt) (by simp)
  · intro id attempt observed hattempt
    exact absurd ((hnone id).symm.trans hattempt) (by simp)
  · intro id attempt hattempt
    exact absurd ((hnone id).symm.trans hattempt) (by simp)
  · intro id id' attempt attempt' hattempt
    exact absurd ((hnone id).symm.trans hattempt) (by simp)

variable [Hash Submission] [Hash JobRequest] [Hash (Jobs.Job × Identity)]

/-- In every run of the two job systems, no device is reserved by a managed job that is not final
and held by an attempt at the same time, and no two attempts hold the same device. -/
theorem devices_exclusive (controllerId : Identity) (projects identities : List Identity)
    (contributors : Table Identity Contributor) (policyRevision : ℕ) (actions : List Action) :
    let s := run step (initial controllerId projects identities contributors policyRevision) actions
    (∀ operationId nodeId target id attempt device,
      s.jobs.store.target operationId nodeId = some target → target.state ∉ Jobs.TERMINAL →
      s.system.store.lookupAttempt id = some attempt → attempt.Holds →
      ¬(device ∈ JobStore.devices target ∧ device ∈ attempt.devices)) ∧
    ∀ id id' attempt attempt' device, s.system.store.lookupAttempt id = some attempt →
      s.system.store.lookupAttempt id' = some attempt' → id' ≠ id → attempt.Holds →
      attempt'.Holds → ¬(device ∈ attempt.devices ∧ device ∈ attempt'.devices) := by
  intro s
  have hr : s.Regular := run_invariant (I := Regular) (fun _ action h => h.step action)
    (regular_initial controllerId projects identities contributors policyRevision) actions
  constructor
  · rintro operationId nodeId target id attempt device hfound hopen hattempt hholds ⟨hmem, hdevice⟩
    exact hr.disjoint.managed hattempt hholds device hdevice
      (mem_managed.mpr ⟨operationId, nodeId, target, hfound, hopen, hmem⟩)
  · rintro id id' attempt attempt' device hattempt hattempt' hne hholds hholds' ⟨hmem, hmem'⟩
    exact hr.disjoint.attempts hattempt hattempt' hne hholds hholds' device hmem hmem'

end Invariant

end Controller

end Ficc
