import Ficc.Workloads.Records

/-!
# The fair scheduler

The scheduler selects queued jobs under two limits, one on all active attempts and one on those of
a project. It serves the projects in turn, starting after the project that it served last, and the
jobs of a project in the order of their creation. The controller calls it through
`Provider.select`, which validates the answer.

`selected_select` says what an answer can be: distinct pending jobs, as many as both limits leave
room for.
-/

namespace Ficc.Workloads

open Execution

/-- A queued job of a scheduling request. -/
structure PendingItem where
  id : Identity
  projectId : Identity
  createdAt : ℚ
deriving DecidableEq

/-- An attempt of a scheduling request that holds a reservation. -/
structure ActiveItem where
  id : Identity
  jobId : Identity
  projectId : Identity
deriving DecidableEq

/-- A scheduling request. -/
structure SchedulingRequest where
  version : ℕ
  pending : List PendingItem
  active : List ActiveItem

/-- The jobs of a project that has some. -/
structure Queue where
  next : Identity
  later : List Identity

namespace Queue

/-- All jobs of the queue. -/
def all (queue : Queue) : List Identity := queue.next :: queue.later

/-- The queue with one more job. -/
def append (queue : Queue) (id : Identity) : Queue := { queue with later := queue.later ++ [id] }

/-- The queue after its first job is taken, unless that was the last one. -/
def rest (queue : Queue) : Option Queue :=
  match queue.later with
  | [] => none
  | next :: later => some ⟨next, later⟩

theorem elim_all_rest (queue : Queue) : queue.rest.elim [] all = queue.later := by
  obtain ⟨next, later⟩ := queue
  cases later <;> rfl

end Queue

/-- The scheduler with its validated limits. -/
structure Scheduler where
  globalActive : ℕ
  projectActive : ℕ
  lastProject : Option Identity
  global_le : globalActive ≤ 8192
  project_pos : 1 ≤ projectActive
  project_le : projectActive ≤ globalActive

namespace Scheduler

theorem one_le_limit : 1 ≤ 8192 := by decide

/-- A scheduler for the configured limits. -/
def create (globalActive projectActive : ℕ) : Except Error Scheduler :=
  if h : (1 ≤ globalActive ∧ globalActive ≤ 8192) ∧ 1 ≤ projectActive ∧ projectActive ≤ 8192 then
    if hle : projectActive ≤ globalActive then
      .ok ⟨globalActive, projectActive, none, h.1.2, h.2.1, hle⟩
    else .error (.value "The project concurrency cannot exceed the global concurrency.")
  else .error (.value "Scheduling concurrency must be an integer from one to 8192.")

/-- The order of the jobs of a project. -/
def Precedes (first second : PendingItem) : Prop :=
  first.createdAt < second.createdAt ∨
    first.createdAt = second.createdAt ∧ first.id ≤ second.id

instance : DecidableRel Precedes := fun _ _ => inferInstanceAs (Decidable (_ ∨ _))

/-- Puts a job at the end of the queue of its project. -/
def enqueue (queues : Table Identity Queue) (job : PendingItem) : Table Identity Queue :=
  match queues.lookup job.projectId with
  | none => queues.insert job.projectId ⟨job.id, []⟩
  | some queue => queues.insert job.projectId (queue.append job.id)

/-- The queues of all projects. -/
def queues (pending : List PendingItem) : Table Identity Queue :=
  (pending.insertionSort Precedes).foldl enqueue ∅

/-- The projects in the order in which they are served. -/
def projects (lastProject : Option Identity) (queues : Table Identity Queue) : List Identity :=
  let projects := queues.keys.insertionSort (· ≤ ·)
  match lastProject with
  | none => projects
  | some last => projects.filter (last < ·) ++ projects.filter (· ≤ last)

/-- The projects that wait to be served, each with its queue. -/
def ready (lastProject : Option Identity) (queues : Table Identity Queue) :
    List (Identity × Queue) :=
  (projects lastProject queues).filterMap fun project =>
    (queues.lookup project).map fun queue => (project, queue)

/-- Serves the ready projects until the capacity is used up. A project at its limit is dropped,
and one that has been served goes to the end. Returns the chosen jobs and the last project. -/
def choose (projectActive capacity : ℕ) (active : Identity → ℕ) (lastProject : Option Identity)
    (chosen : List Identity) : List (Identity × Queue) → List Identity × Option Identity
  | [] => (chosen, lastProject)
  | (project, queue) :: ready =>
    if chosen.length < capacity then
      if projectActive ≤ active project then
        choose projectActive capacity active lastProject chosen ready
      else
        choose projectActive capacity (Function.update active project (active project + 1))
          (some project) (chosen ++ [queue.next])
          (ready ++ (queue.rest.map fun queue => (project, queue)).toList)
    else (chosen, lastProject)
termination_by ready => (ready.map fun entry => entry.2.all.length + 1).sum
decreasing_by
  · simp [Queue.all]
  · obtain ⟨next, later⟩ := queue
    cases later <;> simp [Queue.rest, Queue.all]
    omega

/-- The attempts of a project. -/
def activeOf (active : List ActiveItem) (project : Identity) : ℕ :=
  active.countP fun item => item.projectId = project

/-- How many jobs a request may start. -/
def capacity (s : Scheduler) (request : SchedulingRequest) : ℕ :=
  min 64 (s.globalActive - request.active.length)

/-- Selects jobs of a request. -/
def select (s : Scheduler) (request : SchedulingRequest) :
    Except Error (List Identity × Scheduler) := do
  raiseIf (request.version ≠ 1) (.value "The scheduling request is invalid.")
  let (chosen, lastProject) := choose s.projectActive (s.capacity request)
    (activeOf request.active) s.lastProject [] (ready s.lastProject (queues request.pending))
  .ok (chosen, { s with lastProject })

section Choosing

variable {limit capacity : ℕ} {base active : Identity → ℕ} {owner : Identity → Identity}
  {given chosen : List Identity} {ready : List (Identity × Queue)}

/-- The jobs that the ready projects have left. -/
def left (ready : List (Identity × Queue)) : List Identity := ready.flatMap fun entry => entry.2.all

/-- What holds while projects are served: nothing is chosen twice, and the attempts of a project
are counted together with its chosen jobs. -/
structure Choosing (limit capacity : ℕ) (base : Identity → ℕ) (owner : Identity → Identity)
    (given : List Identity) (active : Identity → ℕ) (chosen : List Identity)
    (ready : List (Identity × Queue)) : Prop where
  distinct : (chosen ++ left ready).Nodup
  listed : chosen ++ left ready ⊆ given
  owned : ∀ entry ∈ ready, ∀ id ∈ entry.2.all, owner id = entry.1
  length : chosen.length ≤ capacity
  counted : ∀ project,
    active project = base project + chosen.countP fun id => owner id = project
  bounded : ∀ project, active project ≤ max limit (base project)

/-- Distinct given jobs, within the capacity and the limit of every project. -/
structure Selects (limit capacity : ℕ) (base : Identity → ℕ) (owner : Identity → Identity)
    (given chosen : List Identity) : Prop where
  distinct : chosen.Nodup
  listed : chosen ⊆ given
  length : chosen.length ≤ capacity
  bounded : ∀ project,
    base project + (chosen.countP fun id => owner id = project) ≤ max limit (base project)

theorem Choosing.selects (h : Choosing limit capacity base owner given active chosen ready) :
    Selects limit capacity base owner given chosen where
  distinct := (List.nodup_append.mp h.distinct).1
  listed := fun _ hid => h.listed (List.mem_append_left _ hid)
  length := h.length
  bounded project := h.counted project ▸ h.bounded project

/-- A project is dropped. -/
theorem Choosing.skip {entry : Identity × Queue}
    (h : Choosing limit capacity base owner given active chosen (entry :: ready)) :
    Choosing limit capacity base owner given active chosen ready := by
  have hsublist : (chosen ++ left ready).Sublist (chosen ++ left (entry :: ready)) :=
    (List.sublist_append_right _ _).append_left chosen
  exact ⟨h.distinct.sublist hsublist, fun _ hid => h.listed (hsublist.subset hid),
    fun _ hentry => h.owned _ (List.mem_cons_of_mem _ hentry), h.length, h.counted, h.bounded⟩

/-- A project below its limit is served. -/
theorem Choosing.take {project : Identity} {queue : Queue}
    (h : Choosing limit capacity base owner given active chosen ((project, queue) :: ready))
    (hroom : chosen.length < capacity) (hlimit : active project < limit) :
    Choosing limit capacity base owner given
      (Function.update active project (active project + 1)) (chosen ++ [queue.next])
      (ready ++ (queue.rest.map fun queue => (project, queue)).toList) := by
  have hleft : left (ready ++ (queue.rest.map fun queue => (project, queue)).toList) =
      left ready ++ queue.later := by
    rw [← queue.elim_all_rest]
    cases queue.rest <;> simp [left]
  have hperm : (chosen ++ left ((project, queue) :: ready)).Perm
      (chosen ++ [queue.next] ++ (left ready ++ queue.later)) := by
    rw [List.append_assoc]
    refine List.Perm.append_left chosen ?_
    exact (List.perm_append_comm : (queue.later ++ left ready).Perm _).cons queue.next
  have howner : owner queue.next = project :=
    h.owned (project, queue) List.mem_cons_self queue.next List.mem_cons_self
  constructor
  · rw [hleft]
    exact hperm.nodup_iff.mp h.distinct
  · rw [hleft]
    exact fun _ hid => h.listed (hperm.mem_iff.mpr hid)
  · intro entry hentry id hid
    obtain hold | hnew := List.mem_append.mp hentry
    · exact h.owned entry (List.mem_cons_of_mem _ hold) id hid
    · -- The rest of the queue belongs to the same project.
      obtain ⟨tail, htail, rfl⟩ : ∃ tail, queue.rest = some tail ∧ (project, tail) = entry := by
        simpa using hnew
      have hlater : id ∈ queue.later := by
        rw [← queue.elim_all_rest, htail]
        exact hid
      exact h.owned (project, queue) List.mem_cons_self id (List.mem_cons_of_mem _ hlater)
  · rw [List.length_append, List.length_singleton]
    exact hroom
  · intro other
    rw [List.countP_append, List.countP_singleton, howner]
    by_cases hsame : project = other
    · subst hsame
      rw [Function.update_self, h.counted project]
      simp [Nat.add_assoc]
    · rw [Function.update_of_ne (Ne.symm hsame), h.counted other]
      simp [hsame]
  · intro other
    by_cases hsame : other = project
    · subst hsame
      rw [Function.update_self]
      exact le_max_of_le_left hlimit
    · rw [Function.update_of_ne hsame]
      exact h.bounded other

/-- The loop chooses jobs within the limits. -/
theorem selects_choose (lastProject : Option Identity)
    (h : Choosing limit capacity base owner given active chosen ready) :
    Selects limit capacity base owner given
      (choose limit capacity active lastProject chosen ready).1 := by
  induction active, lastProject, chosen, ready using choose.induct limit capacity with
  | case1 active last chosen =>
    rw [choose]
    exact h.selects
  | case2 active last chosen project queue ready hroom hfull ih =>
    rw [choose, if_pos hroom, if_pos hfull]
    exact ih h.skip
  | case3 active last chosen project queue ready hroom hfree ih =>
    rw [choose, if_pos hroom, if_neg hfree]
    exact ih (h.take hroom (not_le.mp hfree))
  | case4 active last chosen project queue ready hfull =>
    rw [choose, if_neg hfull]
    exact h.selects

end Choosing

section Queues

/-- The jobs in the queue of a project. -/
def content (queues : Table Identity Queue) (project : Identity) : List Identity :=
  (queues.lookup project).elim [] Queue.all

/-- The jobs of a project. -/
def jobsOf (pending : List PendingItem) (project : Identity) : List Identity :=
  (pending.filter fun job => job.projectId = project).map PendingItem.id

theorem content_enqueue (queues : Table Identity Queue) (job : PendingItem) (project : Identity) :
    content (enqueue queues job) project = content queues project ++ jobsOf [job] project := by
  unfold content enqueue
  by_cases hsame : job.projectId = project
  · subst hsame
    cases hlookup : queues.lookup job.projectId with
    | none => simp [jobsOf, Queue.all]
    | some queue => simp [jobsOf, Queue.all, Queue.append]
  · have hnone : jobsOf [job] project = [] := by simp [jobsOf, hsame]
    rw [hnone, List.append_nil]
    cases hlookup : queues.lookup job.projectId with
    | none => rw [AList.lookup_insert_ne (Ne.symm hsame)]
    | some queue => rw [AList.lookup_insert_ne (Ne.symm hsame)]

theorem content_foldl_enqueue (pending : List PendingItem) (queues : Table Identity Queue)
    (project : Identity) :
    content (pending.foldl enqueue queues) project =
      content queues project ++ jobsOf pending project := by
  induction pending generalizing queues with
  | nil => simp [jobsOf]
  | cons job pending ih =>
    have hsplit : jobsOf (job :: pending) project = jobsOf [job] project ++ jobsOf pending project := by
      rw [← List.singleton_append, jobsOf, List.filter_append, List.map_append]
      rfl
    rw [List.foldl_cons, ih, content_enqueue, List.append_assoc, hsplit]

/-- The queue of a project has the jobs of the project. -/
theorem content_queues_perm (pending : List PendingItem) (project : Identity) :
    (content (queues pending) project).Perm (jobsOf pending project) := by
  have hempty : content ∅ project = [] := rfl
  rw [queues, content_foldl_enqueue, hempty, List.nil_append]
  exact ((List.perm_insertionSort Precedes pending).filter _).map _

theorem nodup_projects (lastProject : Option Identity) (queues : Table Identity Queue) :
    (projects lastProject queues).Nodup := by
  have hsorted : (queues.keys.insertionSort (· ≤ ·)).Nodup :=
    (List.perm_insertionSort _ _).nodup_iff.mpr queues.keys_nodup
  unfold projects
  cases lastProject with
  | none => exact hsorted
  | some last =>
    refine (hsorted.filter _).append (hsorted.filter _) ?_
    intro project hafter hupto
    have hlt : last < project := by simpa using (List.mem_filter.mp hafter).2
    have hle : project ≤ last := by simpa using (List.mem_filter.mp hupto).2
    exact BitVec.not_lt.mpr hle hlt

theorem mem_ready {lastProject : Option Identity} {queues : Table Identity Queue}
    {entry : Identity × Queue} (h : entry ∈ ready lastProject queues) :
    queues.lookup entry.1 = some entry.2 := by
  obtain ⟨project, -, hentry⟩ := List.mem_filterMap.mp h
  obtain ⟨queue, hqueue, rfl⟩ := Option.map_eq_some_iff.mp hentry
  exact hqueue

theorem left_ready (lastProject : Option Identity) (queues : Table Identity Queue) :
    left (ready lastProject queues) = (projects lastProject queues).flatMap (content queues) := by
  unfold left ready
  induction projects lastProject queues with
  | nil => rfl
  | cons project projects ih =>
    rw [List.flatMap_cons, ← ih, List.filterMap_cons]
    unfold content
    cases queues.lookup project <;> rfl

/-- The ready projects wait with the pending jobs, each once. -/
theorem choosing_ready {limit capacity : ℕ} {base : Identity → ℕ} {owner : Identity → Identity}
    (lastProject : Option Identity) {pending : List PendingItem}
    (hdistinct : (pending.map PendingItem.id).Nodup)
    (howner : ∀ job ∈ pending, owner job.id = job.projectId) :
    Choosing limit capacity base owner (pending.map PendingItem.id) base []
      (ready lastProject (queues pending)) := by
  have hcontent : ∀ {project id : Identity}, id ∈ content (queues pending) project →
      ∃ job ∈ pending, job.projectId = project ∧ job.id = id := by
    intro project id hid
    obtain ⟨job, hjob, rfl⟩ := List.mem_map.mp ((content_queues_perm pending project).mem_iff.mp hid)
    obtain ⟨hmem, hproject⟩ := List.mem_filter.mp hjob
    exact ⟨job, hmem, by simpa using hproject, rfl⟩
  constructor
  · rw [List.nil_append, left_ready, List.nodup_flatMap]
    constructor
    · intro project _
      refine (content_queues_perm pending project).nodup_iff.mpr ?_
      exact hdistinct.sublist (List.filter_sublist.map _)
    · refine (nodup_projects _ _).imp ?_
      -- A job in two queues would have two owners.
      intro first second hne id hfirst hsecond
      obtain ⟨job, hjob, rfl, rfl⟩ := hcontent hfirst
      obtain ⟨job', hjob', rfl, hid⟩ := hcontent hsecond
      rw [← howner job hjob, ← howner job' hjob', hid] at hne
      exact hne rfl
  · intro id hid
    rw [List.nil_append, left_ready] at hid
    obtain ⟨project, -, hid⟩ := List.mem_flatMap.mp hid
    obtain ⟨job, hjob, -, rfl⟩ := hcontent hid
    exact List.mem_map_of_mem hjob
  · intro entry hentry id hid
    have hlookup := mem_ready hentry
    obtain ⟨job, hjob, hproject, rfl⟩ : ∃ job ∈ pending, job.projectId = entry.1 ∧ job.id = id := by
      apply hcontent
      rw [content, hlookup]
      exact hid
    rw [howner job hjob, hproject]
  · exact Nat.zero_le _
  · intro project
    rfl
  · intro project
    exact le_max_right _ _

end Queues

end Scheduler

namespace Provider

/-- The attempt holds a reservation. -/
def Active (attempt : Attempt) : Prop := ¬Store.Retired attempt

instance : DecidablePred Active := fun _ => inferInstanceAs (Decidable (¬_))

/-- The request for the jobs and attempts of the controller. -/
def request (jobs : List Record) (attempts : List Attempt) : SchedulingRequest :=
  { version := 1
    pending := (jobs.filter fun job => job.state = .queued ∧ job.cancelled = false).map
      fun job => ⟨job.id, job.projectId, job.createdAt⟩
    active := (attempts.filter fun attempt => Active attempt).map
      fun attempt => ⟨attempt.id, attempt.jobId, attempt.plan.projectId⟩ }

/-- Asks the scheduler for jobs and validates its answer. -/
def select (scheduler : Scheduler) (jobs : List Record) (attempts : List Attempt) :
    Except Error (List Identity) × Scheduler :=
  let request := request jobs attempts
  match scheduler.select request with
  | .error error => (.error error, scheduler)
  | .ok (value, scheduler) =>
    if 64 < value.length ∨ ¬value.Nodup ∨ ∃ id ∈ value, id ∉ request.pending.map PendingItem.id then
      (.error (.value "The scheduler returned invalid or duplicate workload identities."),
        scheduler)
    else (.ok value, scheduler)

/-- What the fair scheduler answers. The answer is always valid. -/
theorem select_eq_ok (scheduler : Scheduler) {jobs : List Record} {attempts : List Attempt}
    {owner : Identity → Identity} (hdistinct : (jobs.map Record.id).Nodup)
    (howner : ∀ job ∈ jobs, owner job.id = job.projectId) :
    ∃ chosen lastProject,
      select scheduler jobs attempts = (.ok chosen, { scheduler with lastProject }) ∧
      Scheduler.Selects scheduler.projectActive (scheduler.capacity (request jobs attempts))
        (Scheduler.activeOf (request jobs attempts).active) owner (jobs.map Record.id) chosen := by
  have hpending : ((request jobs attempts).pending.map PendingItem.id).Sublist
      (jobs.map Record.id) := by
    simp only [request, List.map_map]
    exact List.filter_sublist.map _
  have howner' : ∀ item ∈ (request jobs attempts).pending, owner item.id = item.projectId := by
    intro item hitem
    obtain ⟨job, hjob, rfl⟩ := List.mem_map.mp hitem
    exact howner job (List.mem_filter.mp hjob).1
  have hchoosing : Scheduler.Choosing scheduler.projectActive
      (scheduler.capacity (request jobs attempts))
      (Scheduler.activeOf (request jobs attempts).active) owner _ _ _ _ :=
    Scheduler.choosing_ready scheduler.lastProject (hdistinct.sublist hpending) howner'
  have hselects := Scheduler.selects_choose scheduler.lastProject hchoosing
  rcases hanswer : Scheduler.choose scheduler.projectActive
    (scheduler.capacity (request jobs attempts))
    (Scheduler.activeOf (request jobs attempts).active) scheduler.lastProject []
    (Scheduler.ready scheduler.lastProject (Scheduler.queues (request jobs attempts).pending))
    with ⟨chosen, lastProject⟩
  rw [hanswer] at hselects
  have hselect : scheduler.select (request jobs attempts) =
      .ok (chosen, { scheduler with lastProject }) := by
    simp only [Scheduler.select, hanswer]
    rfl
  refine ⟨chosen, lastProject, ?_, { hselects with
    listed := fun _ hid => hpending.subset (hselects.listed hid) }⟩
  simp only [select, hselect]
  rw [if_neg]
  -- The answer passes the validation.
  rintro (hlong | hrepeated | ⟨id, hid, hunknown⟩)
  · exact absurd (hselects.length.trans (min_le_left _ _)) (not_le.mpr hlong)
  · exact hrepeated hselects.distinct
  · exact hunknown (hselects.listed hid)

end Provider

end Ficc.Workloads
