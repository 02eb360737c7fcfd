import Ficc.Workloads.Runner
import Ficc.Workloads.Scheduler

/-!
# Scheduling passes

A pass of the runner asks the scheduler for jobs again and again and tries to place each of them,
until 64 jobs have been examined or the scheduler has none. It does not await before all its
reservations are stored, so that nothing else happens in between. Between passes the records change
in any other way.

The limits of the scheduler bound the attempts that hold a reservation in every run
(`limits_kept`). What carries them through a pass is a budget: the attempts that are active,
together with the chosen jobs that are still to be examined, stay within the limits.
-/

namespace Ficc.Workloads

open Execution

namespace Store

/-- All jobs. -/
def allJobs (store : Store) : List Record := store.jobs.values.map JobRow.value

end Store

namespace Runner

/-- What the placement of a job on a contributor reads. -/
structure Trial where
  /-- The last snapshot of the contributor's executor, while it is available. -/
  snapshot : Option Snapshot
  /-- The policy revision under which the authority of the job has been checked. -/
  authority : Except Error ℕ
  /-- The identity that is drawn for the attempt. -/
  attemptId : Identity
  now : ℚ

/-- What a pass reads from the rest of the controller. The clocks are read again for every job. -/
structure Surroundings where
  suspended : Bool
  locked : Identity → Bool
  trial : Identity → Identity → Trial
  started : ℚ
  wall : Identity → ℚ
  monotonic : Identity → ℚ

/-- The runner with its scheduler, over the controller's store. -/
structure State where
  store : Store
  scheduler : Scheduler
  /-- The jobs that wait after a placement has failed, with the end of the wait. -/
  deferred : Table Identity ℚ

/-- The runner in a pass, with the new attempts of each contributor and the number of jobs that
have been examined. -/
structure Pass extends State where
  groups : Table Identity (List Attempt)
  examined : ℕ

variable [Hash Plan]

/-- Places a job on a contributor, if its executor is available and the authority of the job
permits it. -/
def tryPlacement (store : Store) (trial : Trial) (job : Record) (nodeId : Identity) :
    Except Error (Attempt × Store) := do
  let snapshot ← orRaise trial.snapshot (.failure "executor_unavailable"
    "The contributor has no current executor capacity." 409)
  raiseIf (snapshot.admissionVersion ≠ 1 ∨ snapshot.ledgerId = none)
    (.failure "executor_upgrade_required"
      "The executor needs durable admission support before new jobs can start." 409)
  let revision ← trial.authority
  placement store snapshot job nodeId trial.attemptId revision trial.now

/-- Tries the contributors of a job in order. A job that cannot be placed is deferred, with the
reason of the last refusal. -/
def tryNodes (w : Surroundings) (job : Record) (pass : Pass) :
    List Identity → String → Pass × Except Error Unit
  | [], reason =>
    match pass.store.pending job.id reason (w.wall job.id) with
    | .error error => (pass, .error error)
    | .ok (_, store) =>
      ({ pass with store, deferred := pass.deferred.insert job.id (w.monotonic job.id + 2) },
        .ok ())
  | nodeId :: nodeIds, _ =>
    if pass.groups.lookup nodeId ≠ none ∨ w.locked nodeId = true then
      tryNodes w job pass nodeIds "executor_busy"
    else
      match tryPlacement pass.store (w.trial job.id nodeId) job nodeId with
      | .error (.failure code _ _) => tryNodes w job pass nodeIds code
      | .error error => (pass, .error error)
      | .ok (attempt, store) =>
        ({ pass with
          store
          groups := pass.groups.insert nodeId
            ((pass.groups.lookup nodeId).getD [] ++ [attempt]) }, .ok ())

/-- Examines a job. -/
def examine (w : Surroundings) (pass : Pass) (id : Identity) : Pass × Except Error Unit :=
  let pass := { pass with examined := pass.examined + 1 }
  match pass.store.job id with
  | .error error => (pass, .error error)
  | .ok job => tryNodes w job pass job.request.nodeIds "executor_unavailable"

/-- Examines jobs in order, until one raises. -/
def examineAll (w : Surroundings) (pass : Pass) : List Identity → Pass × Except Error Unit
  | [] => (pass, .ok ())
  | id :: ids =>
    match examine w pass id with
    | (pass, .error error) => (pass, .error error)
    | (pass, .ok ()) => examineAll w pass ids

theorem tryNodes_examined (w : Surroundings) (job : Record) (pass : Pass)
    (nodeIds : List Identity) (reason : String) :
    (tryNodes w job pass nodeIds reason).1.examined = pass.examined := by
  induction nodeIds generalizing reason with
  | nil =>
    unfold tryNodes
    split <;> rfl
  | cons nodeId nodeIds ih =>
    unfold tryNodes
    split_ifs
    · exact ih _
    · split
      · exact ih _
      · rfl
      · rfl

theorem examine_examined (w : Surroundings) (pass : Pass) (id : Identity) :
    (examine w pass id).1.examined = pass.examined + 1 := by
  unfold examine
  cases hjob : pass.store.job id with
  | error error => simp only [hjob]
  | ok job =>
    simp only [hjob]
    exact tryNodes_examined _ _ _ _ _

/-- A pass examines each job once. -/
theorem examineAll_examined (w : Surroundings) (pass : Pass) (ids : List Identity) :
    (examineAll w pass ids).1.examined ≤ pass.examined + ids.length ∧
      ((examineAll w pass ids).2 = .ok () →
        (examineAll w pass ids).1.examined = pass.examined + ids.length) := by
  induction ids generalizing pass with
  | nil => exact ⟨le_rfl, fun _ => rfl⟩
  | cons id ids ih =>
    unfold examineAll
    rcases hexamine : examine w pass id with ⟨next, error | _⟩
    · have hone : next.examined = pass.examined + 1 := by
        rw [← examine_examined w pass id, hexamine]
      refine ⟨?_, nofun⟩
      show next.examined ≤ _
      rw [List.length_cons]
      omega
    · have hone : next.examined = pass.examined + 1 := by
        rw [← examine_examined w pass id, hexamine]
      obtain ⟨hle, heq⟩ := ih next
      rw [hone] at hle heq
      rw [List.length_cons]
      exact ⟨hle.trans_eq (by omega), fun h => (heq h).trans (by omega)⟩

/-- The rounds of a pass. The jobs are those that were read at its beginning, and the attempts are
read again for every round. -/
def rounds (w : Surroundings) (pending : List Record) (pass : Pass) : Pass × Except Error Unit :=
  if pending ≠ [] ∧ pass.examined < 64 then
    match Provider.select pass.scheduler pending pass.store.allAttempts with
    | (.error error, scheduler) => ({ pass with scheduler }, .error error)
    | (.ok value, scheduler) =>
      let chosen := value.take (64 - pass.examined)
      if _hchosen : chosen = [] then ({ pass with scheduler }, .ok ())
      else
        match _hexamine : examineAll w { pass with scheduler } chosen with
        | (next, .error error) => (next, .error error)
        | (next, .ok ()) => rounds w (pending.filter fun job => job.id ∉ chosen) next
  else (pass, .ok ())
termination_by 64 - pass.examined
decreasing_by
  -- Every round examines the jobs that it has chosen.
  have hexamined := (examineAll_examined w { pass with scheduler } chosen).2
  rw [_hexamine] at hexamined
  have hlength : next.examined = pass.examined + chosen.length := hexamined rfl
  have hpos := List.length_pos_iff.mpr _hchosen
  omega

/-- A pass, up to the dispatch of its attempts. -/
def schedule (w : Surroundings) (s : State) : Pass × Except Error Unit :=
  if w.suspended = true then ({ s with groups := ∅, examined := 0 }, .ok ())
  else
    let deferred := s.deferred.discard fun _ deadline => deadline ≤ w.started
    let pending := s.store.allJobs.filter fun job => deferred.lookup job.id = none
    rounds w pending { s with deferred, groups := ∅, examined := 0 }

end Runner

namespace Store

open Provider

section Load

/-- The number of attempts that hold a reservation and belong to a project that counts. -/
def load (store : Store) (counts : Identity → Bool) : ℕ :=
  store.allAttempts.countP fun attempt => Active attempt ∧ counts attempt.plan.projectId = true

/-- What an attempt adds to the load. -/
def weight (counts : Identity → Bool) (attempt : Attempt) : ℕ :=
  if Active attempt ∧ counts attempt.plan.projectId = true then 1 else 0

/-- The load is a sum over the attempts. -/
theorem load_eq_total (store : Store) (counts : Identity → Bool) :
    store.load counts = store.attempts.total fun row => weight counts row.value := by
  unfold load allAttempts Table.total
  induction store.attempts.values with
  | nil => rfl
  | cons row rows ih =>
    rw [List.map_cons, List.countP_cons, List.map_cons, List.sum_cons, ← ih, Nat.add_comm]
    simp [weight]

variable {store store' : Store}

/-- Attempts that only lose weight do not add to the load. -/
theorem load_le_of_lookup {counts : Identity → Bool}
    (h : ∀ id attempt', store'.lookupAttempt id = some attempt' →
      ∃ attempt, store.lookupAttempt id = some attempt ∧
        weight counts attempt' ≤ weight counts attempt) :
    store'.load counts ≤ store.load counts := by
  rw [load_eq_total, load_eq_total]
  apply Table.total_le_of_lookup
  intro id row' hrow'
  obtain ⟨attempt, hattempt, hle⟩ := h id row'.value (by rw [lookupAttempt, hrow']; rfl)
  obtain ⟨row, hrow, rfl⟩ := Option.map_eq_some_iff.mp hattempt
  exact ⟨row, hrow, hle⟩

variable [Hash Plan]

/-- A reservation adds one attempt. -/
theorem load_reserve {job : Record} {attempt : Attempt} (h : Reserves store job attempt store')
    (counts : Identity → Bool) :
    store'.load counts ≤ store.load counts + if counts job.projectId = true then 1 else 0 := by
  obtain ⟨job', -, -, hwrites⟩ := h.writes
  let inserted : Store :=
    { store with attempts := store.attempts.insert attempt.id (.of attempt) }
  have hle : store'.load counts ≤ inserted.load counts := by
    apply load_le_of_lookup
    intro id attempt' hattempt'
    refine ⟨attempt', ?_, le_rfl⟩
    rw [hwrites.attempts] at hattempt'
    rw [lookupAttempt, Table.lookup_insert_eq]
    split_ifs at hattempt' ⊢ with hid
    · exact hattempt'
    · exact hattempt'
  have habsent : store.attempts.lookup attempt.id = none := by
    simpa [lookupAttempt] using h.absent
  have htotal := Table.total_insert store.attempts attempt.id (.of attempt)
    fun row => weight counts row.value
  rw [habsent, Option.elim_none, Nat.add_zero] at htotal
  have hload : inserted.load counts = store.load counts + weight counts attempt := by
    rw [load_eq_total, load_eq_total]
    exact htotal
  have hweight : weight counts attempt ≤ if counts job.projectId = true then 1 else 0 := by
    rw [weight, h.project]
    split_ifs <;> simp_all
  omega

variable [Hash Submission]

/-- Every other event keeps the load or takes from it, because an attempt that no longer holds a
reservation never holds one again. -/
theorem load_changes (hl : store.Linked) {event : Event} (h : event.Changes store store')
    (hreserve : ∀ job attempt, event ≠ .reserve job attempt) (counts : Identity → Bool) :
    store'.load counts ≤ store.load counts := by
  apply load_le_of_lookup
  intro id attempt' hattempt'
  cases hbefore : store.lookupAttempt id with
  | none =>
    obtain ⟨job, hevent, -⟩ := reserve_of_changes hl h hbefore hattempt'
    exact absurd hevent (hreserve job attempt')
  | some attempt =>
    refine ⟨attempt, rfl, ?_⟩
    obtain hkept | ⟨action, job, found, rfl, htouches, hnew⟩ | ⟨job, -, -, hnone⟩ :=
      lookupAttempt_of_changes hl h hbefore
    · obtain rfl := Option.some.inj (hkept.symm.trans hattempt')
      exact le_rfl
    · obtain rfl := Option.some.inj (hnew.symm.trans hattempt')
      have hplan : found.plan = attempt.plan := by
        obtain ⟨updatedAt, rfl⟩ := htouches
        cases action <;> rfl
      have hactive : Active found → Active attempt := by
        intro hfound hretired
        -- No action is allowed on an attempt that has been released or abandoned.
        have hallowed := Acts.allowed h
        cases action with
        | observe result => exact hretired.elim hallowed.2.1 hallowed.1
        | dispatch state reason =>
          have hlisted := hallowed.1
          obtain hstate | hstate := hretired <;> rw [hstate] at hlisted <;>
            simp [transitions] at hlisted
        | renew lease =>
          have hstate := hallowed.1
          obtain hretired | hretired := hretired <;> rw [hretired] at hstate <;>
            exact absurd hstate (by decide)
        | abandon => exact hretired.elim hallowed.2.1 hallowed.2.2
      unfold weight
      rw [hplan]
      by_cases hfound : Active found ∧ counts attempt.plan.projectId = true
      · rw [if_pos hfound, if_pos ⟨hactive hfound.1, hfound.2⟩]
      · rw [if_neg hfound]
        exact Nat.zero_le _
    · rw [hnone] at hattempt'
      cases hattempt'

end Load

end Store

namespace Runner

variable [Hash Plan] [Hash Submission]

section Passes

/-- The attempts that the second store has and the first has not belong to different jobs. -/
def ReservesOnce (before after : Store) : Prop :=
  ∀ {id id' : Identity} {attempt attempt' : Attempt}, before.lookupAttempt id = none →
    before.lookupAttempt id' = none → after.lookupAttempt id = some attempt →
    after.lookupAttempt id' = some attempt' → attempt.jobId = attempt'.jobId → id = id'

/-- What holds in a pass that began with a store and has chosen jobs left to examine. -/
structure Sound (globalActive projectActive : ℕ) (before : Store) (owner : Identity → Identity)
    (left : List Identity) (pass : Pass) : Prop where
  linked : pass.store.Linked
  globalActive_eq : pass.scheduler.globalActive = globalActive
  projectActive_eq : pass.scheduler.projectActive = projectActive
  owned : ∀ {id : Identity} {job : Record}, pass.store.lookupJob id = some job →
    owner id = job.projectId
  total : pass.store.load (fun _ => true) + left.length ≤ globalActive
  project : ∀ project : Identity, pass.store.load (fun other => other = project) +
    (left.countP fun id => owner id = project) ≤ projectActive
  once : ReservesOnce before pass.store
  /-- The job of a new attempt is not queued any more. -/
  started : ∀ {id : Identity} {attempt : Attempt}, before.lookupAttempt id = none →
    pass.store.lookupAttempt id = some attempt →
    ∃ job, pass.store.lookupJob attempt.jobId = some job ∧ job.state ≠ .queued

variable {globalActive projectActive : ℕ} {before : Store} {owner : Identity → Identity}
  {left : List Identity} {pass : Pass}

/-- Fewer jobs are left to examine. -/
theorem Sound.sublist {left' : List Identity}
    (h : Sound globalActive projectActive before owner left pass) (hleft : left'.Sublist left) :
    Sound globalActive projectActive before owner left' pass :=
  { h with
    total := (Nat.add_le_add_left hleft.length_le _).trans h.total
    project := fun project => (Nat.add_le_add_left (hleft.countP_le) _).trans (h.project project) }

variable {store : Store} {job : Record} {w : Surroundings}

/-- A job that is not placed gets a reason. -/
theorem Sound.pending {id : Identity} {reason : String} {now : ℚ} {returned : Record}
    (h : Sound globalActive projectActive before owner left pass)
    (hpending : pass.store.pending id reason now = .ok (returned, store))
    (deferred : Table Identity ℚ) :
    Sound globalActive projectActive before owner left { pass with store, deferred } := by
  obtain rfl | ⟨job, -, hedits⟩ := Store.pending_eq_ok h.linked.bound hpending
  · exact { h with }
  have hchanges : Store.Event.Changes pass.store store (.edit (.pending reason) job) := hedits
  have hload := Store.load_changes h.linked hchanges (fun _ _ heq => by cases heq)
  obtain ⟨job', ⟨updatedAt, revision, rfl⟩, -, hwrites⟩ := hedits.writes
  have hattempts : ∀ other, store.lookupAttempt other = pass.store.lookupAttempt other := by
    intro other
    rw [Store.lookupAttempt, hwrites.attempts]
    rfl
  constructor
  · exact h.linked.edit hedits
  · exact h.globalActive_eq
  · exact h.projectActive_eq
  · intro other found hfound
    rw [hwrites.jobs] at hfound
    split_ifs at hfound with hid
    · obtain rfl := Option.some.inj hfound
      have howned := h.owned hedits.found
      rw [hid]
      exact howned
    · exact h.owned hfound
  · exact (Nat.add_le_add_right (hload _) _).trans h.total
  · intro project
    exact (Nat.add_le_add_right (hload _) _).trans (h.project project)
  · intro first second attempt attempt' hfirst hsecond hattempt hattempt'
    exact h.once hfirst hsecond (hattempts _ ▸ hattempt) (hattempts _ ▸ hattempt')
  · intro other attempt hnew hattempt
    obtain ⟨owned, howned, hstate⟩ := h.started hnew (hattempts _ ▸ hattempt)
    rw [hwrites.jobs]
    split_ifs with hid
    · -- The reason is noted for a queued job only, which no new attempt has.
      rw [hid] at howned
      obtain rfl := Option.some.inj (howned.symm.trans hedits.found)
      exact absurd hedits.allowed hstate
    · exact ⟨owned, howned, hstate⟩

/-- A job that was left is placed. -/
theorem Sound.reserve {attempt : Attempt}
    (h : Sound globalActive projectActive before owner (job.id :: left) pass)
    (hreserves : Store.Reserves pass.store job attempt store)
    (groups : Table Identity (List Attempt)) :
    Sound globalActive projectActive before owner left { pass with store, groups } := by
  have hload := Store.load_reserve hreserves
  have howner := h.owned hreserves.found
  have hjob : attempt.jobId = job.id := by
    obtain ⟨now, hcreated⟩ := hreserves.created
    rw [hcreated]
    rfl
  obtain ⟨job', ⟨updatedAt, revision, rfl⟩, -, hwrites⟩ := hreserves.writes
  -- No new attempt belongs to a queued job.
  have hother : ∀ {id : Identity} {other : Attempt}, before.lookupAttempt id = none →
      pass.store.lookupAttempt id = some other → other.jobId ≠ job.id := by
    intro id other hnew hfound hsame
    obtain ⟨owned, howned, hstate⟩ := h.started hnew hfound
    rw [hsame] at howned
    obtain rfl := Option.some.inj (howned.symm.trans hreserves.found)
    exact hstate hreserves.queued
  constructor
  · exact h.linked.reserve hreserves
  · exact h.globalActive_eq
  · exact h.projectActive_eq
  · intro id found hfound
    rw [hwrites.jobs] at hfound
    split_ifs at hfound with hid
    · obtain rfl := Option.some.inj hfound
      rw [hid]
      exact howner
    · exact h.owned hfound
  · have htotal := h.total
    have hone := hload fun _ => true
    rw [List.length_cons] at htotal
    simp only [if_true] at hone
    show store.load _ + _ ≤ _
    omega
  · intro project
    have hproject := h.project project
    have hone := hload fun other => other = project
    rw [List.countP_cons, howner] at hproject
    show store.load _ + _ ≤ _
    by_cases hsame : job.projectId = project
    · simp only [hsame, decide_true, if_true] at hone hproject
      omega
    · simp only [hsame, decide_false, Bool.false_eq_true, if_false] at hone hproject
      omega
  · intro id id' first second hid hid' hfirst hsecond hsame
    rw [hwrites.attempts] at hfirst hsecond
    split_ifs at hfirst hsecond with heq heq' heq'
    · rw [heq, heq']
    · obtain rfl := Option.some.inj hfirst
      exact absurd (hsame.symm.trans hjob) (hother hid' hsecond)
    · obtain rfl := Option.some.inj hsecond
      exact absurd (hsame.trans hjob) (hother hid hfirst)
    · exact h.once hid hid' hfirst hsecond hsame
  · intro id found hnew hfound
    rw [hwrites.attempts] at hfound
    rw [hwrites.jobs]
    split_ifs at hfound with heq
    · obtain rfl := Option.some.inj hfound
      rw [if_pos hjob]
      exact ⟨_, rfl, nofun⟩
    · rw [if_neg (hother hnew hfound)]
      exact h.started hnew hfound

omit [Hash Submission] in
/-- A placement that succeeds reserves an attempt of the job. -/
theorem tryPlacement_eq_ok {store' : Store} (hb : store.Bound) {trial : Trial} {nodeId : Identity}
    {attempt : Attempt} (h : tryPlacement store trial job nodeId = .ok (attempt, store')) :
    ∃ found, found.id = job.id ∧ Store.Reserves store found attempt store' := by
  simp only [tryPlacement, placement, bind_eq_ok, orRaise_eq_ok, raiseIf_eq_ok, exists_const] at h
  obtain ⟨snapshot, -, -, revision, -, -, -, lease, -, hreserve⟩ := h
  obtain ⟨found, hattempt, hreserves⟩ := Store.reserve_eq_ok hb hreserve
  have hbound := congrArg (fun ids => ids.2.1) hreserves.valid.plan_bound
  rw [hattempt] at hbound
  exact ⟨found, hbound, hreserves⟩

theorem Sound.tryNodes (h : Sound globalActive projectActive before owner (job.id :: left) pass)
    (nodeIds : List Identity) (reason : String) :
    Sound globalActive projectActive before owner left (tryNodes w job pass nodeIds reason).1 := by
  have hleft := h.sublist (List.sublist_cons_self job.id left)
  induction nodeIds generalizing reason with
  | nil =>
    unfold Runner.tryNodes
    cases hpending : pass.store.pending job.id reason (w.wall job.id) with
    | error error => exact hleft
    | ok result => exact hleft.pending hpending _
  | cons nodeId nodeIds ih =>
    unfold Runner.tryNodes
    split_ifs
    · exact ih _
    cases hplaced : tryPlacement pass.store (w.trial job.id nodeId) job nodeId with
    | error error =>
      cases error with
      | failure code message status => exact ih _
      | _ => exact hleft
    | ok result =>
      obtain ⟨found, hid, hreserves⟩ := tryPlacement_eq_ok h.linked.bound hplaced
      rw [← hid] at h
      exact h.reserve hreserves _

theorem Sound.examine {id : Identity}
    (h : Sound globalActive projectActive before owner (id :: left) pass) :
    Sound globalActive projectActive before owner left (examine w pass id).1 := by
  have hcounted : Sound globalActive projectActive before owner (id :: left)
      { pass with examined := pass.examined + 1 } := { h with }
  unfold Runner.examine
  cases hjob : pass.store.job id with
  | error error =>
    simp only [hjob]
    exact hcounted.sublist (List.sublist_cons_self id left)
  | ok job =>
    simp only [hjob]
    obtain rfl := h.linked.bound.job_id (Store.job_eq_ok.mp hjob)
    exact hcounted.tryNodes _ _

/-- The jobs that are left are examined. Those that remain when one raises do no harm. -/
theorem Sound.examineAll {ids : List Identity}
    (h : Sound globalActive projectActive before owner ids pass) :
    Sound globalActive projectActive before owner [] (examineAll w pass ids).1 := by
  induction ids generalizing pass with
  | nil => exact h
  | cons id ids ih =>
    unfold Runner.examineAll
    have hexamined : Sound _ _ _ _ _ (Runner.examine w pass id).1 := h.examine
    rcases hexamine : Runner.examine w pass id with ⟨next, error | _⟩
    · rw [hexamine] at hexamined
      exact hexamined.sublist (List.nil_sublist _)
    · rw [hexamine] at hexamined
      exact ih hexamined

omit [Hash Plan] [Hash Submission] in
theorem length_active (jobs : List Record) (store : Store) :
    (Provider.request jobs store.allAttempts).active.length = store.load fun _ => true := by
  simp [Provider.request, Store.load, List.countP_eq_length_filter]

omit [Hash Plan] [Hash Submission] in
theorem activeOf_active (jobs : List Record) (store : Store) (project : Identity) :
    Scheduler.activeOf (Provider.request jobs store.allAttempts).active project =
      store.load fun other => other = project := by
  simp only [Scheduler.activeOf, Provider.request, Store.load, List.countP_map,
    List.countP_filter]
  refine List.countP_congr fun attempt _ => ?_
  simp [and_comm]

/-- The jobs that the scheduler selects fit into the limits. -/
theorem Sound.select {pending : List Record}
    (h : Sound globalActive projectActive before owner [] pass)
    (hdistinct : (pending.map Record.id).Nodup)
    (howner : ∀ job ∈ pending, owner job.id = job.projectId) :
    ∃ chosen scheduler, Provider.select pass.scheduler pending pass.store.allAttempts =
        (.ok chosen, scheduler) ∧
      Sound globalActive projectActive before owner chosen { pass with scheduler } := by
  obtain ⟨chosen, lastProject, hselect, -, -, hlength, hbounded⟩ :=
    Provider.select_eq_ok pass.scheduler hdistinct howner
  refine ⟨chosen, _, hselect, { h with total := ?_, project := ?_ }⟩
  · have htotal := h.total
    have hcapacity := hlength.trans (min_le_right _ _)
    rw [length_active, h.globalActive_eq] at hcapacity
    rw [List.length_nil] at htotal
    show pass.store.load _ + _ ≤ _
    omega
  · intro project
    have hproject := h.project project
    have hlimit := hbounded project
    rw [activeOf_active, h.projectActive_eq] at hlimit
    rw [List.countP_nil, Nat.add_zero] at hproject
    rwa [max_eq_left hproject] at hlimit

/-- The rounds of a pass examine at most 64 jobs and keep the limits. -/
theorem Sound.rounds {pending : List Record}
    (h : Sound globalActive projectActive before owner [] pass)
    (hdistinct : (pending.map Record.id).Nodup)
    (howner : ∀ job ∈ pending, owner job.id = job.projectId) (hexamined : pass.examined ≤ 64) :
    Sound globalActive projectActive before owner [] (rounds w pending pass).1 ∧
      (rounds w pending pass).1.examined ≤ 64 := by
  induction hleft : 64 - pass.examined using Nat.strong_induction_on generalizing pending pass with
  | _ left ih =>
    unfold Runner.rounds
    split_ifs with hmore
    · obtain ⟨value, scheduler, hselect, hchosen⟩ := h.select hdistinct howner
      rw [hselect]
      dsimp only
      split_ifs with hnone
      · exact ⟨hchosen.sublist (List.nil_sublist _), hexamined⟩
      · have hsound : Sound globalActive projectActive before owner [] (Runner.examineAll w
            { pass with scheduler } (value.take (64 - pass.examined))).1 :=
          (hchosen.sublist (List.take_sublist _ _)).examineAll
        have hcount := examineAll_examined w { pass with scheduler }
          (value.take (64 - pass.examined))
        have htake := List.length_take_le (64 - pass.examined) value
        have hpos := List.length_pos_iff.mpr hnone
        rcases hexamine : Runner.examineAll w { pass with scheduler }
          (value.take (64 - pass.examined)) with ⟨next, error | _⟩
        · rw [hexamine] at hsound hcount
          refine ⟨hsound, hcount.1.trans ?_⟩
          dsimp only
          omega
        · rw [hexamine] at hsound hcount
          have hnext : next.examined = pass.examined + (value.take (64 - pass.examined)).length :=
            hcount.2 rfl
          refine ih (64 - next.examined) (by omega) hsound ?_ ?_ (by omega) rfl
          · exact hdistinct.sublist (List.filter_sublist.map _)
          · intro job hjob
            exact howner job (List.mem_filter.mp hjob).1
    · exact ⟨h, hexamined⟩

omit [Hash Plan] [Hash Submission] in
theorem nodup_allJobs (hb : store.Bound) :
    (store.allJobs.map Record.id).Nodup := by
  have hids : store.allJobs.map Record.id = store.jobs.rows.map Prod.fst := by
    rw [Store.allJobs, Table.values_eq_map_rows, List.map_map, List.map_map]
    refine List.map_congr_left fun row hrow => ?_
    exact (hb.job (Table.mem_rows.mp hrow)).2
  rw [hids]
  exact store.jobs.nodup_map_fst_rows

omit [Hash Plan] [Hash Submission] in
theorem mem_allJobs (hb : store.Bound) (h : job ∈ store.allJobs) :
    store.lookupJob job.id = some job := by
  obtain ⟨row, hrow, rfl⟩ := List.mem_map.mp h
  obtain ⟨id, hlookup⟩ := Table.mem_values.mp hrow
  rw [(hb.job hlookup).2, Store.lookupJob, hlookup]
  rfl

end Passes

section Runs

/-- What the controller does: a scheduling pass, or an operation on the records. Reservations are
made by passes only. -/
inductive Action
  | schedule (w : Surroundings)
  | operate (operation : Store.Operation)

/-- The operation is a reservation. -/
def IsReservation : Store.Operation → Bool
  | .reserve .. => true
  | _ => false

/-- The controller after an action. -/
def step (s : State) : Action → State
  | .schedule w => (schedule w s).1.toState
  | .operate operation =>
    if IsReservation operation = true then s else { s with store := s.store.step operation }

/-- The attempts that hold a reservation are within the limits. -/
structure Within (globalActive projectActive : ℕ) (s : State) : Prop where
  linked : s.store.Linked
  globalActive_eq : s.scheduler.globalActive = globalActive
  projectActive_eq : s.scheduler.projectActive = projectActive
  total : s.store.load (fun _ => true) ≤ globalActive
  project : ∀ project : Identity, s.store.load (fun other => other = project) ≤ projectActive

variable {globalActive projectActive : ℕ} {s : State}

/-- A pass keeps the limits, examines at most 64 jobs and reserves no job twice. -/
theorem Within.schedule (h : Within globalActive projectActive s) (w : Surroundings) :
    Within globalActive projectActive (schedule w s).1.toState ∧
      (schedule w s).1.examined ≤ 64 ∧ ReservesOnce s.store (schedule w s).1.store := by
  let owner (id : Identity) : Identity := (s.store.lookupJob id).elim 0 Record.projectId
  have hstart (deferred : Table Identity ℚ) : Sound globalActive projectActive s.store owner []
      { s with deferred, groups := ∅, examined := 0 } := by
    constructor
    · exact h.linked
    · exact h.globalActive_eq
    · exact h.projectActive_eq
    · intro id job hjob
      show (s.store.lookupJob id).elim 0 Record.projectId = _
      rw [show s.store.lookupJob id = some job from hjob]
      rfl
    · exact h.total
    · exact h.project
    · intro id id' attempt attempt' hnone _ hattempt
      cases hnone.symm.trans hattempt
    · intro id attempt hnone hattempt
      cases hnone.symm.trans hattempt
  unfold Runner.schedule
  split_ifs with hsuspended
  · have hsound := hstart s.deferred
    exact ⟨h, Nat.zero_le _, hsound.once⟩
  · have hjobs := nodup_allJobs h.linked.bound
    obtain ⟨hsound, hexamined⟩ := (hstart (s.deferred.discard fun _ deadline =>
      deadline ≤ w.started)).rounds (w := w) (hjobs.sublist (List.filter_sublist.map _)) (by
        intro job hjob
        have hfound := mem_allJobs h.linked.bound (List.mem_filter.mp hjob).1
        show (s.store.lookupJob job.id).elim 0 Record.projectId = _
        rw [hfound]
        rfl) (Nat.zero_le _)
    refine ⟨⟨hsound.linked, hsound.globalActive_eq, hsound.projectActive_eq, ?_, ?_⟩,
      hexamined, hsound.once⟩
    · exact hsound.total
    · exact hsound.project

/-- An operation that is not a reservation keeps the limits. -/
theorem Within.operate (h : Within globalActive projectActive s) {operation : Store.Operation}
    (hoperation : IsReservation operation = false) :
    Within globalActive projectActive { s with store := s.store.step operation } := by
  have hload : ∀ counts, (s.store.step operation).load counts ≤ s.store.load counts := by
    intro counts
    obtain hsame | ⟨event, hcauses, hchanges⟩ := Store.changes_step h.linked operation
    · rw [Store.load_eq_total, Store.load_eq_total, hsame.attempts]
    · refine Store.load_changes h.linked hchanges ?_ counts
      rintro job attempt rfl
      cases operation with
      | reserve => cases hoperation
      | _ => exact hcauses
  exact ⟨Store.linked_step h.linked operation, h.globalActive_eq, h.projectActive_eq,
    (hload _).trans h.total, fun project => (hload _).trans (h.project project)⟩

/-- A pass keeps the limits. -/
theorem Within.step (h : Within globalActive projectActive s) (action : Action) :
    Within globalActive projectActive (step s action) := by
  cases action with
  | schedule w => exact (h.schedule w).1
  | operate operation =>
    simp only [Runner.step]
    split_ifs with hoperation
    · exact h
    · exact h.operate (by simpa using hoperation)

/-- In every run of passes and other operations that begins without attempts that hold a
reservation, at most `globalActive` attempts hold one, and at most `projectActive` of each project.
Every pass examines at most 64 jobs and reserves no job twice. -/
theorem limits_kept (projects identities : List Identity)
    (contributors : Table Identity Contributor) (policyRevision : ℕ) (managed : List String)
    (operations : List Store.Operation) (scheduler : Scheduler) (deferred : Table Identity ℚ)
    (hstart : ∀ attempt ∈ (run Store.step (Store.initial projects identities contributors
      policyRevision managed) operations).allAttempts, Store.Retired attempt)
    (actions : List Action) :
    let s := run step ⟨run Store.step (Store.initial projects identities contributors
      policyRevision managed) operations, scheduler, deferred⟩ actions
    (s.store.allAttempts.filter fun attempt => ¬Store.Retired attempt).length ≤
        scheduler.globalActive ∧
      (∀ project, (s.store.allAttempts.filter fun attempt =>
        ¬Store.Retired attempt ∧ attempt.plan.projectId = project).length ≤
          scheduler.projectActive) ∧
      ∀ w, (schedule w s).1.examined ≤ 64 ∧ ReservesOnce s.store (schedule w s).1.store := by
  intro s
  have hlinked : (run Store.step (Store.initial projects identities contributors
      policyRevision managed) operations).Linked :=
    run_invariant (I := Store.Linked) (fun _ operation h => Store.linked_step h operation)
      (Store.linked_initial projects identities contributors policyRevision managed) operations
  have hzero : ∀ counts, (run Store.step (Store.initial projects identities contributors
      policyRevision managed) operations).load counts = 0 := by
    intro counts
    refine List.countP_eq_zero.mpr fun attempt hattempt hactive => ?_
    simp only [decide_eq_true_eq] at hactive
    exact hactive.1 (hstart attempt hattempt)
  have hinitial : Within scheduler.globalActive scheduler.projectActive
      ⟨run Store.step (Store.initial projects identities contributors policyRevision managed)
        operations, scheduler, deferred⟩ :=
    ⟨hlinked, rfl, rfl, (hzero _).trans_le (Nat.zero_le _),
      fun _ => (hzero _).trans_le (Nat.zero_le _)⟩
  have hs : Within scheduler.globalActive scheduler.projectActive s :=
    run_invariant (fun _ action h => h.step action) hinitial actions
  refine ⟨?_, ?_, fun w => (hs.schedule w).2⟩
  · have htotal := hs.total
    rw [Store.load, List.countP_eq_length_filter] at htotal
    simpa [Provider.Active] using htotal
  · intro project
    have hproject := hs.project project
    rw [Store.load, List.countP_eq_length_filter] at hproject
    simpa [Provider.Active] using hproject

end Runs

end Runner

namespace Sample

/-- The attempt is observed as released. -/
def released : Store.Operation :=
  .observation (result .released (some 0) true (by decide) (by decide) (by decide)) 1 1 103

/-- A scheduler that lets one attempt run. -/
def scheduler : Scheduler := ⟨1, 1, none, Scheduler.one_le_limit, Nat.one_pos, Nat.one_pos⟩

/-- A controller whose contributor is always available. -/
def surroundings : Runner.Surroundings :=
  { suspended := false, locked := fun _ => false
    trial := fun id _ => ⟨some snapshot, .ok 0, id + 100, 110⟩
    started := 0, wall := fun _ => 110, monotonic := fun _ => 0 }

end Sample

/-- After the first attempt has been released, one of two more jobs gets an attempt at a time. -/
theorem Runner.limits_kept_after_release :
    letI := Execution.Sample.hash
    letI := Sample.submissionHash
    let store := run Store.step Sample.store (Sample.reserved ++ [Sample.succeeded, Sample.released])
    (∀ attempt ∈ store.allAttempts, Store.Retired attempt) ∧ store.allAttempts ≠ [] ∧
      ((run Runner.step ⟨store, Sample.scheduler, ∅⟩
        [.operate (.submit (Sample.submission 3) "seventeen-letters" Sample.delegation 8 104),
          .operate (.submit (Sample.submission 3) "eighteen-letterss" Sample.delegation 9 104),
          .schedule Sample.surroundings]).store.allAttempts.filter fun attempt =>
            ¬Store.Retired attempt).length ≤ 1 := by
  let _ := Execution.Sample.hash
  let _ := Sample.submissionHash
  have hstart : ∀ attempt ∈ (run Store.step Sample.store
      (Sample.reserved ++ [Sample.succeeded, Sample.released])).allAttempts,
      Store.Retired attempt := by decide +kernel
  exact ⟨hstart, by decide +kernel, (Runner.limits_kept [1] [1] Sample.contributors 0 []
    (Sample.reserved ++ [Sample.succeeded, Sample.released]) Sample.scheduler ∅ hstart _).1⟩

end Ficc.Workloads
