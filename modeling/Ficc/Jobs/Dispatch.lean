import Ficc.Jobs.Machine

/-!
# What holds of managed jobs in every run

A job is new until its submission is sent, it is withdrawn, or it is refused, and nothing is sent
for a job that is not new. A helper has a request only if the submission was handled. So a
submission is sent at most once, and when a helper says that there is no request, there will never
be one.

`Orderly` collects what holds in every state. Most steps only move targets and end tasks, and one
lemma (`Orderly.settle`) is about all of them. The events are added by lemmas of their own.
-/

namespace Ficc.Jobs

open Execution JobStore

namespace JobEvent

/-- The event is about the job. -/
def Concerns (jobId : Identity) : JobEvent → Prop
  | .sent other _ => other = jobId
  | .withdrawn other => other = jobId
  | .refused other => other = jobId

end JobEvent

/-- The task submits its job. -/
def Task.Submits (task : Task) : Prop := ∃ job nodeId, task.action = .submit job nodeId

/-- The call submits the job. -/
def Call.Submits (call : Call) (jobId : Identity) : Prop :=
  call.payload.jobId = jobId ∧ ∃ job nodeId, call.payload.action = .submit job nodeId

namespace Machine

/-- No submission of the job is sent, withdrawn or refused. -/
def New (s : Machine) (jobId : Identity) : Prop :=
  ∀ event ∈ s.history, ¬event.Concerns jobId

/-- No task submits the job. -/
def Idle (s : Machine) (jobId : Identity) : Prop :=
  (∀ task, s.tasks.lookup jobId = some (.composing task) → ¬task.Submits) ∧
    ∀ task number, s.tasks.lookup jobId = some (.waiting task number) → ¬task.Submits

/-- No helper has the request of the job, and none will get it. -/
def Absent (s : Machine) (jobId : Identity) : Prop :=
  (∀ nodeId, (s.helpers nodeId).known jobId = none) ∧ ∀ call ∈ s.calls, ¬call.Submits jobId

/-- The phase of a task is about the job. -/
def Follows (store : JobStore) (jobId : Identity) : Phase → Prop
  | .started operationId nodeId =>
    ∃ target, store.target operationId nodeId = some target ∧ target.jobId = jobId
  | .composing task | .waiting task _ =>
    task.target.jobId = jobId ∧ (task.Submits ↔ task.target.state = .queued) ∧
      ∃ latest, store.target task.operationId task.target.nodeId = some latest ∧
        latest.jobId = jobId ∧
        ∀ job nodeId, task.action = .submit job nodeId → job.reservations nodeId = latest.reservations

/-- What holds of the stored targets. -/
structure Filed (store : JobStore) (drawn : Finset Identity) : Prop where
  nodeId : ∀ {operationId nodeId : Identity} {target : Target},
    store.target operationId nodeId = some target → target.nodeId = nodeId
  drawn : ∀ {operationId nodeId : Identity} {target : Target},
    store.target operationId nodeId = some target → target.jobId ∈ drawn
  located : ∀ {operationId operationId' nodeId nodeId' : Identity} {target target' : Target},
    store.target operationId nodeId = some target →
    store.target operationId' nodeId' = some target' → target'.jobId = target.jobId →
    operationId' = operationId ∧ nodeId' = nodeId
  asked : ∀ {operationId nodeId : Identity} {target : Target} {request : JobRequest},
    (store.lookup operationId).map Operation.request = some request →
    store.target operationId nodeId = some target →
    target.reservations = request.job.reservations nodeId
  exclusive : ∀ {operationId operationId' nodeId : Identity} {target target' : Target},
    store.target operationId nodeId = some target →
    store.target operationId' nodeId = some target' → target.state ∉ TERMINAL →
    target'.state ∉ TERMINAL → operationId' = operationId

/-- What holds in every state. -/
structure Orderly (s : Machine) : Prop where
  filed : Filed s.store s.drawn
  task : ∀ {jobId : Identity} {phase : Phase}, s.tasks.lookup jobId = some phase →
    Follows s.store jobId phase
  queued : ∀ {operationId nodeId : Identity} {target : Target},
    s.store.target operationId nodeId = some target → target.state = .queued →
    s.New target.jobId ∧ s.Idle target.jobId
  composing : ∀ {jobId : Identity} {task : Task}, s.tasks.lookup jobId = some (.composing task) →
    task.Submits → s.New jobId
  waiting : ∀ {jobId : Identity} {task : Task} {number : ℕ},
    s.tasks.lookup jobId = some (.waiting task number) → task.Submits →
    .sent jobId number ∈ s.history
  traced : ∀ event ∈ s.history, ∀ jobId, event.Concerns jobId → jobId ∈ s.drawn
  once : ∀ jobId, s.history.countP (JobEvent.sends jobId) ≤ 1
  number : ∀ {jobId : Identity} {number : ℕ}, .sent jobId number ∈ s.history → number < s.sent
  unique : ∀ {jobId : Identity} {number number' : ℕ}, .sent jobId number ∈ s.history →
    .sent jobId number' ∈ s.history → number' = number
  same : ∀ {jobId jobId' : Identity} {number : ℕ}, .sent jobId number ∈ s.history →
    .sent jobId' number ∈ s.history → jobId' = jobId
  numbers : (s.calls.map Call.number).Nodup
  called : ∀ call ∈ s.calls, call.number < s.sent
  replied : ∀ reply ∈ s.replies, reply.1 < s.sent
  call : ∀ call ∈ s.calls, ∀ jobId, call.Submits jobId →
    .sent jobId call.number ∈ s.history ∧ ∀ nodeId, (s.helpers nodeId).known jobId = none
  known : ∀ {nodeId jobId : Identity} {reservations : List Reservation},
    (s.helpers nodeId).known jobId = some reservations → ∃ number, .sent jobId number ∈ s.history
  launched : ∀ {nodeId jobId : Identity}, jobId ∈ (s.helpers nodeId).launched →
    (s.helpers nodeId).known jobId ≠ none
  refusal : ∀ {number : ℕ} {text : String}, (number, .error text false) ∈ s.replies →
    ∀ jobId, .sent jobId number ∈ s.history → s.Absent jobId
  refused : ∀ {jobId : Identity}, .refused jobId ∈ s.history → s.Absent jobId
  withdrawn : ∀ {jobId : Identity}, .withdrawn jobId ∈ s.history →
    ∀ number, .sent jobId number ∉ s.history
  reserved : ∀ {operationId nodeId : Identity} {target : Target},
    s.store.target operationId nodeId = some target →
    (∀ helper reservations, (s.helpers helper).known target.jobId = some reservations →
      reservations = target.reservations) ∧
    ∀ call ∈ s.calls, call.payload.jobId = target.jobId → ∀ job nodeId,
      call.payload.action = .submit job nodeId → job.reservations nodeId = target.reservations
  answered : ∀ {number : ℕ} {response : Response}, (number, .result response) ∈ s.replies →
    ∀ reservations ∈ response.reservations,
      ∃ nodeId, (s.helpers nodeId).known response.jobId = some reservations

theorem orderly_initial (controllerId : Identity) : (initial controllerId).Orderly where
  filed := by
    constructor <;> intros <;> simp_all [initial, JobStore.target]
  task h := by simp [initial] at h
  queued h := by simp [initial, JobStore.target] at h
  composing h := by simp [initial] at h
  waiting h := by simp [initial] at h
  traced _ h := absurd h List.not_mem_nil
  once _ := Nat.zero_le _
  number h := absurd h List.not_mem_nil
  unique h := absurd h List.not_mem_nil
  same h := absurd h List.not_mem_nil
  numbers := List.nodup_nil
  called _ h := absurd h List.not_mem_nil
  replied _ h := absurd h List.not_mem_nil
  call _ h := absurd h List.not_mem_nil
  known h := by simp [initial, Helper.known, Helper.empty] at h
  launched h := absurd h List.not_mem_nil
  refusal h := absurd h List.not_mem_nil
  refused h := absurd h List.not_mem_nil
  withdrawn h := absurd h List.not_mem_nil
  reserved h := by simp [initial, JobStore.target] at h
  answered h := absurd h List.not_mem_nil

section Targets

variable {store store' : JobStore} {drawn : Finset Identity}

/-- Targets that move keep what holds of them. -/
theorem Filed.evolves (h : Filed store drawn) (hevolves : Evolves store store') :
    Filed store' drawn where
  nodeId hfound := by
    obtain ⟨target, hbefore, hmoves⟩ := hevolves.back hfound
    exact hmoves.nodeId.trans (h.nodeId hbefore)
  drawn hfound := by
    obtain ⟨target, hbefore, hmoves⟩ := hevolves.back hfound
    rw [hmoves.jobId]
    exact h.drawn hbefore
  located hfound hfound' hid := by
    obtain ⟨target, hbefore, hmoves⟩ := hevolves.back hfound
    obtain ⟨target', hbefore', hmoves'⟩ := hevolves.back hfound'
    rw [hmoves.jobId, hmoves'.jobId] at hid
    exact h.located hbefore hbefore' hid
  asked hrequest hfound := by
    obtain ⟨target, hbefore, hmoves⟩ := hevolves.back hfound
    rw [hevolves.request] at hrequest
    exact hmoves.reservations.trans (h.asked hrequest hbefore)
  exclusive hfound hfound' hopen hopen' := by
    obtain ⟨target, hbefore, hmoves⟩ := hevolves.back hfound
    obtain ⟨target', hbefore', hmoves'⟩ := hevolves.back hfound'
    refine h.exclusive hbefore hbefore' ?_ ?_
    · exact fun hterminal => hopen (hmoves.terminal hterminal ▸ hterminal)
    · exact fun hterminal => hopen' (hmoves'.terminal hterminal ▸ hterminal)

/-- A new operation on idle machines, with new identities for its jobs. -/
theorem Filed.inserts (h : Filed store drawn) {operationId : Identity} {request : JobRequest}
    {jobId : Identity → Identity} (hinserts : Inserts store operationId request jobId store')
    (hnew : ∀ id ∈ request.nodeIds.map jobId, id ∉ drawn)
    (hdistinct : (request.nodeIds.map jobId).Nodup) :
    Filed store' (drawn ∪ (request.nodeIds.map jobId).toFinset) := by
  have hdisjoint : ∀ {other nodeId nodeId' : Identity} {target : Target},
      store.target other nodeId = some target → nodeId' ∈ request.nodeIds →
      target.jobId ≠ jobId nodeId' := by
    intro other nodeId nodeId' target hfound hnode hid
    exact hnew _ (List.mem_map_of_mem hnode) (hid ▸ h.drawn hfound)
  constructor
  · intro other nodeId target hfound
    obtain hold | ⟨-, -, rfl⟩ := hinserts.cases hfound
    · exact h.nodeId hold
    · rfl
  · intro other nodeId target hfound
    obtain hold | ⟨-, hnode, rfl⟩ := hinserts.cases hfound
    · exact Finset.mem_union_left _ (h.drawn hold)
    · exact Finset.mem_union_right _ (List.mem_toFinset.mpr (List.mem_map_of_mem hnode))
  · intro other other' nodeId nodeId' target target' hfound hfound' hid
    obtain hold | ⟨rfl, hnode, rfl⟩ := hinserts.cases hfound <;>
      obtain hold' | ⟨rfl, hnode', rfl⟩ := hinserts.cases hfound'
    · exact h.located hold hold' hid
    · exact absurd hid.symm (hdisjoint hold hnode')
    · exact absurd hid (hdisjoint hold' hnode)
    · exact ⟨rfl, List.inj_on_of_nodup_map hdistinct hnode' hnode hid⟩
  · intro other nodeId target found hrequest hfound
    rw [hinserts.lookup] at hrequest
    obtain hold | ⟨rfl, -, rfl⟩ := hinserts.cases hfound
    · rw [if_neg (hinserts.ne hold)] at hrequest
      exact h.asked hrequest hold
    · rw [if_pos rfl] at hrequest
      obtain rfl := Option.some.inj hrequest
      rfl
  · intro other other' nodeId target target' hfound hfound' hopen hopen'
    obtain hold | ⟨rfl, hnode, rfl⟩ := hinserts.cases hfound <;>
      obtain hold' | ⟨rfl, hnode', rfl⟩ := hinserts.cases hfound'
    · exact h.exclusive hold hold' hopen hopen'
    · exact absurd ((active_iff h.nodeId).mpr ⟨_, _, hold, hopen⟩) (hinserts.idle nodeId hnode')
    · exact absurd ((active_iff h.nodeId).mpr ⟨_, _, hold', hopen'⟩) (hinserts.idle nodeId hnode)
    · rfl

end Targets

section Store

variable {s : Machine} {store' : JobStore}

theorem Follows.evolves {store : JobStore} {jobId : Identity} {phase : Phase}
    (h : Follows store jobId phase) (hevolves : Evolves store store') :
    Follows store' jobId phase := by
  cases phase with
  | started operationId nodeId =>
    obtain ⟨target, hfound, hid⟩ := h
    obtain ⟨target', hfound', hmoves⟩ := hevolves.forth hfound
    exact ⟨target', hfound', hmoves.jobId.trans hid⟩
  | composing task | waiting task number =>
    obtain ⟨htarget, hsubmits, latest, hfound, hid, hreservations⟩ := h
    obtain ⟨latest', hfound', hmoves⟩ := hevolves.forth hfound
    refine ⟨htarget, hsubmits, latest', hfound', hmoves.jobId.trans hid, ?_⟩
    intro job nodeId haction
    rw [hreservations job nodeId haction, hmoves.reservations]

theorem Follows.inserts {store : JobStore} {jobId : Identity} {phase : Phase}
    (h : Follows store jobId phase) {operationId : Identity} {request : JobRequest}
    {newId : Identity → Identity} (hinserts : Inserts store operationId request newId store') :
    Follows store' jobId phase := by
  cases phase with
  | started other nodeId =>
    obtain ⟨target, hfound, hid⟩ := h
    exact ⟨target, hinserts.kept hfound, hid⟩
  | composing task | waiting task number =>
    obtain ⟨htarget, hsubmits, latest, hfound, hrest⟩ := h
    exact ⟨htarget, hsubmits, latest, hinserts.kept hfound, hrest⟩

/-- The job of a task is drawn. -/
theorem Follows.drawn {store : JobStore} {drawn : Finset Identity} {jobId : Identity}
    {phase : Phase} (h : Follows store jobId phase) (hfiled : Filed store drawn) :
    jobId ∈ drawn := by
  cases phase with
  | started operationId nodeId =>
    obtain ⟨target, hfound, rfl⟩ := h
    exact hfiled.drawn hfound
  | composing task | waiting task number =>
    obtain ⟨-, -, latest, hfound, rfl, -⟩ := h
    exact hfiled.drawn hfound

/-- A task may enter the phase. It prepares to submit a job only if the job is new, and its target
is not queued any more. -/
structure Enters (s : Machine) (store' : JobStore) (jobId : Identity) (phase : Phase) : Prop where
  follows : Follows store' jobId phase
  composing : ∀ task, phase = .composing task → task.Submits → s.New jobId ∧
    ∀ operationId nodeId target, store'.target operationId nodeId = some target →
      target.jobId = jobId → target.state ≠ .queued
  waiting : ∀ task number, phase = .waiting task number → ¬task.Submits

/-- Targets move, and tasks end or go on without a submission. -/
theorem Orderly.settle (h : s.Orderly) {tasks' : Table Identity Phase}
    (hevolves : Evolves s.store store')
    (htasks : ∀ jobId phase, tasks'.lookup jobId = some phase →
      s.tasks.lookup jobId = some phase ∨ s.Enters store' jobId phase) :
    Orderly { s with store := store', tasks := tasks' } where
  filed := h.filed.evolves hevolves
  task {jobId phase} hphase := by
    obtain hold | hnew := htasks jobId phase hphase
    · exact (h.task hold).evolves hevolves
    · exact hnew.follows
  queued {operationId nodeId target'} hfound hqueued := by
    -- A queued target has not moved, and no task has begun to submit it.
    obtain ⟨target, hbefore, hmoves⟩ := hevolves.back hfound
    obtain rfl := hmoves.queued hqueued
    obtain ⟨hnew, hcomposing, hwaiting⟩ := h.queued hbefore hqueued
    refine ⟨hnew, ?_, ?_⟩
    · intro task hphase hsubmits
      obtain hold | henters := htasks _ _ hphase
      · exact hcomposing task hold hsubmits
      · exact (henters.composing task rfl hsubmits).2 _ _ _ hfound rfl hqueued
    · intro task number hphase hsubmits
      obtain hold | henters := htasks _ _ hphase
      · exact hwaiting task number hold hsubmits
      · exact henters.waiting task number rfl hsubmits
  composing {jobId task} hphase hsubmits := by
    obtain hold | henters := htasks _ _ hphase
    · exact h.composing hold hsubmits
    · exact (henters.composing task rfl hsubmits).1
  waiting {jobId task number} hphase hsubmits := by
    obtain hold | henters := htasks _ _ hphase
    · exact h.waiting hold hsubmits
    · exact absurd hsubmits (henters.waiting task number rfl)
  traced := h.traced
  once := h.once
  number := h.number
  unique := h.unique
  same := h.same
  numbers := h.numbers
  called := h.called
  replied := h.replied
  call := h.call
  known := h.known
  launched := h.launched
  refusal := h.refusal
  refused := h.refused
  withdrawn := h.withdrawn
  reserved {operationId nodeId target'} hfound := by
    obtain ⟨target, hbefore, hmoves⟩ := hevolves.back hfound
    rw [hmoves.jobId, hmoves.reservations]
    exact h.reserved hbefore
  answered := h.answered

/-- A job is withdrawn or refused: it is not queued and no task submits it. -/
theorem Orderly.note (h : s.Orderly) {event : JobEvent} {jobId : Identity}
    (hevent : event = .withdrawn jobId ∨ event = .refused jobId)
    (hdrawn : jobId ∈ s.drawn)
    (hqueued : ∀ operationId nodeId target, s.store.target operationId nodeId = some target →
      target.jobId = jobId → target.state ≠ .queued)
    (hidle : ∀ task, s.tasks.lookup jobId = some (.composing task) → ¬task.Submits)
    (hwithdrawn : event = .withdrawn jobId → ∀ number, .sent jobId number ∉ s.history)
    (hrefused : event = .refused jobId → s.Absent jobId) :
    Orderly { s with history := event :: s.history } := by
  have hconcerns (other : Identity) (hother : event.Concerns other) : other = jobId := by
    rcases hevent with rfl | rfl <;> exact hother.symm
  have hsent (other : Identity) (number : ℕ) :
      .sent other number ∈ event :: s.history ↔ .sent other number ∈ s.history := by
    rcases hevent with rfl | rfl <;> simp
  have hnew {other : Identity} (hne : other ≠ jobId) (hold : s.New other) :
      New { s with history := event :: s.history } other := by
    intro found hfound
    obtain rfl | hfound := List.mem_cons.mp hfound
    · exact fun hother => hne (hconcerns other hother)
    · exact hold found hfound
  constructor
  case filed => exact h.filed
  case task => exact h.task
  case queued =>
    intro operationId nodeId target hfound hstate
    obtain ⟨hold, hrest⟩ := h.queued hfound hstate
    exact ⟨hnew (fun heq => hqueued _ _ _ hfound heq hstate) hold, hrest⟩
  case composing =>
    intro other task hphase hsubmits
    refine hnew ?_ (h.composing hphase hsubmits)
    rintro rfl
    exact hidle task hphase hsubmits
  case waiting =>
    intro other task number hphase hsubmits
    exact (hsent _ _).mpr (h.waiting hphase hsubmits)
  case traced =>
    intro found hfound other hother
    obtain rfl | hfound := List.mem_cons.mp hfound
    · exact hconcerns other hother ▸ hdrawn
    · exact h.traced found hfound other hother
  case once =>
    intro other
    rcases hevent with rfl | rfl <;> exact h.once other
  case number =>
    intro other number hmem
    exact h.number ((hsent _ _).mp hmem)
  case unique =>
    intro other number number' hmem hmem'
    exact h.unique ((hsent _ _).mp hmem) ((hsent _ _).mp hmem')
  case same =>
    intro other other' number hmem hmem'
    exact h.same ((hsent _ _).mp hmem) ((hsent _ _).mp hmem')
  case numbers => exact h.numbers
  case called => exact h.called
  case replied => exact h.replied
  case call =>
    intro call hcall other hsubmits
    obtain ⟨hmem, hknown⟩ := h.call call hcall other hsubmits
    exact ⟨(hsent _ _).mpr hmem, hknown⟩
  case known =>
    intro nodeId other reservations hknown
    obtain ⟨number, hmem⟩ := h.known hknown
    exact ⟨number, (hsent _ _).mpr hmem⟩
  case launched => exact h.launched
  case refusal =>
    intro number text hreply other hmem
    exact h.refusal hreply other ((hsent _ _).mp hmem)
  case refused =>
    intro other hmem
    obtain heq | hmem := List.mem_cons.mp hmem
    · obtain rfl := hconcerns other (heq ▸ rfl)
      exact hrefused heq.symm
    · exact h.refused hmem
  case withdrawn =>
    intro other hmem number
    rw [hsent]
    obtain heq | hmem := List.mem_cons.mp hmem
    · obtain rfl := hconcerns other (heq ▸ rfl)
      exact hwithdrawn heq.symm number
    · exact h.withdrawn hmem number
  case reserved => exact h.reserved
  case answered => exact h.answered

/-- A new operation with new identities for its jobs. -/
theorem Orderly.inserts (h : s.Orderly) {operationId : Identity} {request : JobRequest}
    {jobId : Identity → Identity} (hinserts : Inserts s.store operationId request jobId store')
    (hnew : ∀ id ∈ request.nodeIds.map jobId, id ∉ s.drawn)
    (hdistinct : (request.nodeIds.map jobId).Nodup) :
    Orderly { s with
      store := store', drawn := s.drawn ∪ (request.nodeIds.map jobId).toFinset } where
  filed := h.filed.inserts hinserts hnew hdistinct
  task hphase := (h.task hphase).inserts hinserts
  queued {other nodeId target} hfound hqueued := by
    obtain hold | ⟨-, hnode, rfl⟩ := hinserts.cases hfound
    · exact h.queued hold hqueued
    -- Nothing has happened to an identity that is not drawn.
    have habsent := hnew _ (List.mem_map_of_mem hnode)
    refine ⟨fun event hevent hconcerns => habsent (h.traced event hevent _ hconcerns), ?_, ?_⟩
    · intro task hphase
      exact absurd ((h.task hphase).drawn h.filed) habsent
    · intro task number hphase
      exact absurd ((h.task hphase).drawn h.filed) habsent
  composing := h.composing
  waiting := h.waiting
  traced event hevent jobId hconcerns :=
    Finset.mem_union_left _ (h.traced event hevent jobId hconcerns)
  once := h.once
  number := h.number
  unique := h.unique
  same := h.same
  numbers := h.numbers
  called := h.called
  replied := h.replied
  call := h.call
  known := h.known
  launched := h.launched
  refusal := h.refusal
  refused := h.refused
  withdrawn := h.withdrawn
  reserved {other nodeId target} hfound := by
    obtain hold | ⟨-, hnode, rfl⟩ := hinserts.cases hfound
    · exact h.reserved hold
    have habsent := hnew _ (List.mem_map_of_mem hnode)
    have hsent (number : ℕ) : .sent (jobId nodeId) number ∉ s.history :=
      fun hmem => habsent (h.traced _ hmem _ rfl)
    constructor
    · intro helper reservations hknown
      obtain ⟨number, hmem⟩ := h.known hknown
      exact absurd hmem (hsent number)
    · intro call hcall hid job node haction
      exact absurd (h.call call hcall _ ⟨hid, job, node, haction⟩).1 (hsent _)
  answered := h.answered

end Store

section Calls

variable {s : Machine}

/-- A task that submits its job makes the call. -/
theorem Orderly.send (h : s.Orderly) {jobId : Identity} {task : Task} {job : Job}
    {nodeId : Identity} (hphase : s.tasks.lookup jobId = some (.composing task))
    (haction : task.action = .submit job nodeId) :
    Orderly { s with
      tasks := s.tasks.insert jobId (.waiting task s.sent)
      calls := ⟨s.sent, task.target.nodeId, ⟨s.controllerId, jobId, task.action⟩⟩ :: s.calls
      sent := s.sent + 1
      history := .sent jobId s.sent :: s.history } := by
  have hsubmits : task.Submits := ⟨job, nodeId, haction⟩
  have hnew : s.New jobId := h.composing hphase hsubmits
  have hfollows := h.task hphase
  -- Nothing was sent for the job so far.
  have hunsent (number : ℕ) : .sent jobId number ∉ s.history := fun hmem => hnew _ hmem rfl
  have hunknown (helper : Identity) : (s.helpers helper).known jobId = none := by
    cases hknown : (s.helpers helper).known jobId with
    | none => rfl
    | some reservations =>
      obtain ⟨number, hmem⟩ := h.known hknown
      exact absurd hmem (hunsent number)
  have hnewer {other : Identity} (hne : other ≠ jobId) (hold : s.New other) :
      ∀ event ∈ JobEvent.sent jobId s.sent :: s.history, ¬event.Concerns other := by
    intro event hevent
    obtain rfl | hevent := List.mem_cons.mp hevent
    · exact fun heq => hne heq.symm
    · exact hold event hevent
  have hlookup (other : Identity) (hne : other ≠ jobId) :
      (s.tasks.insert jobId (.waiting task s.sent)).lookup other = s.tasks.lookup other :=
    AList.lookup_insert_ne hne
  have hself : (s.tasks.insert jobId (.waiting task s.sent)).lookup jobId =
      some (.waiting task s.sent) := AList.lookup_insert _
  -- A job that is absent is not the one whose submission is sent.
  have habsent {other : Identity} (hne : other ≠ jobId) (hold : s.Absent other) :
      ∀ call ∈ (⟨s.sent, task.target.nodeId, ⟨s.controllerId, jobId, task.action⟩⟩ : Call) ::
        s.calls, ¬call.Submits other := by
    intro call hcall
    obtain rfl | hcall := List.mem_cons.mp hcall
    · exact fun hother => hne hother.1.symm
    · exact hold.2 call hcall
  constructor
  case filed => exact h.filed
  case task =>
    intro other phase hother
    by_cases hne : other = jobId
    · subst hne
      obtain rfl := Option.some.inj (hself.symm.trans hother)
      exact hfollows
    · exact h.task ((hlookup other hne).symm.trans hother)
  case queued =>
    intro operationId node target hfound hqueued
    obtain ⟨hold, hidle⟩ := h.queued hfound hqueued
    have hne : target.jobId ≠ jobId := by
      intro heq
      rw [heq] at hidle
      exact hidle.1 task hphase hsubmits
    refine ⟨hnewer hne hold, ?_, ?_⟩
    · intro other hother
      exact hidle.1 other ((hlookup _ hne).symm.trans hother)
    · intro other number hother
      exact hidle.2 other number ((hlookup _ hne).symm.trans hother)
  case composing =>
    intro other task' hother hsubmits'
    have hne : other ≠ jobId := by
      rintro rfl
      cases hself.symm.trans hother
    exact hnewer hne (h.composing ((hlookup other hne).symm.trans hother) hsubmits')
  case waiting =>
    intro other task' number hother hsubmits'
    by_cases hne : other = jobId
    · subst hne
      cases hself.symm.trans hother
      exact List.mem_cons_self
    · exact List.mem_cons_of_mem _ (h.waiting ((hlookup other hne).symm.trans hother) hsubmits')
  case traced =>
    intro event hevent other hconcerns
    obtain rfl | hevent := List.mem_cons.mp hevent
    · exact hconcerns ▸ hfollows.drawn h.filed
    · exact h.traced event hevent other hconcerns
  case once =>
    intro other
    rw [List.countP_cons]
    by_cases hne : jobId = other
    · subst hne
      have hzero : s.history.countP (JobEvent.sends jobId) = 0 := by
        rw [List.countP_eq_zero]
        rintro (⟨other, number⟩ | other | other) hevent <;> intro hsends
        · obtain rfl : other = jobId := by simpa [JobEvent.sends] using hsends
          exact hunsent number hevent
        · cases hsends
        · cases hsends
      rw [hzero]
      split_ifs <;> omega
    · have hfalse : JobEvent.sends other (.sent jobId s.sent) = false := by
        simpa [JobEvent.sends] using hne
      rw [hfalse]
      exact h.once other
  case number =>
    intro other number hmem
    obtain heq | hmem := List.mem_cons.mp hmem
    · cases heq
      exact Nat.lt_succ_self _
    · exact Nat.lt_succ_of_lt (h.number hmem)
  case unique =>
    intro other number number' hmem hmem'
    obtain heq | hmem := List.mem_cons.mp hmem <;>
      obtain heq' | hmem' := List.mem_cons.mp hmem'
    · cases heq
      cases heq'
      rfl
    · cases heq
      exact absurd hmem' (hunsent _)
    · cases heq'
      exact absurd hmem (hunsent _)
    · exact h.unique hmem hmem'
  case same =>
    intro other other' number hmem hmem'
    obtain heq | hmem := List.mem_cons.mp hmem <;>
      obtain heq' | hmem' := List.mem_cons.mp hmem'
    · cases heq
      cases heq'
      rfl
    · cases heq
      exact absurd (h.number hmem') (lt_irrefl _)
    · cases heq'
      exact absurd (h.number hmem) (lt_irrefl _)
    · exact h.same hmem hmem'
  case numbers =>
    rw [List.map_cons, List.nodup_cons]
    refine ⟨?_, h.numbers⟩
    intro hmem
    obtain ⟨call, hcall, heq⟩ := List.mem_map.mp hmem
    exact absurd heq (h.called call hcall).ne
  case called =>
    intro call hcall
    obtain rfl | hcall := List.mem_cons.mp hcall
    · exact Nat.lt_succ_self _
    · exact Nat.lt_succ_of_lt (h.called call hcall)
  case replied =>
    intro reply hreply
    exact Nat.lt_succ_of_lt (h.replied reply hreply)
  case call =>
    intro call hcall other hother
    obtain rfl | hcall := List.mem_cons.mp hcall
    · obtain rfl : jobId = other := hother.1
      exact ⟨List.mem_cons_self, hunknown⟩
    · obtain ⟨hmem, hknown⟩ := h.call call hcall other hother
      exact ⟨List.mem_cons_of_mem _ hmem, hknown⟩
  case known =>
    intro helper other reservations hknown
    obtain ⟨number, hmem⟩ := h.known hknown
    exact ⟨number, List.mem_cons_of_mem _ hmem⟩
  case launched => exact h.launched
  case refusal =>
    intro number text hreply other hmem
    obtain heq | hmem := List.mem_cons.mp hmem
    · cases heq
      exact absurd (h.replied _ hreply) (lt_irrefl _)
    · have hold := h.refusal hreply other hmem
      have hne : other ≠ jobId := fun heq => hunsent number (heq ▸ hmem)
      exact ⟨hold.1, habsent hne hold⟩
  case refused =>
    intro other hmem
    obtain heq | hmem := List.mem_cons.mp hmem
    · cases heq
    · have hold := h.refused hmem
      have hne : other ≠ jobId := fun heq => hnew _ hmem heq
      exact ⟨hold.1, habsent hne hold⟩
  case withdrawn =>
    intro other hmem number hsent
    obtain heq | hmem := List.mem_cons.mp hmem
    · cases heq
    obtain heq | hsent := List.mem_cons.mp hsent
    · cases heq
      exact hnew _ hmem rfl
    · exact h.withdrawn hmem number hsent
  case reserved =>
    intro operationId node target hfound
    obtain ⟨hknown, hcalls⟩ := h.reserved hfound
    refine ⟨hknown, ?_⟩
    intro call hcall hid job' node' haction'
    obtain rfl | hcall := List.mem_cons.mp hcall
    · obtain ⟨-, -, latest, hlatest, hid', hreservations⟩ := hfollows
      -- The target of the call is the one that the task has read.
      obtain ⟨rfl, rfl⟩ := h.filed.located hlatest hfound (hid'.trans hid).symm
      obtain rfl := Option.some.inj (hlatest.symm.trans hfound)
      exact hreservations job' node' haction'
    · exact hcalls call hcall hid job' node' haction'
  case answered => exact h.answered

/-- A call that does not submit a job. -/
theorem Orderly.ask (h : s.Orderly) {nodeId : Identity} {payload : Payload}
    (haction : ∀ job nodeId, payload.action ≠ .submit job nodeId) :
    Orderly { s with calls := ⟨s.sent, nodeId, payload⟩ :: s.calls, sent := s.sent + 1 } := by
  have hsubmits {call : Call} (hcall : call ∈ (⟨s.sent, nodeId, payload⟩ : Call) :: s.calls)
      {job : Job} {node : Identity} (hsubmit : call.payload.action = .submit job node) :
      call ∈ s.calls := by
    obtain rfl | hcall := List.mem_cons.mp hcall
    · exact absurd hsubmit (haction job node)
    · exact hcall
  have habsent {jobId : Identity} (hold : s.Absent jobId) :
      ∀ call ∈ (⟨s.sent, nodeId, payload⟩ : Call) :: s.calls, ¬call.Submits jobId := by
    rintro call hcall ⟨hid, job, node, hsubmit⟩
    exact hold.2 call (hsubmits hcall hsubmit) ⟨hid, job, node, hsubmit⟩
  constructor
  case filed => exact h.filed
  case task => exact h.task
  case queued => exact h.queued
  case composing => exact h.composing
  case waiting => exact h.waiting
  case traced => exact h.traced
  case once => exact h.once
  case number => exact fun hmem => Nat.lt_succ_of_lt (h.number hmem)
  case unique => exact h.unique
  case same => exact h.same
  case numbers =>
    rw [List.map_cons, List.nodup_cons]
    refine ⟨?_, h.numbers⟩
    intro hmem
    obtain ⟨call, hcall, heq⟩ := List.mem_map.mp hmem
    exact absurd heq (h.called call hcall).ne
  case called =>
    intro call hcall
    obtain rfl | hcall := List.mem_cons.mp hcall
    · exact Nat.lt_succ_self _
    · exact Nat.lt_succ_of_lt (h.called call hcall)
  case replied => exact fun reply hreply => Nat.lt_succ_of_lt (h.replied reply hreply)
  case call =>
    rintro call hcall jobId ⟨hid, job, node, hsubmit⟩
    exact h.call call (hsubmits hcall hsubmit) jobId ⟨hid, job, node, hsubmit⟩
  case known => exact h.known
  case launched => exact h.launched
  case refusal =>
    intro number text hreply jobId hmem
    have hold := h.refusal hreply jobId hmem
    exact ⟨hold.1, habsent hold⟩
  case refused =>
    intro jobId hmem
    have hold := h.refused hmem
    exact ⟨hold.1, habsent hold⟩
  case withdrawn => exact h.withdrawn
  case reserved =>
    intro operationId node target hfound
    obtain ⟨hknown, hcalls⟩ := h.reserved hfound
    refine ⟨hknown, ?_⟩
    intro call hcall hid job node' hsubmit
    exact hcalls call (hsubmits hcall hsubmit) hid job node' hsubmit
  case answered => exact h.answered

/-- What the network and the helpers may do: calls and replies get lost, and a request is published
only for a call that is used up with it. -/
structure Delivers (s : Machine) (helpers' : Identity → Helper) (calls' : List Call)
    (replies' : List (ℕ × Reply)) : Prop where
  calls : calls'.Sublist s.calls
  kept : ∀ {nodeId jobId : Identity} {reservations : List Reservation},
    (s.helpers nodeId).known jobId = some reservations →
    (helpers' nodeId).known jobId = some reservations
  published : ∀ {nodeId jobId : Identity} {reservations : List Reservation},
    (helpers' nodeId).known jobId = some reservations →
    (s.helpers nodeId).known jobId = some reservations ∨
      (∀ call ∈ calls', ¬call.Submits jobId) ∧
        ∃ call ∈ s.calls, call.payload.jobId = jobId ∧ ∃ job node,
          call.payload.action = .submit job node ∧ reservations = job.reservations node
  launched : ∀ {nodeId jobId : Identity}, jobId ∈ (helpers' nodeId).launched →
    (helpers' nodeId).known jobId ≠ none
  number : ∀ reply ∈ replies', reply.1 < s.sent
  answered : ∀ {number : ℕ} {response : Response}, (number, .result response) ∈ replies' →
    (number, .result response) ∈ s.replies ∨ ∀ reservations ∈ response.reservations,
      ∃ nodeId, (helpers' nodeId).known response.jobId = some reservations
  refusal : ∀ {number : ℕ} {text : String}, (number, .error text false) ∈ replies' →
    (number, .error text false) ∈ s.replies ∨ ∀ jobId, .sent jobId number ∈ s.history →
      (∀ nodeId, (helpers' nodeId).known jobId = none) ∧ ∀ call ∈ calls', ¬call.Submits jobId

theorem Orderly.delivers (h : s.Orderly) {helpers' : Identity → Helper} {calls' : List Call}
    {replies' : List (ℕ × Reply)} (hdelivers : s.Delivers helpers' calls' replies') :
    Orderly { s with helpers := helpers', calls := calls', replies := replies' } := by
  have habsent {jobId : Identity} (hold : s.Absent jobId) :
      (∀ nodeId, (helpers' nodeId).known jobId = none) ∧ ∀ call ∈ calls', ¬call.Submits jobId := by
    refine ⟨?_, fun call hcall => hold.2 call (hdelivers.calls.subset hcall)⟩
    intro nodeId
    cases hknown : (helpers' nodeId).known jobId with
    | none => rfl
    | some reservations =>
      obtain hbefore | ⟨-, call, hcall, hid, job, node, hsubmit, -⟩ := hdelivers.published hknown
      · rw [hold.1 nodeId] at hbefore
        cases hbefore
      · exact absurd ⟨hid, job, node, hsubmit⟩ (hold.2 call hcall)
  constructor
  case filed => exact h.filed
  case task => exact h.task
  case queued => exact h.queued
  case composing => exact h.composing
  case waiting => exact h.waiting
  case traced => exact h.traced
  case once => exact h.once
  case number => exact h.number
  case unique => exact h.unique
  case same => exact h.same
  case numbers => exact (hdelivers.calls.map Call.number).nodup h.numbers
  case called => exact fun call hcall => h.called call (hdelivers.calls.subset hcall)
  case replied => exact hdelivers.number
  case call =>
    intro call hcall jobId hsubmits
    obtain ⟨hsent, hunknown⟩ := h.call call (hdelivers.calls.subset hcall) jobId hsubmits
    refine ⟨hsent, fun nodeId => ?_⟩
    cases hknown : (helpers' nodeId).known jobId with
    | none => rfl
    | some reservations =>
      obtain hbefore | ⟨hnone, -⟩ := hdelivers.published hknown
      · rw [hunknown nodeId] at hbefore
        cases hbefore
      · exact absurd hsubmits (hnone call hcall)
  case known =>
    intro nodeId jobId reservations hknown
    obtain hbefore | ⟨-, call, hcall, hid, job, node, hsubmit, -⟩ := hdelivers.published hknown
    · exact h.known hbefore
    · exact ⟨call.number, (h.call call hcall jobId ⟨hid, job, node, hsubmit⟩).1⟩
  case launched => exact hdelivers.launched
  case refusal =>
    intro number text hreply jobId hmem
    obtain hold | hnew := hdelivers.refusal hreply
    · exact habsent (h.refusal hold jobId hmem)
    · exact hnew jobId hmem
  case refused => exact fun hmem => habsent (h.refused hmem)
  case withdrawn => exact h.withdrawn
  case reserved =>
    intro operationId nodeId target hfound
    obtain ⟨hknown, hcalls⟩ := h.reserved hfound
    refine ⟨?_, fun call hcall => hcalls call (hdelivers.calls.subset hcall)⟩
    intro helper reservations hafter
    obtain hbefore | ⟨-, call, hcall, hid, job, node, hsubmit, rfl⟩ := hdelivers.published hafter
    · exact hknown helper reservations hbefore
    · exact hcalls call hcall hid job node hsubmit
  case answered =>
    intro number response hreply reservations hmem
    obtain hold | hnew := hdelivers.answered hreply
    · obtain ⟨nodeId, hknown⟩ := h.answered hold reservations hmem
      exact ⟨nodeId, hdelivers.kept hknown⟩
    · exact hnew reservations hmem

/-- Calls and replies get lost. -/
theorem delivers_lost (h : s.Orderly) {calls' : List Call} {replies' : List (ℕ × Reply)}
    (hcalls : calls'.Sublist s.calls) (hreplies : replies' ⊆ s.replies) :
    s.Delivers s.helpers calls' replies' where
  calls := hcalls
  kept hknown := hknown
  published hknown := .inl hknown
  launched := h.launched
  number reply hreply := h.replied reply (hreplies hreply)
  answered hreply := .inl (hreplies hreply)
  refusal hreply := .inl (hreplies hreply)

/-- A result is written beside a request. -/
theorem delivers_complete (h : s.Orderly) (nodeId : Identity) {helper : Helper}
    (hkeeps : Helper.Keeps (s.helpers nodeId) helper) :
    s.Delivers (Function.update s.helpers nodeId helper) s.calls s.replies := by
  have hsame (other : Identity) :
      Helper.Keeps (s.helpers other) (Function.update s.helpers nodeId helper other) := by
    by_cases hother : other = nodeId
    · rw [hother, Function.update_self]
      exact hkeeps
    · rw [Function.update_of_ne hother]
      exact .refl _
  refine ⟨.refl _, ?_, ?_, ?_, h.replied, .inl, .inl⟩
  · intro other jobId reservations hknown
    rw [(hsame other).known, hknown]
  · intro other jobId reservations hknown
    rw [(hsame other).known] at hknown
    exact .inl hknown
  · intro other jobId hmem
    rw [(hsame other).launched] at hmem
    rw [(hsame other).known]
    exact h.launched hmem

variable [Hash (Job × Identity)]

/-- A helper handles a call. -/
theorem delivers_handle (h : s.Orderly) {index : ℕ} {call : Call} (env : Environment)
    (hcall : s.calls[index]? = some call) :
    s.Delivers
      (Function.update s.helpers call.nodeId ((s.helpers call.nodeId).main env call.payload).1)
      (s.calls.eraseIdx index)
      ((call.number, ((s.helpers call.nodeId).main env call.payload).2) :: s.replies) := by
  obtain ⟨hhandles, hresult, herror⟩ := (s.helpers call.nodeId).main_spec env call.payload
  generalize (s.helpers call.nodeId).main env call.payload = result at hhandles hresult herror
  have hmem : call ∈ s.calls := List.mem_of_getElem? hcall
  -- The number of the call is not used by the others, so that no other call submits the same job.
  have hothers {jobId : Identity} (hsubmits : call.Submits jobId) :
      ∀ other ∈ s.calls.eraseIdx index, ¬other.Submits jobId := by
    obtain ⟨hlt, rfl⟩ := List.getElem?_eq_some_iff.mp hcall
    have hnodup : (s.calls[index].number :: (s.calls.eraseIdx index).map Call.number).Nodup :=
      ((List.getElem_cons_eraseIdx_perm hlt).map Call.number).nodup_iff.mpr h.numbers
    intro other hother hsubmits'
    have heq := h.unique (h.call _ hmem jobId hsubmits).1
      (h.call other (List.mem_of_mem_eraseIdx hother) jobId hsubmits').1
    refine (List.nodup_cons.mp hnodup).1 ?_
    rw [← heq]
    exact List.mem_map_of_mem hother
  -- What becomes of the helper of the call and of the others.
  have hself : Function.update s.helpers call.nodeId result.1 call.nodeId = result.1 :=
    Function.update_self ..
  have hother (nodeId : Identity) (hne : nodeId ≠ call.nodeId) :
      Function.update s.helpers call.nodeId result.1 nodeId = s.helpers nodeId :=
    Function.update_of_ne hne ..
  constructor
  case calls => exact List.eraseIdx_sublist ..
  case kept =>
    intro nodeId jobId reservations hknown
    by_cases hne : nodeId = call.nodeId
    · subst hne
      rw [hself]
      cases hhandles with
      | kept keeps => rw [keeps.known, hknown]
      | published action absent known launched =>
        have hid : jobId ≠ call.payload.jobId := by
          rintro rfl
          rw [absent] at hknown
          cases hknown
        rw [known, Function.update_of_ne hid, hknown]
    · rw [hother nodeId hne]
      exact hknown
  case published =>
    intro nodeId jobId reservations hknown
    by_cases hne : nodeId = call.nodeId
    · subst hne
      rw [hself] at hknown
      cases hhandles with
      | kept keeps => exact .inl (keeps.known ▸ hknown)
      | @published job node action absent known launched =>
        by_cases hid : jobId = call.payload.jobId
        · subst hid
          rw [known, Function.update_self] at hknown
          exact .inr ⟨hothers ⟨rfl, job, node, action⟩, call, hmem, rfl, job, node, action,
            (Option.some.inj hknown).symm⟩
        · rw [known, Function.update_of_ne hid] at hknown
          exact .inl hknown
    · rw [hother nodeId hne] at hknown
      exact .inl hknown
  case launched =>
    intro nodeId jobId hlaunched
    by_cases hne : nodeId = call.nodeId
    · subst hne
      rw [hself] at hlaunched ⊢
      cases hhandles with
      | kept keeps =>
        rw [keeps.launched] at hlaunched
        rw [keeps.known]
        exact h.launched hlaunched
      | published action absent known launched =>
        rw [launched] at hlaunched
        rw [known]
        by_cases hid : jobId = call.payload.jobId
        · rw [hid, Function.update_self]
          exact Option.some_ne_none _
        · rw [Function.update_of_ne hid]
          exact h.launched ((List.mem_cons.mp hlaunched).resolve_left hid)
    · rw [hother nodeId hne] at hlaunched ⊢
      exact h.launched hlaunched
  case number =>
    intro reply hreply
    obtain rfl | hreply := List.mem_cons.mp hreply
    · exact h.called call hmem
    · exact h.replied reply hreply
  case answered =>
    intro number response hreply
    obtain heq | hreply := List.mem_cons.mp hreply
    · obtain ⟨hid, hreservations⟩ := hresult response (Prod.mk.inj heq).2.symm
      refine .inr fun reservations hgiven => ⟨call.nodeId, ?_⟩
      rw [hself, hid]
      exact hreservations reservations hgiven
    · exact .inl hreply
  case refusal =>
    intro number text hreply
    obtain heq | hreply := List.mem_cons.mp hreply
    · obtain ⟨hnumber, herror'⟩ := Prod.mk.inj heq
      obtain ⟨⟨job, node, haction⟩, hunknown⟩ := herror text herror'.symm
      have hsubmits : call.Submits call.payload.jobId := ⟨rfl, job, node, haction⟩
      obtain ⟨hsent, hnone⟩ := h.call call hmem _ hsubmits
      refine .inr fun jobId hjob => ?_
      -- The call was the submission of the job, and the number is used for no other.
      obtain rfl : jobId = call.payload.jobId := h.same hsent (hnumber ▸ hjob)
      refine ⟨fun nodeId => ?_, hothers hsubmits⟩
      by_cases hne : nodeId = call.nodeId
      · rw [hne, hself]
        exact hunknown
      · rw [hother nodeId hne]
        exact hnone nodeId
    · exact .inl hreply

end Calls

end Machine

end Ficc.Jobs
