import Ficc.Jobs.Dispatch

/-!
# Runs of managed jobs

Every step keeps `Orderly`, and targets only move. From this follows what a user may rely on: a
machine has at most one target that is not final, a submission is sent at most once, a final target
stays as it is, a job that was cancelled while it was queued is not sent, and a job that failed
because of a refusal is at no helper.
-/

namespace Ficc.Jobs

open Execution JobStore

namespace JobStore

/-- Every target of the first store is in the second one, where it may have moved. -/
structure Extends (store store' : JobStore) : Prop where
  target : ∀ {operationId nodeId : Identity} {target : Target},
    store.target operationId nodeId = some target →
    ∃ target', store'.target operationId nodeId = some target' ∧ Moves target target'

variable {store store' store'' : JobStore}

theorem Extends.refl (store : JobStore) : Extends store store :=
  ⟨fun hfound => ⟨_, hfound, .refl _⟩⟩

theorem Extends.trans (h : Extends store store') (h' : Extends store' store'') :
    Extends store store'' where
  target hfound := by
    obtain ⟨target', hfound', hmoves⟩ := h.target hfound
    obtain ⟨target'', hfound'', hmoves'⟩ := h'.target hfound'
    exact ⟨target'', hfound'', hmoves.trans hmoves'⟩

theorem Evolves.toExtends (h : Evolves store store') : Extends store store' := ⟨h.forth⟩

end JobStore

namespace Machine

section Ends

variable {s : Machine} {jobId : Identity}

/-- A new job is at no helper, and its submission is not on its way. -/
theorem Orderly.absent_of_new (h : s.Orderly) (hnew : s.New jobId) : s.Absent jobId := by
  have hunsent (number : ℕ) : .sent jobId number ∉ s.history := fun hmem => hnew _ hmem rfl
  constructor
  · intro nodeId
    cases hknown : (s.helpers nodeId).known jobId with
    | none => rfl
    | some reservations =>
      obtain ⟨number, hmem⟩ := h.known hknown
      exact absurd hmem (hunsent number)
  · intro call hcall hsubmits
    exact hunsent _ (h.call call hcall jobId hsubmits).1

/-- The task of another job, when one has ended. -/
theorem lookup_of_erase {tasks : Table Identity Phase} {other : Identity} {phase : Phase}
    (h : (tasks.erase jobId).lookup other = some phase) :
    other ≠ jobId ∧ tasks.lookup other = some phase := by
  have hne : other ≠ jobId := by
    rintro rfl
    rw [AList.lookup_erase] at h
    cases h
  rw [AList.lookup_erase_ne hne] at h
  exact ⟨hne, h⟩

/-- A task ends. When its job is recorded as refused, the job is absent and not queued. -/
theorem Orderly.close (h : s.Orderly) {store' : JobStore} (hevolves : Evolves s.store store')
    (jobId : Identity) {P : Prop} [Decidable P]
    (hrefused : P → jobId ∈ s.drawn ∧ s.Absent jobId ∧ ∀ operationId nodeId target,
      store'.target operationId nodeId = some target → target.jobId = jobId →
      target.state ≠ .queued) :
    Orderly { s with
      store := store', tasks := s.tasks.erase jobId
      history := if P then .refused jobId :: s.history else s.history } := by
  have hsettled : Orderly { s with store := store', tasks := s.tasks.erase jobId } :=
    h.settle hevolves fun other phase hphase => .inl (lookup_of_erase hphase).2
  by_cases hP : P
  · simp only [if_pos hP]
    obtain ⟨hdrawn, habsent, hqueued⟩ := hrefused hP
    refine hsettled.note (.inr rfl) hdrawn hqueued ?_ nofun fun _ => habsent
    intro task hphase
    exact absurd rfl (lookup_of_erase hphase).1
  · simp only [if_neg hP]
    exact hsettled

/-- A target that was not failed before a step and is failed after it. -/
theorem failed_of_stateOf {store store' : JobStore} {operationId nodeId : Identity}
    (hevolves : Evolves store store')
    (h : stateOf store operationId nodeId ≠ some .failed ∧
      stateOf store' operationId nodeId = some .failed) :
    ∃ target target', store.target operationId nodeId = some target ∧
      store'.target operationId nodeId = some target' ∧ Moves target target' ∧
      target.state ≠ .failed ∧ target'.state = .failed := by
  obtain ⟨hbefore, hafter⟩ := h
  obtain ⟨target', hfound', hfailed⟩ := Option.map_eq_some_iff.mp hafter
  obtain ⟨target, hfound, hmoves⟩ := hevolves.back hfound'
  refine ⟨target, target', hfound, hfound', hmoves, ?_, hfailed⟩
  intro heq
  rw [stateOf, hfound, Option.map_some, heq] at hbefore
  exact hbefore rfl

/-- A task ends with a failure. When the failure is a refusal, the job must be absent. -/
theorem Orderly.failTask (h : s.Orderly) {phase : Phase} {task : Task} {error : Error}
    (hphase : s.tasks.lookup jobId = some phase)
    (htask : phase = .composing task ∨ ∃ number, phase = .waiting task number)
    (habsent : ∀ code message status, error = .failure code message status →
      Refused code status → task.Submits → s.Absent jobId) :
    (s.failTask jobId task error).Orderly := by
  have hfollows := h.task hphase
  have hevolves := evolves_fail s.store task error
  obtain ⟨hsubmits, latest, hlatest, hid⟩ : (task.Submits ↔ task.target.state = .queued) ∧
      ∃ latest, s.store.target task.operationId task.target.nodeId = some latest ∧
        latest.jobId = jobId := by
    rcases htask with rfl | ⟨number, rfl⟩ <;>
      obtain ⟨-, hsubmits, latest, hlatest, hid, -⟩ := hfollows <;>
      exact ⟨hsubmits, latest, hlatest, hid⟩
  refine h.close hevolves jobId fun hfailed => ?_
  obtain ⟨target, target', hfound, hfound', hmoves, hopen, hfailed⟩ :=
    failed_of_stateOf hevolves hfailed
  obtain ⟨hqueued, code, message, status, herror, hrefused⟩ :=
    refused_of_fail hfound hfound' hopen hfailed
  refine ⟨hfollows.drawn h.filed, habsent code message status herror hrefused
    (hsubmits.mpr hqueued), ?_⟩
  -- The failed target is the only one of the job.
  intro operationId nodeId other hother hsame hstate
  obtain rfl := Option.some.inj (hlatest.symm.trans hfound)
  obtain ⟨rfl, rfl⟩ := (h.filed.evolves hevolves).located hfound' hother
    (by rw [hsame, hmoves.jobId, hid])
  obtain rfl := Option.some.inj (hfound'.symm.trans hother)
  rw [hfailed] at hstate
  cases hstate

/-- Jobs are withdrawn that are not queued any more, and for which nothing was sent. -/
theorem Orderly.withdraw (h : s.Orderly) (jobIds : List Identity)
    (hjobs : ∀ jobId ∈ jobIds, jobId ∈ s.drawn ∧
      (∀ operationId nodeId target, s.store.target operationId nodeId = some target →
        target.jobId = jobId → target.state ≠ .queued) ∧
      (∀ task, s.tasks.lookup jobId = some (.composing task) → ¬task.Submits) ∧
      ∀ number, .sent jobId number ∉ s.history) :
    Orderly { s with history := jobIds.map .withdrawn ++ s.history } := by
  induction jobIds with
  | nil => exact h
  | cons jobId jobIds ih =>
    obtain ⟨hdrawn, hqueued, hidle, hunsent⟩ := hjobs jobId List.mem_cons_self
    have hrest := ih fun other hother => hjobs other (List.mem_cons_of_mem _ hother)
    refine hrest.note (.inl rfl) hdrawn hqueued hidle (fun _ number hmem => ?_) nofun
    obtain hmem | hmem := List.mem_append.mp hmem
    · obtain ⟨other, -, heq⟩ := List.mem_map.mp hmem
      cases heq
    · exact hunsent number hmem

/-- Identities are drawn that are not used. -/
theorem Orderly.draw (h : s.Orderly) (jobIds : Finset Identity) :
    Orderly { s with drawn := s.drawn ∪ jobIds } :=
  { h with
    filed := { h.filed with drawn := fun hfound => Finset.mem_union_left _ (h.filed.drawn hfound) }
    traced := fun event hevent jobId hconcerns =>
      Finset.mem_union_left _ (h.traced event hevent jobId hconcerns) }

end Ends

section Steps

variable {s : Machine} [Hash JobRequest] [Hash (Job × Identity)]

/-- What every step but a submission does: it keeps what holds of all states, and targets only
move. -/
def Safe (s s' : Machine) : Prop := s'.Orderly ∧ Evolves s.store s'.store

omit [Hash JobRequest] [Hash (Job × Identity)] in
/-- Nothing has happened. -/
theorem Orderly.safe (h : s.Orderly) : Safe s s := ⟨h, .refl _⟩

omit [Hash JobRequest] [Hash (Job × Identity)] in
theorem safe_failTask (h : s.Orderly) {jobId : Identity} {phase : Phase} {task : Task}
    {error : Error} (hphase : s.tasks.lookup jobId = some phase)
    (htask : phase = .composing task ∨ ∃ number, phase = .waiting task number)
    (habsent : ∀ code message status, error = .failure code message status →
      Refused code status → task.Submits → s.Absent jobId) :
    Safe s (s.failTask jobId task error) :=
  ⟨h.failTask hphase htask habsent, (evolves_fail s.store task error)⟩

/-- A submission keeps the operations, or inserts one whose devices are free. -/
theorem submit_spec (h : s.Orderly) (previewId : Identity) (key : String) (actor : Identity)
    (now : ℚ) (operationId : Identity) (jobId : Identity → Identity) (admittance : Admittance) :
    let s' := s.step (.submit previewId key actor now operationId jobId admittance)
    s'.Orderly ∧ (s'.store = s.store ∨ ∃ request : JobRequest,
      Inserts s.store operationId request jobId s'.store ∧
        admittance.requireFree ((Table.values (request.targets jobId)).flatMap devices) = .ok ()) := by
  intro s'
  -- A submission that is refused leaves the machine as it is.
  have hsame (hstep : s' = s) : s'.Orderly ∧ (s'.store = s.store ∨ ∃ request : JobRequest,
      Inserts s.store operationId request jobId s'.store ∧ admittance.requireFree
        ((Table.values (request.targets jobId)).flatMap devices) = .ok ()) := by
    rw [hstep]
    exact ⟨h, .inl rfl⟩
  rcases hsubmit : submit s.store s.previews previewId key actor now operationId jobId admittance
    with error | ⟨operation, store'⟩
  · exact hsame (by simp only [s', step, hsubmit])
  by_cases hdrawn : (∃ id ∈ operation.request.nodeIds.map jobId, id ∈ s.drawn) ∨
      ¬(operation.request.nodeIds.map jobId).Nodup
  · exact hsame (by simp only [s', step, hsubmit, if_pos hdrawn])
  have hstep : s' = { s with
      store := store', drawn := s.drawn ∪ (operation.request.nodeIds.map jobId).toFinset } := by
    simp only [s', step, hsubmit, if_neg hdrawn]
  rw [hstep]
  obtain ⟨hnew, hdistinct⟩ := not_or.mp hdrawn
  obtain rfl | ⟨hinserts, hfree⟩ := submit_eq_ok hsubmit
  · exact ⟨h.draw _, .inl rfl⟩
  · refine ⟨h.inserts hinserts ?_ (not_not.mp hdistinct), .inr ⟨_, hinserts, hfree⟩⟩
    exact fun id hid hmem => hnew ⟨id, hid, hmem⟩

/-- A poll is safe. -/
theorem safe_poll (h : s.Orderly) (operationId nodeId : Identity) :
    Safe s (s.step (.poll operationId nodeId)) := by
  cases hfound : s.store.target operationId nodeId with
  | none =>
    simp only [step, hfound]
    exact h.safe
  | some target =>
    simp only [step, hfound]
    split_ifs
    · exact h.safe
    refine ⟨h.settle (.refl _) fun other phase hphase => ?_, .refl _⟩
    rw [Table.lookup_insert_eq] at hphase
    split_ifs at hphase with hother
    · cases hphase
      refine .inr ⟨⟨target, hfound, hother.symm⟩, ?_, ?_⟩
      · intro task heq
        cases heq
      · intro task number heq
        cases heq
    · exact .inl hphase

omit [Hash JobRequest] [Hash (Job × Identity)] in
/-- A task that is going to make a call. -/
theorem Orderly.enters (h : s.Orderly) {operationId nodeId : Identity} {target : Target}
    {store' : JobStore} {task : Task} (hfound : s.store.target operationId nodeId = some target)
    (hbegins : Begins s.store operationId nodeId target store' (some task)) :
    s.Enters store' target.jobId (.composing task) := by
  have hnode := h.filed.nodeId hfound
  have hevolves := evolves_begins hfound hbegins
  cases hbegins with
  | @submit operation found queued =>
    obtain ⟨latest, hlatest, hmoves⟩ := hevolves.forth hfound
    have hreserved := h.filed.asked (by rw [found, Option.map_some]) hfound
    refine ⟨⟨rfl, ⟨fun _ => queued, fun _ => ⟨_, _, rfl⟩⟩, latest, hnode.symm ▸ hlatest,
      hmoves.jobId, ?_⟩, ?_, ?_⟩
    · intro job node haction
      cases haction
      rw [hmoves.reservations, hreserved]
      exact Job.reservations_restrict _ _
    · rintro _ ⟨⟩ -
      refine ⟨(h.queued hfound queued).1, ?_⟩
      intro other node target' hother hid
      -- The target of the job is dispatching.
      obtain ⟨before, hbefore, hmoves'⟩ := hevolves.back hother
      obtain ⟨rfl, rfl⟩ := h.filed.located hfound hbefore (by rw [← hid, hmoves'.jobId])
      rw [target_update, if_pos ⟨rfl, rfl⟩, hfound, Option.map_some] at hother
      obtain rfl := Option.some.inj hother
      exact JobState.noConfusion
    · intro task number heq
      cases heq
  | other started action_eq =>
    refine ⟨⟨rfl, ⟨?_, fun hqueued => absurd hqueued started⟩, target, hnode.symm ▸ hfound, rfl, ?_⟩,
      ?_, ?_⟩
    · rintro ⟨job, node, haction⟩
      exact absurd haction (action_eq job node)
    · intro job node haction
      exact absurd haction (action_eq job node)
    · rintro _ ⟨⟩ ⟨job, node, haction⟩
      exact absurd haction (action_eq job node)
    · intro task number heq
      cases heq

theorem safe_begin (h : s.Orderly) (jobId : Identity) (check : Except Error Unit) :
    Safe s (s.step (.begin jobId check)) := by
  rcases hphase : s.tasks.lookup jobId with _ | (⟨operationId, nodeId⟩ | task | ⟨task, number⟩)
  case none | some.composing | some.waiting =>
    simp only [step, hphase]
    exact h.safe
  case some.started =>
    obtain ⟨target, hfound, hid⟩ := h.task hphase
    have hbegins := begins_reconcile hfound check
    have hdrawn := (h.task hphase).drawn h.filed
    simp only [step, hphase]
    generalize reconcile s.store operationId nodeId check = result at hbegins
    rcases result with ⟨store', _ | task⟩
    · have hevolves : Evolves s.store store' := evolves_begins hfound hbegins
      refine ⟨h.close hevolves jobId fun hfailed => ⟨hdrawn, ?_⟩, hevolves⟩
      obtain ⟨before, after, hbefore, hafter, hmoves, hopen, hafterFailed⟩ :=
        failed_of_stateOf hevolves hfailed
      obtain rfl := Option.some.inj (hfound.symm.trans hbefore)
      have hnode := h.filed.nodeId hfound
      have hqueued : target.state = .queued := by
        cases hbegins with
        | final terminal =>
          obtain rfl := Option.some.inj (hfound.symm.trans hafter)
          exact absurd hafterFailed hopen
        | raised =>
          rw [← hnode] at hfound hafter
          exact (refused_of_fail hfound hafter hopen hafterFailed).1
      refine ⟨h.absent_of_new (hid ▸ (h.queued hfound hqueued).1), ?_⟩
      -- The failed target is the only one of the job.
      intro other node target' hother hsame hstate
      obtain ⟨rfl, rfl⟩ := (h.filed.evolves hevolves).located hafter hother
        (by rw [hsame, hmoves.jobId, hid])
      obtain rfl := Option.some.inj (hafter.symm.trans hother)
      rw [hafterFailed] at hstate
      cases hstate
    · have hevolves : Evolves s.store store' := evolves_begins hfound hbegins
      refine ⟨h.settle hevolves fun other phase hother => ?_, hevolves⟩
      rw [Table.lookup_insert_eq] at hother
      split_ifs at hother with hsame
      · cases hother
        rw [hsame, ← hid]
        exact .inr (h.enters hfound hbegins)
      · exact .inl hother

theorem safe_send (h : s.Orderly) (jobId : Identity) (check : Except Error Unit) :
    Safe s (s.step (.send jobId check)) := by
  rcases hphase : s.tasks.lookup jobId with _ | (⟨operationId, nodeId⟩ | task | ⟨task, number⟩)
  case none | some.started | some.waiting =>
    simp only [step, hphase]
    exact h.safe
  case some.composing =>
    have hfollows := h.task hphase
    obtain rfl : task.target.jobId = jobId := hfollows.1
    rcases hrecheck : recheck s.store task check with error | ⟨⟩
    · simp only [step, hphase, hrecheck]
      refine safe_failTask h hphase (.inl rfl) ?_
      intro code message status _ _ hsubmits
      exact h.absent_of_new (h.composing hphase hsubmits)
    simp only [step, hphase, hrecheck]
    cases haction : task.action with
    | submit job nodeId =>
      have hsent := h.send hphase haction
      rw [haction] at hsent
      exact ⟨hsent, .refl _⟩
    | status | cancel force =>
      have hsubmits : ¬task.Submits := by
        rintro ⟨job, nodeId, heq⟩
        rw [haction] at heq
        cases heq
      have hwaits : Orderly { s with
          tasks := s.tasks.insert task.target.jobId (.waiting task s.sent) } := by
        refine h.settle (.refl _) fun other phase hother => ?_
        rw [Table.lookup_insert_eq] at hother
        split_ifs at hother with hsame
        · cases hother
          refine .inr ⟨hsame ▸ hfollows, ?_, ?_⟩
          · intro task' heq
            cases heq
          · rintro task' number ⟨⟩
            exact hsubmits
        · exact .inl hother
      refine ⟨hwaits.ask ?_, .refl _⟩
      intro job nodeId heq
      cases heq

theorem safe_answer (h : s.Orderly) (jobId : Identity) (index : ℕ) :
    Safe s (s.step (.answer jobId index)) := by
  rcases hphase : s.tasks.lookup jobId with _ | (⟨operationId, nodeId⟩ | task | ⟨task, number⟩)
  case none | some.started | some.composing =>
    simp only [step, hphase]
    exact h.safe
  case some.waiting =>
    rcases hreply : s.replies[index]? with _ | ⟨number', reply⟩
    · simp only [step, hphase, hreply]
      exact h.safe
    simp only [step, hphase, hreply]
    split_ifs with hnumber
    swap
    · exact h.safe
    subst hnumber
    have hmem : (number, reply) ∈ s.replies := List.mem_of_getElem? hreply
    obtain ⟨hid, -, latest, hlatest, hid', -⟩ := h.task hphase
    cases reply with
    | result response =>
      have hevolves : Evolves s.store (respond s.store task response) := by
        refine evolves_respond fun hresponse target hfound reservations hgiven => ?_
        -- The helper has answered with the reservations of the request.
        obtain ⟨helper, hknown⟩ := h.answered hmem reservations hgiven
        obtain rfl := Option.some.inj (hlatest.symm.trans hfound)
        refine (h.reserved hlatest).1 helper reservations ?_
        rw [hid', ← hid, ← hresponse]
        exact hknown
      refine ⟨h.settle hevolves fun other phase hother => .inl ?_, hevolves⟩
      exact (lookup_of_erase hother).2
    | error text uncertain =>
      refine safe_failTask h hphase (.inr ⟨number, rfl⟩) ?_
      intro code message status herror hrefused hsubmits
      cases uncertain with
      | true =>
        cases herror
        exact absurd hrefused (by decide)
      | false => exact h.refusal hmem jobId (h.waiting hphase hsubmits)

theorem safe_fail (h : s.Orderly) (jobId : Identity) (code message : String) (status : ℕ) :
    Safe s (s.step (.fail jobId code message status)) := by
  by_cases hconnection : Connection code status
  swap
  · simp only [step, if_neg hconnection]
    exact h.safe
  have habsent {task : Task} : ∀ code' message' status',
      Error.failure code message status = .failure code' message' status' →
      Refused code' status' → task.Submits → s.Absent jobId := by
    rintro code' message' status' ⟨⟩ hrefused
    exact absurd hrefused hconnection.1
  rcases hphase : s.tasks.lookup jobId with _ | (⟨operationId, nodeId⟩ | task | ⟨task, number⟩) <;>
    simp only [step, if_pos hconnection, hphase]
  · exact h.safe
  · exact h.safe
  · exact safe_failTask h hphase (.inl rfl) habsent
  · exact safe_failTask h hphase (.inr ⟨number, rfl⟩) habsent

theorem safe_cancel (h : s.Orderly) (operationId : Identity) (nodeIds : List Identity)
    (force : Bool) (actor : Identity) (revision : Identity → Identity)
    (check : Except Error Unit) :
    Safe s (s.step (.cancel operationId nodeIds force actor revision check)) := by
  rcases hcancel : cancel s.store operationId nodeIds force actor revision check with error | store'
  · simp only [step, hcancel]
    exact h.safe
  simp only [step, hcancel]
  obtain ⟨hevolves, hleft⟩ := evolves_cancel hcancel
  have hsettled : Orderly { s with store := store', tasks := s.tasks } :=
    h.settle hevolves fun other phase hother => .inl hother
  refine ⟨hsettled.withdraw _ fun jobId hjob => ?_, hevolves⟩
  obtain ⟨nodeId, hnode, hbind⟩ := List.mem_filterMap.mp hjob
  obtain ⟨target, hfound, hif⟩ := Option.bind_eq_some_iff.mp hbind
  split_ifs at hif with hqueued
  obtain rfl := Option.some.inj hif
  obtain ⟨hnew, hidle⟩ := h.queued hfound hqueued
  refine ⟨h.filed.drawn hfound, ?_, hidle.1, fun number hmem => hnew _ hmem rfl⟩
  -- The target of the job was cancelled in this step.
  intro other node target' hother hid
  obtain ⟨before, hbefore, hmoves⟩ := hevolves.back hother
  obtain ⟨rfl, rfl⟩ := h.filed.located hfound hbefore (by rw [← hid, hmoves.jobId])
  exact hleft node hnode target' hother

/-- So is every other step but a submission. -/
theorem safe_step (h : s.Orderly) {action : Step}
    (hsubmit : ∀ previewId key actor now operationId jobId admittance,
      action ≠ .submit previewId key actor now operationId jobId admittance) :
    Safe s (s.step action) := by
  cases action with
  | preview previewId preview => exact ⟨{ h with }, .refl _⟩
  | submit previewId key actor now operationId jobId admittance =>
    exact absurd rfl (hsubmit previewId key actor now operationId jobId admittance)
  | poll operationId nodeId => exact safe_poll h operationId nodeId
  | begin jobId check => exact safe_begin h jobId check
  | send jobId check => exact safe_send h jobId check
  | handle index env =>
    cases hcall : s.calls[index]? with
    | none =>
      simp only [step, hcall]
      exact h.safe
    | some call =>
      simp only [step, hcall]
      exact ⟨h.delivers (delivers_handle h env hcall), .refl _⟩
  | lose index =>
    exact ⟨h.delivers (delivers_lost h (List.eraseIdx_sublist ..) (List.Subset.refl _)),
      .refl _⟩
  | answer jobId index => exact safe_answer h jobId index
  | drop index =>
    exact ⟨h.delivers (delivers_lost h (.refl _) (List.eraseIdx_subset ..)), .refl _⟩
  | fail jobId code message status => exact safe_fail h jobId code message status
  | abandon jobId =>
    refine ⟨h.settle (.refl _) fun other phase hother => .inl ?_, .refl _⟩
    exact (lookup_of_erase hother).2
  | restart =>
    have hstopped : Orderly { s with store := s.store, tasks := ∅ } :=
      h.settle (.refl _) fun other phase hother => by
        rw [AList.lookup_empty] at hother
        cases hother
    exact ⟨{ hstopped with }, .refl _⟩
  | cancel operationId nodeIds force actor revision check =>
    exact safe_cancel h operationId nodeIds force actor revision check
  | complete nodeId jobId result =>
    by_cases hresult : result ∈ TERMINAL
    · simp only [step, if_pos hresult]
      exact ⟨h.delivers (delivers_complete h nodeId (Helper.keeps_complete _ jobId result)),
        .refl _⟩
    · simp only [step, if_neg hresult]
      exact h.safe

/-- Every step keeps what holds of all states, and the targets that are there only move. -/
theorem Orderly.step (h : s.Orderly) (action : Step) :
    (s.step action).Orderly ∧ Extends s.store (s.step action).store := by
  by_cases hsubmit : ∃ previewId key actor now operationId jobId admittance,
      action = .submit previewId key actor now operationId jobId admittance
  · obtain ⟨previewId, key, actor, now, operationId, jobId, admittance, rfl⟩ := hsubmit
    obtain ⟨horderly, hsame | ⟨request, hinserts, -⟩⟩ :=
      submit_spec h previewId key actor now operationId jobId admittance
    · exact ⟨horderly, hsame ▸ .refl _⟩
    · exact ⟨horderly, ⟨fun hfound => ⟨_, hinserts.kept hfound, .refl _⟩⟩⟩
  · have hsafe : Safe s (s.step action) := safe_step h
      fun previewId key actor now operationId jobId admittance heq =>
        hsubmit ⟨previewId, key, actor, now, operationId, jobId, admittance, heq⟩
    obtain ⟨horderly, hevolves⟩ := hsafe
    exact ⟨horderly, hevolves.toExtends⟩

/-- A run keeps the order. -/
theorem orderly_run (controllerId : Identity) (actions : List Step) :
    (run step (initial controllerId) actions).Orderly :=
  run_invariant (I := Orderly) (fun _ action h => (h.step action).1)
    (orderly_initial controllerId) actions

/-- Targets only move in a run. -/
theorem extends_run (h : s.Orderly) (actions : List Step) :
    Extends s.store (run step s actions).store :=
  run_relates (I := Orderly) (R := fun s s' : Machine => Extends s.store s'.store)
    (fun _ => Extends.refl _) (fun h h' => Extends.trans h h') (fun _ action h => (h.step action).1)
    (fun _ action h => (h.step action).2) h actions

/-- Managed jobs are dispatched safely. In every state that a run reaches, the targets on a machine
that are not final are the same one; every submission was sent at most once; a final target is the
same after any further steps; a job that was cancelled while it was queued was not sent; and a job
that is recorded as failed because its submission was refused has no request at any helper, nor was
it started there. -/
theorem jobs_dispatched_safely (controllerId : Identity) (actions : List Step) :
    let s := run step (initial controllerId) actions
    (∀ operationId operationId' nodeId target target',
      s.store.target operationId nodeId = some target →
      s.store.target operationId' nodeId = some target' →
      target.state ∉ TERMINAL → target'.state ∉ TERMINAL → operationId' = operationId) ∧
    (∀ jobId, s.history.countP (JobEvent.sends jobId) ≤ 1) ∧
    (∀ operationId nodeId target more, s.store.target operationId nodeId = some target →
      target.state ∈ TERMINAL →
      (run step s more).store.target operationId nodeId = some target) ∧
    (∀ jobId number, .withdrawn jobId ∈ s.history → .sent jobId number ∉ s.history) ∧
    ∀ jobId nodeId, .refused jobId ∈ s.history →
      (s.helpers nodeId).known jobId = none ∧ jobId ∉ (s.helpers nodeId).launched := by
  intro s
  have h : s.Orderly := orderly_run controllerId actions
  refine ⟨?_, h.once, ?_, ?_, ?_⟩
  · intro operationId operationId' nodeId target target' hfound hfound' hopen hopen'
    exact h.filed.exclusive hfound hfound' hopen hopen'
  · intro operationId nodeId target more hfound hterminal
    obtain ⟨target', hfound', hmoves⟩ := (extends_run h more).target hfound
    rw [hfound', hmoves.terminal hterminal]
  · intro jobId number hwithdrawn
    exact h.withdrawn hwithdrawn number
  · intro jobId nodeId hrefused
    have hunknown := (h.refused hrefused).1 nodeId
    exact ⟨hunknown, fun hlaunched => h.launched hlaunched hunknown⟩

/-- In every run a target reserves what its operation asks of its machine, and no helper knows its
job with other reservations or starts it without having been sent it. -/
theorem jobs_as_asked (controllerId : Identity) (actions : List Step) :
    let s := run step (initial controllerId) actions
    ∀ operationId operation nodeId target, s.store.lookup operationId = some operation →
      s.store.target operationId nodeId = some target →
      target.reservations = operation.request.job.reservations nodeId ∧ ∀ helper,
        (∀ known, (s.helpers helper).known target.jobId = some known → known = target.reservations) ∧
        (target.jobId ∈ (s.helpers helper).launched →
          (s.helpers helper).known target.jobId = some target.reservations ∧
            ∃ number, .sent target.jobId number ∈ s.history) := by
  intro s operationId operation nodeId target hoperation htarget
  have h : s.Orderly := orderly_run controllerId actions
  obtain ⟨hknown, -⟩ := h.reserved htarget
  refine ⟨h.filed.asked (by rw [hoperation]; rfl) htarget, fun helper => ⟨hknown helper, ?_⟩⟩
  intro hlaunched
  obtain ⟨known, heq⟩ := Option.ne_none_iff_exists'.mp (h.launched hlaunched)
  exact ⟨heq.trans (congrArg some (hknown helper known heq)), h.known heq⟩

end Steps

end Machine

end Ficc.Jobs
