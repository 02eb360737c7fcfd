import Ficc.Jobs.Coordinator

/-!
# What the coordinator does to targets

All operations on stored targets do the same: they leave a target as it is, or they move one that
is not final to a state other than queued. A move keeps the identity, the machine and the
reservations of the target. That the reservations of a response are those of the target is a
condition here, which holds when helpers answer with what they were asked to reserve.
-/

namespace Ficc.Jobs

open Execution

/-- The second target is the first one, or the first one after a move. -/
def Moves (target target' : Target) : Prop :=
  target' = target ∨
    (target.state ∉ TERMINAL ∧ target'.state ≠ .queued ∧ target'.nodeId = target.nodeId ∧
      target'.jobId = target.jobId ∧ target'.reservations = target.reservations)

namespace Moves

variable {first second third : Target}

theorem refl (target : Target) : Moves target target := .inl rfl

theorem trans (h : Moves first second) (h' : Moves second third) : Moves first third := by
  rcases h with rfl | ⟨hopen, hqueued, hnode, hjob, hreservations⟩
  · exact h'
  rcases h' with rfl | ⟨-, hqueued', hnode', hjob', hreservations'⟩
  · exact .inr ⟨hopen, hqueued, hnode, hjob, hreservations⟩
  · exact .inr ⟨hopen, hqueued', hnode'.trans hnode, hjob'.trans hjob,
      hreservations'.trans hreservations⟩

theorem nodeId (h : Moves first second) : second.nodeId = first.nodeId := by
  rcases h with rfl | ⟨-, -, hnode, -⟩
  · rfl
  · exact hnode

theorem jobId (h : Moves first second) : second.jobId = first.jobId := by
  rcases h with rfl | ⟨-, -, -, hjob, -⟩
  · rfl
  · exact hjob

theorem reservations (h : Moves first second) : second.reservations = first.reservations := by
  rcases h with rfl | ⟨-, -, -, -, hreservations⟩
  · rfl
  · exact hreservations

/-- A final target does not move. -/
theorem terminal (h : Moves first second) (hterminal : first.state ∈ TERMINAL) :
    second = first := by
  rcases h with rfl | ⟨hopen, -⟩
  · rfl
  · exact absurd hterminal hopen

/-- A target does not become queued. -/
theorem queued (h : Moves first second) (hqueued : second.state = .queued) : second = first := by
  rcases h with rfl | ⟨-, hother, -⟩
  · rfl
  · exact absurd hqueued hother

end Moves

namespace JobStore

/-- The stores have the same operations, and their targets have moved. -/
structure Evolves (store store' : JobStore) : Prop where
  target : ∀ operationId nodeId,
    (store.target operationId nodeId = none ∧ store'.target operationId nodeId = none) ∨
      ∃ target target', store.target operationId nodeId = some target ∧
        store'.target operationId nodeId = some target' ∧ Moves target target'
  request : ∀ operationId, (store'.lookup operationId).map Operation.request =
    (store.lookup operationId).map Operation.request

variable {store store' store'' : JobStore}

theorem Evolves.refl (store : JobStore) : Evolves store store where
  target operationId nodeId := by
    cases store.target operationId nodeId with
    | none => exact .inl ⟨rfl, rfl⟩
    | some target => exact .inr ⟨target, target, rfl, rfl, .refl target⟩
  request _ := rfl

theorem Evolves.forth (h : Evolves store store') {operationId nodeId : Identity} {target : Target}
    (hfound : store.target operationId nodeId = some target) :
    ∃ target', store'.target operationId nodeId = some target' ∧ Moves target target' := by
  obtain ⟨hnone, -⟩ | ⟨found, target', hbefore, hafter, hmoves⟩ := h.target operationId nodeId
  · rw [hnone] at hfound
    cases hfound
  · obtain rfl := Option.some.inj (hbefore.symm.trans hfound)
    exact ⟨target', hafter, hmoves⟩

theorem Evolves.back (h : Evolves store store') {operationId nodeId : Identity} {target' : Target}
    (hfound : store'.target operationId nodeId = some target') :
    ∃ target, store.target operationId nodeId = some target ∧ Moves target target' := by
  obtain ⟨-, hnone⟩ | ⟨target, found, hbefore, hafter, hmoves⟩ := h.target operationId nodeId
  · rw [hnone] at hfound
    cases hfound
  · obtain rfl := Option.some.inj (hafter.symm.trans hfound)
    exact ⟨target, hbefore, hmoves⟩

/-- What evolves twice evolves. -/
theorem Evolves.trans (h : Evolves store store') (h' : Evolves store' store'') :
    Evolves store store'' where
  target operationId nodeId := by
    cases hfound : store.target operationId nodeId with
    | none =>
      refine .inl ⟨rfl, ?_⟩
      cases hlast : store''.target operationId nodeId with
      | none => rfl
      | some target'' =>
        obtain ⟨target', hmiddle, -⟩ := h'.back hlast
        obtain ⟨target, hfirst, -⟩ := h.back hmiddle
        rw [hfound] at hfirst
        cases hfirst
    | some target =>
      obtain ⟨target', hmiddle, hmoves⟩ := h.forth hfound
      obtain ⟨target'', hlast, hmoves'⟩ := h'.forth hmiddle
      exact .inr ⟨target, target'', rfl, hlast, hmoves.trans hmoves'⟩
  request operationId := (h'.request operationId).trans (h.request operationId)

/-- The targets after one has been rewritten. -/
theorem target_update (store : JobStore) (operationId nodeId : Identity) (change : Target → Target)
    (operationId' nodeId' : Identity) :
    (store.update operationId nodeId change).target operationId' nodeId' =
      if operationId' = operationId ∧ nodeId' = nodeId then
        (store.target operationId nodeId).map change
      else store.target operationId' nodeId' := by
  have hsame (h : store.target operationId nodeId = none) :
      store.target operationId' nodeId' =
        if operationId' = operationId ∧ nodeId' = nodeId then
          (store.target operationId nodeId).map change
        else store.target operationId' nodeId' := by
    split_ifs with hkey
    · rw [hkey.1, hkey.2, h]
      rfl
    · rfl
  unfold update
  cases hoperation : store.lookup operationId with
  | none => exact hsame (by rw [target, hoperation, Option.bind_none])
  | some operation =>
    dsimp only
    cases htarget : operation.targets.lookup nodeId with
    | none =>
      exact hsame (by rw [target, hoperation, Option.bind_some, htarget])
    | some found =>
      have hbefore : store.target operationId nodeId = some found := by
        rw [target, hoperation, Option.bind_some, htarget]
      rw [hbefore, Option.map_some]
      by_cases hoperationId : operationId' = operationId
      · subst hoperationId
        rw [target, Table.lookup_insert_eq, if_pos rfl, Option.bind_some, Table.lookup_insert_eq]
        by_cases hnodeId : nodeId' = nodeId
        · rw [if_pos hnodeId, if_pos ⟨rfl, hnodeId⟩]
        · rw [if_neg hnodeId, if_neg (fun h => hnodeId h.2), target, hoperation, Option.bind_some]
      · rw [target, Table.lookup_insert_eq, if_neg hoperationId,
          if_neg (fun h => hoperationId h.1), target]

theorem request_update (store : JobStore) (operationId nodeId : Identity)
    (change : Target → Target) (operationId' : Identity) :
    ((store.update operationId nodeId change).lookup operationId').map Operation.request =
      (store.lookup operationId').map Operation.request := by
  unfold update
  cases hoperation : store.lookup operationId with
  | none => rfl
  | some operation =>
    dsimp only
    cases operation.targets.lookup nodeId with
    | none => rfl
    | some found =>
      dsimp only
      rw [Table.lookup_insert_eq]
      split_ifs with hsame
      · rw [hsame, hoperation]
        rfl
      · rfl

/-- A rewrite that moves its target. -/
theorem evolves_update {operationId nodeId : Identity} {change : Target → Target}
    (h : ∀ target, store.target operationId nodeId = some target → Moves target (change target)) :
    Evolves store (store.update operationId nodeId change) where
  target operationId' nodeId' := by
    rw [target_update]
    split_ifs with hkey
    · obtain ⟨rfl, rfl⟩ := hkey
      cases hfound : store.target operationId' nodeId' with
      | none => exact .inl ⟨rfl, rfl⟩
      | some target => exact .inr ⟨target, change target, rfl, rfl, h target hfound⟩
    · exact (Evolves.refl store).target operationId' nodeId'
  request := request_update store operationId nodeId change

end JobStore

open JobStore

section Operations

variable {store : JobStore}

theorem failureState_ne_queued (task : Task) (code : String) (status : ℕ) :
    failureState task code status ≠ .queued := by
  unfold failureState
  split_ifs <;> exact nofun

theorem moves_failedTarget (task : Task) (code message : String) (status : ℕ) {latest : Target}
    (hopen : latest.state ∉ TERMINAL) :
    Moves latest (failedTarget task code message status latest) := by
  have hqueued := failureState_ne_queued task code status
  refine .inr ⟨hopen, ?_, ?_, ?_, ?_⟩ <;> unfold failedTarget <;> dsimp only
  · split_ifs <;> first | exact hqueued | exact nofun
  all_goals split_ifs <;> rfl

/-- The state of a target after a failure is that of the failure, or a pending cancellation. -/
theorem failedTarget_state (task : Task) (code message : String) (status : ℕ) (latest : Target) :
    (failedTarget task code message status latest).state = failureState task code status ∨
      (failedTarget task code message status latest).state = .cancelRequested := by
  unfold failedTarget
  dsimp only
  by_cases hcancel : latest.cancelActor ≠ none ∧ failureState task code status ∉ TERMINAL
  · rw [if_pos hcancel]
    dsimp only
    split_ifs <;> simp
  · rw [if_neg hcancel]
    exact .inl rfl

/-- A failure moves the target of its task. -/
theorem evolves_fail (store : JobStore) (task : Task) (error : Error) :
    Evolves store (fail store task error) := by
  cases error with
  | failure code message status =>
    refine evolves_update fun latest _ => ?_
    by_cases hfinal : latest.state ∈ TERMINAL ∨ code = "cancel_superseded"
    · rw [if_pos hfinal]
      exact .refl latest
    rw [if_neg hfinal]
    split_ifs
    · exact .refl latest
    · exact moves_failedTarget task code message status (not_or.mp hfinal).1
  | _ => exact .refl store

/-- A target that a failure makes failed was refused. -/
theorem refused_of_fail {task : Task} {error : Error} {target target' : Target}
    (hbefore : store.target task.operationId task.target.nodeId = some target)
    (hafter : (fail store task error).target task.operationId task.target.nodeId = some target')
    (hopen : target.state ≠ .failed) (hfailed : target'.state = .failed) :
    task.target.state = .queued ∧ ∃ code message status, error = .failure code message status ∧
      Refused code status := by
  cases error with
  | failure code message status =>
    rw [fail, target_update, if_pos ⟨rfl, rfl⟩, hbefore, Option.map_some] at hafter
    obtain rfl := Option.some.inj hafter
    by_cases hfinal : target.state ∈ TERMINAL ∨ code = "cancel_superseded"
    · rw [if_pos hfinal] at hfailed
      exact absurd hfailed hopen
    rw [if_neg hfinal] at hfailed
    by_cases hother : task.target.cancelActor ≠ none ∧
        target.cancelRevision ≠ task.target.cancelRevision
    · rw [if_pos hother] at hfailed
      exact absurd hfailed hopen
    rw [if_neg hother] at hfailed
    have hstate : failureState task code status = .failed := by
      obtain hsame | hpending := failedTarget_state task code message status target
      · rw [← hsame, hfailed]
      · cases hfailed.symm.trans hpending
    unfold failureState at hstate
    split_ifs at hstate with hrefused
    exact ⟨hrefused.1, code, message, status, rfl, hrefused.2⟩
  | _ => exact absurd (Option.some.inj (hbefore.symm.trans hafter) ▸ hfailed) hopen

theorem moves_respondedTarget {task : Task} {response : Response} {latest : Target}
    (hopen : latest.state ∉ TERMINAL) (hqueued : response.state ≠ .queued)
    (hreservations : ∀ reservations ∈ response.reservations, reservations = latest.reservations) :
    Moves latest (respondedTarget task response latest) := by
  have hkept : response.reservations.getD latest.reservations = latest.reservations := by
    cases hresponse : response.reservations with
    | none => rfl
    | some reservations => exact hreservations reservations hresponse
  refine .inr ⟨hopen, ?_, ?_, ?_, ?_⟩ <;> unfold respondedTarget <;> dsimp only
  · split_ifs <;> first | exact hqueued | exact nofun
  · split_ifs <;> rfl
  · split_ifs <;> rfl
  · split_ifs <;> exact hkept

/-- A response moves the target of its task, if it gives the reservations of the target. -/
theorem evolves_respond {task : Task} {response : Response}
    (h : response.jobId = task.target.jobId → ∀ latest,
      store.target task.operationId task.target.nodeId = some latest →
      ∀ reservations ∈ response.reservations, reservations = latest.reservations) :
    Evolves store (respond store task response) := by
  unfold respond
  split_ifs with hinvalid
  · exact evolves_fail _ _ _
  obtain ⟨hid, hqueued, -⟩ : response.jobId = task.target.jobId ∧ response.state ≠ .queued ∧
      response.state ≠ .dispatching := by simpa [not_or] using hinvalid
  refine evolves_update fun latest hlatest => ?_
  split_ifs with hfinal
  · exact .refl latest
  · exact moves_respondedTarget hfinal hqueued (h hid latest hlatest)

/-- A cancellation moves its target. -/
theorem moves_cancelTarget (actor : Identity) (force : Bool) (revision : Identity)
    (target : Target) : Moves target (cancelTarget actor force revision target) := by
  unfold cancelTarget
  split_ifs with hfinal hqueued
  · exact .refl target
  · exact .inr ⟨hfinal, nofun, rfl, rfl, rfl⟩
  · exact .inr ⟨hfinal, nofun, rfl, rfl, rfl⟩

/-- A cancellation moves targets, and leaves none of its targets queued. -/
theorem evolves_cancel {operationId actor : Identity} {nodeIds : List Identity} {force : Bool}
    {revision : Identity → Identity} {check : Except Error Unit} {store' : JobStore}
    (h : cancel store operationId nodeIds force actor revision check = .ok store') :
    Evolves store store' ∧ ∀ nodeId ∈ nodeIds, ∀ target',
      store'.target operationId nodeId = some target' → target'.state ≠ .queued := by
  simp only [cancel, bind_eq_ok, orRaise_eq_ok, raiseIf_eq_ok, Except.ok.injEq] at h
  obtain ⟨operation, -, -, -, -, -, rfl⟩ := h
  induction nodeIds generalizing store with
  | nil => exact ⟨.refl store, fun _ hmem => absurd hmem List.not_mem_nil⟩
  | cons nodeId nodeIds ih =>
    rw [List.foldl_cons]
    generalize hnext : store.update operationId nodeId
      (cancelTarget actor force (revision nodeId)) = next
    have hfirst : Evolves store next :=
      hnext ▸ evolves_update fun target _ => moves_cancelTarget actor force _ target
    obtain ⟨hrest, hothers⟩ := @ih next
    refine ⟨hfirst.trans hrest, fun other hmem target' hfound => ?_⟩
    obtain rfl | hmem := List.mem_cons.mp hmem
    · -- The target left the queue in the first round, and no target enters it.
      obtain ⟨middle, hmiddle, hmoves⟩ := hrest.back hfound
      intro hqueued
      obtain rfl := hmoves.queued hqueued
      rw [← hnext, target_update, if_pos ⟨rfl, rfl⟩] at hmiddle
      obtain ⟨target, -, rfl⟩ := Option.map_eq_some_iff.mp hmiddle
      unfold cancelTarget at hqueued
      split_ifs at hqueued with hfinal hwaiting
      rw [hqueued] at hfinal
      exact absurd hfinal (by decide)
    · exact hothers other hmem target' hfound

/-- How a reconciliation goes on after it has read its target. -/
inductive Begins (store : JobStore) (operationId nodeId : Identity) (target : Target) :
    JobStore → Option Task → Prop
  /-- The target is final. -/
  | final (terminal : target.state ∈ TERMINAL) : Begins store operationId nodeId target store none
  /-- The check has raised. -/
  | raised {action : Action} {error : Error} :
    Begins store operationId nodeId target (fail store ⟨operationId, target, action⟩ error) none
  /-- The submission of a queued target is going to be sent. -/
  | submit {operation : Operation} (found : store.lookup operationId = some operation)
    (queued : target.state = .queued) :
    Begins store operationId nodeId target
      (store.update operationId nodeId fun target => { target with state := .dispatching })
      (some ⟨operationId, target, .submit (operation.request.job.restrict nodeId) nodeId⟩)
  /-- Another call is going to be sent. -/
  | other {action : Action} (started : target.state ≠ .queued)
    (action_eq : ∀ job nodeId, action ≠ .submit job nodeId) :
    Begins store operationId nodeId target store (some ⟨operationId, target, action⟩)

/-- A reconciliation begins with the target that it reads. -/
theorem begins_reconcile {operationId nodeId : Identity} {target : Target}
    (hfound : store.target operationId nodeId = some target) (check : Except Error Unit) :
    Begins store operationId nodeId target (reconcile store operationId nodeId check).1
      (reconcile store operationId nodeId check).2 := by
  obtain ⟨operation, hoperation, htarget⟩ := Option.bind_eq_some_iff.mp hfound
  unfold reconcile
  simp only [hoperation, htarget]
  by_cases hfinal : target.state ∈ TERMINAL
  · rw [if_pos hfinal]
    exact .final hfinal
  rw [if_neg hfinal]
  by_cases hqueued : target.state = .queued
  · rw [if_pos hqueued]
    cases check with
    | error error => exact .raised
    | ok _ => exact .submit hoperation hqueued
  rw [if_neg hqueued]
  by_cases hpending : target.Pending
  · rw [if_pos hpending]
    cases check with
    | error error => exact .raised
    | ok _ => exact .other hqueued nofun
  · rw [if_neg hpending]
    exact .other hqueued nofun

theorem evolves_begins {operationId nodeId : Identity} {target : Target} {store' : JobStore}
    {task : Option Task} (hfound : store.target operationId nodeId = some target)
    (h : Begins store operationId nodeId target store' task) : Evolves store store' := by
  cases h with
  | final terminal => exact .refl store
  | raised => exact evolves_fail _ _ _
  | submit found queued =>
    refine evolves_update fun other hother => ?_
    obtain rfl := Option.some.inj (hfound.symm.trans hother)
    refine .inr ⟨?_, nofun, rfl, rfl, rfl⟩
    rw [queued]
    decide
  | other started action_eq => exact .refl store

/-- The targets of a request. -/
theorem lookup_targets (request : JobRequest) (jobId : Identity → Identity) (nodeId : Identity) :
    (request.targets jobId).lookup nodeId =
      if nodeId ∈ request.nodeIds then some (.queued request jobId nodeId) else none := by
  have hmem : ∀ target, (request.targets jobId).lookup nodeId = some target ↔
      nodeId ∈ request.nodeIds ∧ .queued request jobId nodeId = target := by
    intro target
    rw [← Table.mem_entries]
    constructor
    · intro h
      obtain ⟨other, hother, heq⟩ := List.mem_map.mp h
      obtain ⟨rfl, htarget⟩ := Sigma.mk.inj heq
      exact ⟨hother, eq_of_heq htarget⟩
    · rintro ⟨hnode, rfl⟩
      exact List.mem_map_of_mem hnode
  split_ifs with hnode
  · exact (hmem _).mpr ⟨hnode, rfl⟩
  · cases hlookup : (request.targets jobId).lookup nodeId with
    | none => rfl
    | some target => exact absurd ((hmem target).mp hlookup).1 hnode

theorem active_iff {nodeId : Identity}
    (hfiled : ∀ {operationId nodeId : Identity} {target : Target},
      store.target operationId nodeId = some target → target.nodeId = nodeId) :
    store.Active nodeId ↔ ∃ operationId target,
      store.target operationId nodeId = some target ∧ target.state ∉ TERMINAL := by
  constructor
  · rintro ⟨operation, hoperation, target, htarget, rfl, hopen⟩
    obtain ⟨operationId, hlookup⟩ := Table.mem_values.mp hoperation
    obtain ⟨key, hkey⟩ := Table.mem_values.mp htarget
    have hfound : store.target operationId key = some target := by
      rw [JobStore.target, hlookup, Option.bind_some, hkey]
    exact ⟨operationId, target, hfiled hfound ▸ hfound, hopen⟩
  · rintro ⟨operationId, target, hfound, hopen⟩
    obtain ⟨operation, hoperation, htarget⟩ := Option.bind_eq_some_iff.mp hfound
    exact ⟨operation, Table.mem_values.mpr ⟨operationId, hoperation⟩, target,
      Table.mem_values.mpr ⟨nodeId, htarget⟩, hfiled hfound, hopen⟩

/-- The store after a new operation on machines without active targets. -/
structure Inserts (store : JobStore) (operationId : Identity) (request : JobRequest)
    (jobId : Identity → Identity) (store' : JobStore) : Prop where
  absent : store.lookup operationId = none
  idle : ∀ nodeId ∈ request.nodeIds, ¬store.Active nodeId
  lookup : ∀ other, (store'.lookup other).map Operation.request =
    if other = operationId then some request else (store.lookup other).map Operation.request
  target : ∀ other nodeId, store'.target other nodeId =
    if other = operationId then
      if nodeId ∈ request.nodeIds then some (.queued request jobId nodeId) else none
    else store.target other nodeId

section Inserts

variable {operationId : Identity} {request : JobRequest} {jobId : Identity → Identity}
  {store' : JobStore}

theorem Inserts.ne (h : Inserts store operationId request jobId store') {other nodeId : Identity}
    {target : Target} (hfound : store.target other nodeId = some target) : other ≠ operationId := by
  rintro rfl
  rw [JobStore.target, h.absent] at hfound
  cases hfound

/-- The stored targets are kept. -/
theorem Inserts.kept (h : Inserts store operationId request jobId store') {other nodeId : Identity}
    {target : Target} (hfound : store.target other nodeId = some target) :
    store'.target other nodeId = some target := by
  rw [h.target, if_neg (h.ne hfound), hfound]

/-- A stored target is an old one, or one of the new operation. -/
theorem Inserts.cases (h : Inserts store operationId request jobId store')
    {other nodeId : Identity} {target : Target}
    (hfound : store'.target other nodeId = some target) :
    store.target other nodeId = some target ∨
      other = operationId ∧ nodeId ∈ request.nodeIds ∧ target = .queued request jobId nodeId := by
  rw [h.target] at hfound
  split_ifs at hfound with hother hnode
  · exact .inr ⟨hother, hnode, (Option.some.inj hfound).symm⟩
  · exact .inl hfound

end Inserts

variable [Hash JobRequest]

/-- A submission that returns has found its operation or inserts it. -/
theorem submit_eq_ok {previews : Table Identity Preview} {previewId : Identity} {key : String}
    {actor : Identity} {now : ℚ} {operationId : Identity} {jobId : Identity → Identity}
    {admittance : Admittance} {operation : Operation} {store' : JobStore}
    (h : submit store previews previewId key actor now operationId jobId admittance =
      .ok (operation, store')) :
    store' = store ∨ Inserts store operationId operation.request jobId store' ∧
      admittance.requireFree ((Table.values (operation.request.targets jobId)).flatMap devices) =
        .ok () := by
  unfold submit at h
  cases hexisting : store.existing actor key with
  | some old =>
    simp only [hexisting, bind_eq_ok, raiseIf_eq_ok, Except.ok.injEq, Prod.mk.injEq] at h
    obtain ⟨-, -, -, -, -, -, -, rfl⟩ := h
    exact .inl rfl
  | none =>
    simp only [hexisting, bind_eq_ok, raiseIf_eq_ok, orRaise_eq_ok, exists_const, not_exists,
      Except.ok.injEq, Prod.mk.injEq, JobStore.insert] at h
    obtain ⟨-, preview, -, -, checked, -, -, hidle, unchanged, -, rechecked, -, next,
      ⟨-, free, hfree, habsent, rfl⟩, rfl, rfl⟩ := h
    refine .inr ⟨⟨by simpa using habsent, fun nodeId hnode hactive => hidle nodeId ⟨hnode, hactive⟩,
      ?_, ?_⟩, hfree⟩
    · intro other
      rw [Table.lookup_insert_eq]
      split_ifs <;> rfl
    · intro other nodeId
      rw [JobStore.target, Table.lookup_insert_eq]
      split_ifs with hother hnode
      · rw [Option.bind_some, lookup_targets, if_pos hnode]
      · rw [Option.bind_some, lookup_targets, if_neg hnode]
      · rfl

end Operations

end Ficc.Jobs
