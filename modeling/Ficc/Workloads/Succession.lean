import Ficc.Workloads.Outcomes

/-!
# The succession of attempts

A job gets its next attempt only after the one before it has been released. Only the current
attempt of a job can therefore be unreleased, and that of a queued job is released as well.
-/

namespace Ficc.Workloads

open Execution

namespace Store

variable [Hash Plan] [Hash Submission] {store store' : Store}

/-- The attempts of a job follow one another. -/
structure Sequential (store : Store) : Prop where
  current : ∀ {id : Identity} {attempt : Attempt} {job : Record},
    store.lookupAttempt id = some attempt → attempt.state ≠ .released →
    store.lookupJob attempt.jobId = some job → job.currentAttempt = some id
  queued : ∀ {id : Identity} {job : Record}, store.lookupJob id = some job →
    job.state = .queued → ∀ current ∈ job.currentAttempt,
    ∃ attempt, store.lookupAttempt current = some attempt ∧ attempt.state = .released

variable {id : Identity} {event : Event}

omit [Hash Plan] [Hash Submission] in
/-- Every attempt of a queued job has been released. -/
theorem Sequential.released_of_queued (h : store.Sequential) {attempt : Attempt} {job : Record}
    (hattempt : store.lookupAttempt id = some attempt)
    (hjob : store.lookupJob attempt.jobId = some job) (hqueued : job.state = .queued) :
    attempt.state = .released := by
  by_contra hunreleased
  obtain ⟨found, hfound, hreleased⟩ := h.queued hjob hqueued id (h.current hattempt hunreleased hjob)
  obtain rfl := Option.some.inj (hattempt.symm.trans hfound)
  exact hunreleased hreleased

/-- An event leaves an attempt that is unreleased afterwards unreleased before, or it is the
reservation of the attempt. -/
theorem unreleased_of_changes (hl : store.Linked) (h : event.Changes store store')
    {attempt' : Attempt} (hattempt' : store'.lookupAttempt id = some attempt')
    (hunreleased : attempt'.state ≠ .released) :
    (∃ job, event = .reserve job attempt' ∧ id = attempt'.id) ∨
      ∃ attempt, store.lookupAttempt id = some attempt ∧ attempt.state ≠ .released ∧
        attempt'.jobId = attempt.jobId := by
  cases hbefore : store.lookupAttempt id with
  | none => exact .inl (reserve_of_changes hl h hbefore hattempt')
  | some attempt =>
    refine .inr ⟨attempt, rfl, ?_⟩
    obtain hkept | ⟨action, job, found, rfl, htouches, hfound⟩ | ⟨job, -, -, hnone⟩ :=
      lookupAttempt_of_changes hl h hbefore
    · obtain rfl := Option.some.inj (hkept.symm.trans hattempt')
      exact ⟨hunreleased, rfl⟩
    · obtain rfl := Option.some.inj (hfound.symm.trans hattempt')
      have hkeeps := keepsAttempt_of_act ((hl.changes h).attempt hattempt') htouches
      exact ⟨fun hreleased => (Acts.allowed h).not_retired (.inl hreleased), hkeeps.job⟩
    · rw [hnone] at hattempt'
      cases hattempt'

/-- A released attempt stays as it is as long as its job is there. -/
theorem released_of_changes (hl : store.Linked) (h : event.Changes store store') {attempt : Attempt}
    (hattempt : store.lookupAttempt id = some attempt) (hreleased : attempt.state = .released)
    (hjob : store'.lookupJob attempt.jobId ≠ none) :
    store'.lookupAttempt id = some attempt := by
  obtain hkept | ⟨action, job, found, rfl, -, -⟩ | ⟨job, rfl, hown, -⟩ :=
    lookupAttempt_of_changes hl h hattempt
  · exact hkept
  · exact absurd (.inl hreleased) (Acts.allowed h).not_retired
  · refine absurd ?_ hjob
    rw [Removes.jobs h, if_pos hown]

/-- The current attempt of a job that is there before and after an event, unless the event
reserves the next one. -/
theorem currentAttempt_of_changes (hl : store.Linked) (h : event.Changes store store')
    {job job' : Record} (hjob : store.lookupJob id = some job)
    (hjob' : store'.lookupJob id = some job') :
    (∃ attempt, event = .reserve job attempt ∧ job'.currentAttempt = some attempt.id ∧
      job'.state = .preparing) ∨ job'.currentAttempt = job.currentAttempt := by
  obtain hkept | ⟨attempt, found, rfl, ⟨updatedAt, revision, rfl⟩, hnew⟩ |
    ⟨action, attempt, found, rfl, htouches, hnew⟩ |
    ⟨change, found, rfl, ⟨updatedAt, revision, rfl⟩, hnew⟩ | ⟨-, hnone⟩ :=
      lookupJob_of_changes hl h hjob
  · obtain rfl := Option.some.inj (hkept.symm.trans hjob')
    exact .inr rfl
  · obtain rfl := Option.some.inj (hnew.symm.trans hjob')
    exact .inl ⟨attempt, rfl, rfl, rfl⟩
  · obtain rfl := Option.some.inj (hnew.symm.trans hjob')
    exact .inr (keepsJob_of_act ((hl.changes h).job hjob').1 htouches).current
  · obtain rfl := Option.some.inj (hnew.symm.trans hjob')
    refine .inr ?_
    cases change with
    | cancel => by_cases hqueued : job.state = .queued <;> simp [Edit.apply, hqueued]
    | retry delegation => rfl
    | pending reason => rfl
  · rw [hnone] at hjob'
    cases hjob'

theorem Sequential.changes (hl : store.Linked) (hs : store.Sequential)
    (h : event.Changes store store') : store'.Sequential where
  current {id attempt' job'} hattempt' hunreleased hjob' := by
    obtain ⟨job, rfl, rfl⟩ | ⟨attempt, hattempt, hopen, hown⟩ :=
      unreleased_of_changes hl h hattempt' hunreleased
    · -- The new attempt is the current one of its job.
      obtain ⟨written, ⟨updatedAt, revision, rfl⟩, -, hwrites⟩ := Reserves.writes h
      obtain ⟨now, hcreated⟩ := Reserves.created h
      have hjobId : attempt'.jobId = job.id := by rw [hcreated]; rfl
      rw [hwrites.jobs, hjobId, if_pos rfl] at hjob'
      obtain rfl := Option.some.inj hjob'
      rfl
    · obtain ⟨job, hjob, -⟩ := hl.owner hattempt
      rw [hown] at hjob'
      obtain ⟨fresh, rfl, -⟩ | hcurrent := currentAttempt_of_changes hl h hjob hjob'
      · exact absurd (hs.released_of_queued hattempt hjob (Reserves.queued h)) hopen
      · rw [hcurrent]
        exact hs.current hattempt hopen hjob
  queued {id job'} hjob' hqueued current hcurrent := by
    obtain rfl | ⟨job, hjob, -, -, -, hstate⟩ := job_of_changes hl h hjob'
    · obtain ⟨now, hcreated⟩ := Submits.created h
      rw [hcreated] at hcurrent
      simp [submitted] at hcurrent
    -- A job that was queued already or is retried had its current attempt released.
    have hcurrent' : current ∈ job.currentAttempt := by
      obtain ⟨fresh, -, -, hpreparing⟩ | hsame := currentAttempt_of_changes hl h hjob hjob'
      · rw [hpreparing] at hqueued
        cases hqueued
      · rwa [← hsame]
    have hbefore : ∃ attempt, store.lookupAttempt current = some attempt ∧
        attempt.state = .released := by
      obtain hwaits | ⟨delegation, rfl⟩ := hstate hqueued
      · exact hs.queued hjob hwaits current hcurrent'
      · exact Edits.released h delegation rfl current hcurrent'
    obtain ⟨attempt, hattempt, hreleased⟩ := hbefore
    refine ⟨attempt, released_of_changes hl h hattempt hreleased ?_, hreleased⟩
    obtain ⟨found, hfound, hown, -⟩ := hl.current hjob current hcurrent'
    obtain rfl := Option.some.inj (hattempt.symm.trans hfound)
    rw [hown, hjob']
    exact Option.some_ne_none _

omit [Hash Plan] [Hash Submission] in
theorem Sequential.same (hs : store.Sequential) (h : SameRecords store store') :
    store'.Sequential where
  current hattempt hunreleased hjob := by
    rw [h.lookupAttempt] at hattempt
    rw [h.lookupJob] at hjob
    exact hs.current hattempt hunreleased hjob
  queued hjob hqueued current hcurrent := by
    rw [h.lookupJob] at hjob
    rw [h.lookupAttempt]
    exact hs.queued hjob hqueued current hcurrent

end Store

end Ficc.Workloads
