import Ficc.System.Leases

/-!
# One live attempt for every job

The controller reserves the next attempt of a job only after it has seen the release of the one
before it, and an executor reports a release only after it. What is known of an earlier attempt
is therefore settled at its ledger: a command that is still on its way finds a released record
there, and no other ledger accepts it.
-/

namespace Ficc

open Execution Workloads

variable [Hash Plan]

/-- The attempt may be executing: it waits for its runtime, starts it or runs it, or its outcome
is uncertain and its cleanup is not confirmed. -/
def Execution.Value.Live (value : Value) : Prop :=
  value.state.Active ∨ value.state = .unknown ∧ value.cleanupConfirmed = false

omit [Hash Plan] in
theorem Execution.Value.Live.not_released {value : Value} (h : value.Live) :
    value.state ≠ .released := by
  intro hreleased
  obtain hactive | ⟨hunknown, -⟩ := h
  · rw [hreleased] at hactive
    exact absurd hactive (by decide)
  · rw [hreleased] at hunknown
    cases hunknown

omit [Hash Plan] in
/-- A report shows the attempt and the state of the record. -/
theorem Execution.Value.report_eq {value : Value} {report : Report}
    (h : value.publicReport = .ok report) :
    report.toFence = value.fence ∧ report.state = value.state := by
  simp only [publicReport, bind_eq_ok, Except.ok.injEq] at h
  obtain ⟨result, hresult, rfl⟩ := h
  obtain ⟨hfence, hstate, -⟩ := AttemptResult.validate_eq_ok hresult
  exact ⟨hfence, hstate⟩

namespace System

/-- The ledger has released the attempt. -/
def Settled (s : System) (ledger id : Identity) : Prop :=
  ∃ value, s.record ledger id = some value ∧ value.state = .released

/-- What has been released is released at the ledger first, and the attempts of a job that are
not settled are one. -/
structure Exclusive (s : System) : Prop where
  sequential : s.store.Sequential
  reported : ∀ report ∈ s.reports, report.state = .released →
    ∃ ledger, s.Settled ledger report.attemptId
  released : ∀ {id ledger : Identity} {attempt : Attempt},
    s.store.lookupAttempt id = some attempt → attempt.state = .released →
    attempt.ledgerId = some ledger → s.Settled ledger id
  single : ∀ {plan plan' : Plan} {installationId installationId' ledger ledger' : Identity},
    s.Known plan installationId ledger → s.Known plan' installationId' ledger' →
    plan'.jobId = plan.jobId → ¬s.Settled ledger plan.attemptId →
    ¬s.Settled ledger' plan'.attemptId → plan'.attemptId = plan.attemptId

variable {careful : Prop} {s s' : System}

omit [Hash Plan] in
/-- A released record stays released. -/
theorem released_of_develops {permits : Execution.Event → Prop} {value value' : Value}
    (h : Ledger.Develops permits value value') (hreleased : value.state = .released) :
    value'.state = .released := by
  induction h with
  | refl => exact hreleased
  | tail _ hlast ih => exact hlast.released ih

variable [Hash Submission]

theorem Settled.change (hs : s.Sound) (ht : s.Traced) (h : Change careful s s')
    {ledger id : Identity} (hsettled : s.Settled ledger id) : s'.Settled ledger id := by
  obtain ⟨value, hrecord, hreleased⟩ := hsettled
  obtain ⟨value', executor, hrecord', hdevelops⟩ := record_of_change hs ht h hrecord
  exact ⟨value', hrecord', released_of_develops hdevelops hreleased⟩

/-- The controller has a release from a report. -/
theorem released_of_change (hs : s.Sound) (h : Change careful s s') {id : Identity}
    {attempt' : Attempt} (hattempt' : s'.store.lookupAttempt id = some attempt')
    (hreleased : attempt'.state = .released) :
    ∃ attempt, s.store.lookupAttempt id = some attempt ∧ attempt.ledgerId = attempt'.ledgerId ∧
      (attempt.state = .released ∨
        ∃ report ∈ s.reports, report.state = .released ∧ report.attemptId = id) := by
  have hsame : s'.store.lookupAttempt id = s.store.lookupAttempt id →
      ∃ attempt, s.store.lookupAttempt id = some attempt ∧ attempt.ledgerId = attempt'.ledgerId ∧
        (attempt.state = .released ∨
          ∃ report ∈ s.reports, report.state = .released ∧ report.attemptId = id) :=
    fun heq => ⟨attempt', heq.symm.trans hattempt', rfl, .inl hreleased⟩
  cases h with
  | records permitted changes =>
    cases hbefore : s.store.lookupAttempt id with
    | none =>
      obtain ⟨job, rfl, -⟩ := Store.reserve_of_changes hs.linked changes hbefore hattempt'
      obtain ⟨now, hcreated⟩ := Store.Reserves.created changes
      rw [hcreated] at hreleased
      cases hreleased
    | some attempt =>
      refine ⟨attempt, rfl, ?_⟩
      obtain hkept | ⟨action, job, touched, rfl, htouches, hnew⟩ | ⟨job, -, -, hnone⟩ :=
        Store.lookupAttempt_of_changes hs.linked changes hbefore
      · obtain rfl := Option.some.inj (hkept.symm.trans hattempt')
        exact ⟨rfl, .inl hreleased⟩
      · obtain rfl := Option.some.inj (hnew.symm.trans hattempt')
        refine ⟨(ledgerId_of_act htouches).1.symm, .inr ?_⟩
        have hallowed := Store.Acts.allowed changes
        obtain ⟨updatedAt, rfl⟩ := htouches
        cases action with
        | observe result =>
          obtain ⟨report, hmem, haccepts⟩ := permitted
          obtain rfl := haccepts.released hreleased
          have hfence := congrArg Fence.attemptId hallowed.2.2.1
          exact ⟨report, hmem, hreleased, hfence.trans (hs.linked.bound.attempt_id hbefore)⟩
        | dispatch state reason =>
          have hstate : state = .released := hreleased
          simp [Action.Allowed, Store.transitions, hstate] at hallowed
        | renew lease =>
          have hstate : attempt.state = .released := hreleased
          simp [Action.Allowed, State.Active, hstate] at hallowed
        | abandon => cases hreleased
      · exact absurd (hnone.symm.trans hattempt') (by simp)
  | administer same => exact hsame (same.lookupAttempt id)
  | _ => exact hsame rfl

omit [Hash Submission] in
/-- A change reserves one attempt. -/
theorem Places.attemptId_eq {plan plan' : Plan}
    {installationId installationId' ledger ledger' : Identity}
    (h : Places s s' plan installationId ledger) (h' : Places s s' plan' installationId' ledger') :
    plan'.attemptId = plan.attemptId := by
  obtain ⟨job, attempt, -, -, rfl, -, -, hreserves⟩ := h
  obtain ⟨job', attempt', -, -, rfl, -, -, hreserves'⟩ := h'
  obtain ⟨hid', -, hfound'⟩ := attempt_of_reserves hreserves'
  obtain ⟨written, -, -, hwrites⟩ := hreserves.writes
  rw [← hid', ← (attempt_of_reserves hreserves).1]
  by_contra hother
  rw [hwrites.attempts, if_neg hother, hreserves'.absent] at hfound'
  cases hfound'

/-- When the next attempt of a job is reserved, every earlier one is settled. -/
theorem settled_of_places (hs : s.Sound) (ht : s.Traced) (he : s.Exclusive) {plan plan' : Plan}
    {installationId installationId' ledger ledger' : Identity}
    (h : Places s s' plan installationId ledger) (hknown : s.Known plan' installationId' ledger')
    (hjob : plan'.jobId = plan.jobId) : s.Settled ledger' plan'.attemptId := by
  obtain ⟨job, attempt, -, -, rfl, -, -, hreserves⟩ := h
  rw [(attempt_of_reserves hreserves).2.1] at hjob
  have hstored : s.store.lookupJob plan'.jobId = some job := by
    rw [hjob]
    exact hreserves.found
  obtain ⟨earlier, hearlier⟩ := Option.ne_none_iff_exists'.mp
    (ht.retained hknown (by rw [hstored]; exact Option.some_ne_none _))
  obtain ⟨-, hown, -, -, hledger⟩ := ht.attempt_eq hs hknown hearlier
  have hreleased := he.sequential.released_of_queued hearlier (hown.symm ▸ hstored)
    hreserves.queued
  exact he.released hearlier hreleased hledger

theorem Exclusive.change (hs : s.Sound) (ht : s.Traced) (he : s.Exclusive)
    (h : Change careful s s') : s'.Exclusive where
  sequential := by
    cases h with
    | records permitted changes => exact he.sequential.changes hs.linked changes
    | administer same => exact he.sequential.same same
    | _ => exact he.sequential
  reported := by
    intro report hreport hreleased
    have hold : report ∈ s.reports → ∃ ledger, s'.Settled ledger report.attemptId := by
      intro hmem
      obtain ⟨ledger, hsettled⟩ := he.reported report hmem hreleased
      exact ⟨ledger, hsettled.change hs ht h⟩
    cases h with
    | @report ledger id value shown found hshown =>
      obtain rfl | hmem := List.mem_cons.mp hreport
      · -- The report shows a record that is released.
        obtain ⟨hfence, hstate⟩ := Value.report_eq hshown
        have hid : report.attemptId = id :=
          (congrArg Fence.attemptId hfence).trans (known_of_record hs found).2
        rw [hid]
        exact ⟨ledger, value, found, hstate.symm.trans hreleased⟩
      · exact hold hmem
    | discard kept => exact hold (kept _ hreport)
    | _ => exact hold hreport
  released {id ledger attempt'} hattempt' hreleased hledger := by
    obtain ⟨attempt, hattempt, hsame, hbefore | ⟨report, hmem, hreported, hid⟩⟩ :=
      released_of_change hs h hattempt' hreleased
    · exact (he.released hattempt hbefore (hsame.trans hledger)).change hs ht h
    · obtain ⟨other, hsettled⟩ := he.reported report hmem hreported
      rw [hid] at hsettled
      refine Settled.change hs ht h ?_
      -- The record that the report showed is the one at the ledger of the attempt.
      have ⟨value, hrecord, _⟩ := hsettled
      obtain ⟨⟨installationId, hknown⟩, hvalue⟩ := known_of_record hs hrecord
      have heq := ht.attempt_eq hs hknown (hvalue.symm ▸ hattempt)
      have hother : some other = some ledger := heq.2.2.2.2.symm.trans (hsame.trans hledger)
      exact Option.some.inj hother ▸ hsettled
  single {plan plan' installationId installationId' ledger ledger'} hknown hknown' hjob hopen
      hopen' := by
    have hbefore : ¬s.Settled ledger plan.attemptId := fun hsettled =>
      hopen (hsettled.change hs ht h)
    have hbefore' : ¬s.Settled ledger' plan'.attemptId := fun hsettled =>
      hopen' (hsettled.change hs ht h)
    obtain hold | hnew := known_of_change hs h hknown <;>
      obtain hold' | hnew' := known_of_change hs h hknown'
    · exact he.single hold hold' hjob hbefore hbefore'
    · exact absurd (settled_of_places hs ht he hnew' hold hjob.symm) hbefore
    · exact absurd (settled_of_places hs ht he hnew hold' hjob) hbefore'
    · exact hnew.attemptId_eq hnew'

/-- At most one attempt of a job is live, over all ledgers. -/
def OneLive (s : System) : Prop :=
  ∀ ledger ledger' id id' value value', s.record ledger id = some value →
    s.record ledger' id' = some value' → value.Live → value'.Live →
    value'.plan.jobId = value.plan.jobId → ledger' = ledger ∧ id' = id

theorem Exclusive.oneLive (hs : s.Sound) (ht : s.Traced) (he : s.Exclusive) : s.OneLive := by
  intro ledger ledger' id id' value value' hrecord hrecord' hlive hlive' hjob
  obtain ⟨⟨installationId, hknown⟩, rfl⟩ := known_of_record hs hrecord
  obtain ⟨⟨installationId', hknown'⟩, rfl⟩ := known_of_record hs hrecord'
  have hopen : ∀ {ledger id value}, s.record ledger id = some value → value.Live →
      ¬s.Settled ledger id := by
    rintro ledger id value hfound hlive ⟨found, hsettled, hreleased⟩
    obtain rfl := Option.some.inj (hfound.symm.trans hsettled)
    exact hlive.not_released hreleased
  have hsame := he.single hknown hknown' hjob (hopen hrecord hlive) (hopen hrecord' hlive')
  exact ⟨(ht.unique hknown hknown' hsame).2.2, hsame⟩

omit [Hash Submission] in
theorem exclusive_initial (projects identities : List Identity)
    (contributors : Table Identity Contributor) (policyRevision : ℕ) (managed : List String) :
    (initial projects identities contributors policyRevision managed).Exclusive := by
  refine ⟨⟨?_, ?_⟩, fun report hreport => ?_, ?_, ?_⟩
  · intro id attempt job hattempt
    simp [initial, Store.initial, Store.lookupAttempt] at hattempt
  · intro id job hjob
    simp [initial, Store.initial, Store.lookupJob] at hjob
  · exact absurd hreport List.not_mem_nil
  · intro id ledger attempt hattempt
    simp [initial, Store.initial, Store.lookupAttempt] at hattempt
  · intro plan plan' installationId installationId' ledger ledger' hknown
    have hdrawn := (traced_initial projects identities contributors policyRevision
      managed).attempt_drawn hknown
    exact absurd hdrawn (Finset.notMem_empty _)

/-- In every run at most one attempt of a job is live, over all ledgers. That holds of abandoned
attempts too, because an abandoned attempt is not retried. -/
theorem one_live_attempt (projects identities : List Identity)
    (contributors : Table Identity Contributor) (policyRevision : ℕ) (managed : List String)
    (actions : List Action) :
    (run step (initial projects identities contributors policyRevision managed) actions).OneLive := by
  have hkeeps : ∀ {s s' : System}, s.Sound → s.Traced ∧ s.Exclusive → Change False s s' →
      s'.Traced ∧ s'.Exclusive := fun hs h hchange =>
    ⟨h.1.change hs hchange, h.2.change hs h.1 hchange⟩
  obtain ⟨hs, ht, he⟩ := run_changes hkeeps
    (sound_initial projects identities contributors policyRevision managed)
    ⟨traced_initial projects identities contributors policyRevision managed,
      exclusive_initial projects identities contributors policyRevision managed⟩ actions
  exact he.oneLive hs ht

end System

end Ficc
