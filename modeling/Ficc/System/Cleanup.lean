import Ficc.System.Exclusion

/-!
# Confirmed cleanups

An executor that has confirmed the cleanup of an attempt never takes it back. A confirmation that
is reported or recorded by the controller was one of the executor. Reports about an attempt arrive
in the order in which they were made, because the executor answers one message after the other. So
a confirmation that the controller has recorded is not overwritten by an older report.
-/

namespace Ficc

open Execution Workloads

variable [Hash Plan]

section Records

omit [Hash Plan]

/-- A supervised move keeps a confirmed cleanup. -/
theorem Execution.Value.Sound.confirmed_apply {value : Value} {move : Move} (h : value.Sound)
    (hcareful : Careful (.move value move)) (hconfirmed : value.cleanupConfirmed = true) :
    (move.apply value).cleanupConfirmed = true := by
  cases move with
  | annotate fields =>
    obtain ⟨_, _, _, _, _, heq⟩ := AnnotatedField.foldl_apply fields value
    simp only [Move.apply, heq]
    exact hconfirmed
  | finish result =>
    -- A result is only recorded while the cleanup is unconfirmed.
    have hunconfirmed : value.cleanupConfirmed = false := by
      rcases hcareful with hactive | ⟨-, hunconfirmed, -⟩
      · exact h.active hactive
      · exact hunconfirmed
    rw [hconfirmed] at hunconfirmed
    cases hunconfirmed
  | recover before binding observedAt =>
    simp only [Move.apply]
    split_ifs <;> rfl
  | _ => exact hconfirmed

theorem confirmed_of_develops {permits : Execution.Event → Prop}
    (hpermits : ∀ event, permits event → Careful event) {value value' : Value}
    (hsound : value.Sound) (h : Ledger.Develops permits value value')
    (hconfirmed : value.cleanupConfirmed = true) :
    value'.Sound ∧ value'.cleanupConfirmed = true := by
  induction h with
  | refl => exact ⟨hsound, hconfirmed⟩
  | tail _ hlast ih =>
    refine ⟨hlast.sound hpermits ih.1, ?_⟩
    rcases hlast with rfl | ⟨move, -, hpermitted, rfl⟩
    · exact ih.2
    · exact ih.1.confirmed_apply (hpermits _ hpermitted) ih.2

/-- A report shows the confirmation of the record. -/
theorem Execution.Value.report_cleanup {value : Value} {report : Report}
    (h : value.publicReport = .ok report) : report.cleanupConfirmed = value.cleanupConfirmed := by
  simp only [publicReport, bind_eq_ok, Except.ok.injEq] at h
  obtain ⟨result, hresult, rfl⟩ := h
  obtain ⟨-, -, -, -, -, -, hcleanup⟩ := AttemptResult.validate_eq_ok hresult
  exact hcleanup

theorem Workloads.Commands.Accepts.cleanup {report : Report} {result : AttemptResult}
    (h : Commands.Accepts report result) : result.cleanupConfirmed = report.cleanupConfirmed := by
  obtain rfl | ⟨-, -, -, -, -, -, -, -, hcleanup⟩ := h
  · rfl
  · exact hcleanup

end Records

namespace System

/-- The ledger has confirmed the cleanup of the attempt. -/
def Cleaned (s : System) (ledger id : Identity) : Prop :=
  ∃ value, s.record ledger id = some value ∧ value.cleanupConfirmed = true

/-- Every confirmation comes from a ledger. -/
structure Attested (s : System) : Prop where
  reserved : ∀ {ledger : Identity} {executor : Supervisor},
    s.executors.lookup ledger = some executor → executor.ledger.Reserved
  reported : ∀ report ∈ s.reports, report.cleanupConfirmed = true →
    ∃ ledger, s.Cleaned ledger report.attemptId
  observed : ∀ {id : Identity} {attempt : Attempt} {observed : AttemptResult},
    s.store.lookupAttempt id = some attempt → attempt.observed = some observed →
    observed.cleanupConfirmed = true → ∃ ledger, s.Cleaned ledger id

variable {careful : Prop} {s s' : System}

theorem careful_of_allows {ledger : Identity} {executor : Supervisor} {event : Execution.Event}
    (h : s.Allows careful ledger executor event) : Careful event := by
  match event, h with
  | .offer _, _ => trivial
  | .reserve _, _ => trivial
  | .reject _, _ => trivial
  | .move _ (.annotate _), _ => trivial
  | .move _ .start, _ => trivial
  | .move _ (.started _), _ => trivial
  | .move _ (.renew _ _), _ => trivial
  | .move _ (.finish _), h => exact h
  | .move _ .release, _ => trivial
  | .move _ (.recover _ _ _), _ => trivial

/-- An attested record is sound. -/
theorem Attested.sound (ha : s.Attested) {ledger id : Identity} {value : Value}
    (h : s.record ledger id = some value) : value.Sound := by
  obtain ⟨executor, hlookup, hget⟩ := record_eq_some.mp h
  exact (ha.reserved hlookup).sound hget

variable [Hash Submission]

/-- What has been cleaned stays so. -/
theorem Cleaned.change (hs : s.Sound) (ht : s.Traced) (ha : s.Attested) (h : Change careful s s')
    {ledger id : Identity} (hcleaned : s.Cleaned ledger id) : s'.Cleaned ledger id := by
  obtain ⟨value, hrecord, hconfirmed⟩ := hcleaned
  obtain ⟨value', executor, hrecord', hdevelops⟩ := record_of_change hs ht h hrecord
  exact ⟨value', hrecord',
    (confirmed_of_develops (fun _ => careful_of_allows) (ha.sound hrecord) hdevelops hconfirmed).2⟩

/-- The controller has an observation of its own, or a new one from a report. -/
theorem observed_of_change (hs : s.Sound) (h : Change careful s s') {id : Identity}
    {attempt' : Attempt} {observed : AttemptResult}
    (hattempt' : s'.store.lookupAttempt id = some attempt')
    (hobserved : attempt'.observed = some observed) :
    (∃ attempt, s.store.lookupAttempt id = some attempt ∧ attempt.observed = some observed) ∨
      ∃ report ∈ s.reports, report.attemptId = id ∧ Commands.Accepts report observed := by
  have hsame : s'.store.lookupAttempt id = s.store.lookupAttempt id →
      ∃ attempt, s.store.lookupAttempt id = some attempt ∧ attempt.observed = some observed :=
    fun heq => ⟨attempt', heq.symm.trans hattempt', hobserved⟩
  cases h with
  | records permitted changes =>
    cases hbefore : s.store.lookupAttempt id with
    | none =>
      obtain ⟨job, rfl, -⟩ := Store.reserve_of_changes hs.linked changes hbefore hattempt'
      obtain ⟨now, hcreated⟩ := Store.Reserves.created changes
      rw [hcreated] at hobserved
      cases hobserved
    | some attempt =>
      obtain hkept | ⟨action, job, touched, rfl, htouches, hnew⟩ | ⟨job, -, -, hnone⟩ :=
        Store.lookupAttempt_of_changes hs.linked changes hbefore
      · exact .inl (hbefore ▸ hsame (hkept.trans hbefore.symm))
      · obtain rfl := Option.some.inj (hnew.symm.trans hattempt')
        have hallowed := Store.Acts.allowed changes
        obtain ⟨updatedAt, rfl⟩ := htouches
        cases action with
        | observe result =>
          obtain ⟨report, hmem, haccepts⟩ := permitted
          obtain rfl : result = observed := Option.some.inj hobserved
          have hfence := congrArg Fence.attemptId (haccepts.toFence.symm.trans hallowed.2.2.1)
          exact .inr ⟨report, hmem, hfence.trans (hs.linked.bound.attempt_id hbefore), haccepts⟩
        | dispatch state reason => exact .inl ⟨attempt, rfl, hobserved⟩
        | renew lease => exact .inl ⟨attempt, rfl, hobserved⟩
        | abandon => exact .inl ⟨attempt, rfl, hobserved⟩
      · exact absurd (hnone.symm.trans hattempt') (by simp)
  | administer same => exact .inl (hsame (same.lookupAttempt id))
  | _ => exact .inl (hsame rfl)

/-- Every record stays attested. -/
theorem Attested.change (hs : s.Sound) (ht : s.Traced) (ha : s.Attested)
    (h : Change careful s s') : s'.Attested where
  reserved {ledger executor} hlookup := by
    cases h with
    | @execute acting before after found changes installed node installation =>
      obtain ⟨rfl, rfl⟩ | ⟨-, hold⟩ := lookup_insert_cases hlookup
      · exact changes.reserved (fun _ => careful_of_allows)
          (hs.installed found).invariant.ledger.bound (ha.reserved found)
      · exact ha.reserved hold
    | install fresh =>
      obtain ⟨rfl, rfl⟩ | ⟨-, hold⟩ := lookup_insert_cases hlookup
      · exact (Supervisor.consistent_install _ _).reserved
      · exact ha.reserved hold
    | _ => exact ha.reserved hlookup
  reported report hreport hconfirmed := by
    have hold : report ∈ s.reports → ∃ ledger, s'.Cleaned ledger report.attemptId := by
      intro hmem
      obtain ⟨ledger, hcleaned⟩ := ha.reported report hmem hconfirmed
      exact ⟨ledger, hcleaned.change hs ht ha h⟩
    cases h with
    | @report ledger id value shown found hshown =>
      obtain rfl | hmem := List.mem_cons.mp hreport
      · have hid : report.attemptId = id :=
          (congrArg Fence.attemptId (Value.report_eq hshown).1).trans (known_of_record hs found).2
        rw [hid]
        exact ⟨ledger, value, found, (Value.report_cleanup hshown).symm.trans hconfirmed⟩
      · exact hold hmem
    | discard kept => exact hold (kept _ hreport)
    | _ => exact hold hreport
  observed {id attempt' observed} hattempt' hobserved hconfirmed := by
    obtain ⟨attempt, hattempt, hbefore⟩ | ⟨report, hmem, rfl, haccepts⟩ :=
      observed_of_change hs h hattempt' hobserved
    · obtain ⟨ledger, hcleaned⟩ := ha.observed hattempt hbefore hconfirmed
      exact ⟨ledger, hcleaned.change hs ht ha h⟩
    · obtain ⟨ledger, hcleaned⟩ := ha.reported report hmem (haccepts.cleanup.symm.trans hconfirmed)
      exact ⟨ledger, hcleaned.change hs ht ha h⟩

section Attempts

/-- The event neither records an observation nor reserves devices that are not free. -/
def Unobserving (store : Store) : Store.Event → Prop
  | .act (.observe _) _ _ => False
  | .reserve _ attempt => store.requireFree attempt.plan.job.limits.gpuDevices = .ok ()
  | _ => True

/-- What a step does to an attempt that stays stored. A new observation has one of the given
confirmations. -/
structure Resumes (confirms : Bool → Prop) (attempt attempt' : Attempt) : Prop where
  plan : attempt'.plan = attempt.plan
  retired : Store.Retired attempt → attempt' = attempt
  observed : attempt'.observed = attempt.observed ∨
    ∃ observed, attempt'.observed = some observed ∧ confirms observed.cleanupConfirmed

omit [Hash Plan] [Hash Submission] in
theorem Resumes.refl (confirms : Bool → Prop) (attempt : Attempt) :
    Resumes confirms attempt attempt := ⟨rfl, fun _ => rfl, .inl rfl⟩

omit [Hash Plan] [Hash Submission] in
theorem Resumes.trans {confirms : Bool → Prop} {first second third : Attempt}
    (h : Resumes confirms first second) (h' : Resumes confirms second third) :
    Resumes confirms first third where
  plan := h'.plan.trans h.plan
  retired hretired := by
    have heq := h.retired hretired
    rw [h'.retired (heq.symm ▸ hretired), heq]
  observed := by
    obtain hsame | hnew := h'.observed
    · rw [hsame]
      exact h.observed
    · exact .inr hnew

variable {attempt attempt' : Attempt} {store' : Store}

omit [Hash Submission] in
/-- An action on an attempt, which records a result or keeps the last one. -/
theorem resumes_of_act {action : Workloads.Action} {job : Record}
    (hallowed : action.Allowed job attempt) (h : (action.applyAttempt attempt).Touches attempt')
    {confirms : Bool → Prop}
    (hconfirms : ∀ result, action = .observe result → confirms result.cleanupConfirmed) :
    Resumes confirms attempt attempt' := by
  obtain ⟨updatedAt, rfl⟩ := h
  refine ⟨?_, fun hretired => absurd hretired hallowed.not_retired, ?_⟩
  · cases action <;> rfl
  · cases action with
    | observe result => exact .inr ⟨result, rfl, hconfirms result rfl⟩
    | _ => exact .inl rfl

/-- Where a stored attempt comes from when nothing was observed. -/
theorem attempt_of_event {store : Store} (hl : store.Linked) {event : Store.Event}
    (h : event.Changes store store') (hevent : Unobserving store event) {id : Identity}
    (hattempt' : store'.lookupAttempt id = some attempt') :
    (∃ attempt, store.lookupAttempt id = some attempt ∧
      Resumes (fun _ => False) attempt attempt') ∨
      store.lookupAttempt id = none ∧ attempt'.observed = none ∧
        store.requireFree attempt'.plan.job.limits.gpuDevices = .ok () := by
  cases hbefore : store.lookupAttempt id with
  | none =>
    obtain ⟨job, rfl, -⟩ := Store.reserve_of_changes hl h hbefore hattempt'
    obtain ⟨now, hcreated⟩ := Store.Reserves.created h
    refine .inr ⟨rfl, ?_, hevent⟩
    rw [hcreated]
    rfl
  | some attempt =>
    refine .inl ⟨attempt, rfl, ?_⟩
    obtain hkept | ⟨action, job, touched, rfl, htouches, hnew⟩ | ⟨job, -, -, hnone⟩ :=
      Store.lookupAttempt_of_changes hl h hbefore
    · obtain rfl := Option.some.inj (hkept.symm.trans hattempt')
      exact .refl _ _
    · obtain rfl := Option.some.inj (hnew.symm.trans hattempt')
      refine resumes_of_act (Store.Acts.allowed h) htouches ?_
      rintro result rfl
      exact hevent
    · exact absurd (hnone.symm.trans hattempt') (by simp)

/-- Where a stored attempt comes from when a report was recorded. -/
theorem attempt_of_records {report : Report} {store : Store} (hl : store.Linked)
    (h : Commands.Records report store store') {id : Identity}
    (hattempt' : store'.lookupAttempt id = some attempt') :
    ∃ attempt, store.lookupAttempt id = some attempt ∧
      Resumes (fun confirmed => confirmed = report.cleanupConfirmed ∧ report.attemptId = id)
        attempt attempt' := by
  have hlinked : ∀ {other}, Commands.Records report store other → other.Linked := by
    intro other hother
    induction hother with
    | refl => exact hl
    | tail _ hlast ih =>
      obtain ⟨result, job, attempt, -, hacts⟩ := hlast
      exact ih.act hacts
  induction h generalizing attempt' with
  | refl => exact ⟨attempt', hattempt', .refl _ _⟩
  | @tail middle last hfirst hlast ih =>
    obtain ⟨result, job, acted, haccepts, hacts⟩ := hlast
    have hmiddle := hlinked hfirst
    have hchanges : (Store.Event.act (.observe result) job acted).Changes middle last := hacts
    cases hbefore : middle.lookupAttempt id with
    | none =>
      obtain ⟨_, heq, -⟩ := Store.reserve_of_changes hmiddle hchanges hbefore hattempt'
      cases heq
    | some attempt =>
      obtain ⟨old, hold, hresumes⟩ := ih hbefore
      refine ⟨old, hold, hresumes.trans ?_⟩
      obtain hkept | ⟨action, job', touched, heq, htouches, hnew⟩ | ⟨job', heq, -, -⟩ :=
        Store.lookupAttempt_of_changes hmiddle hchanges hbefore
      · obtain rfl := Option.some.inj (hkept.symm.trans hattempt')
        exact .refl _ _
      · obtain rfl := Option.some.inj (hnew.symm.trans hattempt')
        cases heq
        refine resumes_of_act hacts.allowed htouches ?_
        rintro _ ⟨⟩
        have hfence := congrArg Fence.attemptId
          (haccepts.toFence.symm.trans hacts.allowed.2.2.1)
        exact ⟨haccepts.cleanup, hfence.trans (hmiddle.bound.attempt_id hbefore)⟩
      · cases heq

/-- An operation on the records that is neither an observation nor a reservation. -/
def ordinary : Store.Operation → Bool
  | .reserve .. | .observation .. => false
  | _ => true

omit [Hash Plan] [Hash Submission] in
theorem unobserving_of_causes (store : Store) {operation : Store.Operation} {event : Store.Event}
    (hordinary : ordinary operation = true) (hcauses : operation.Causes event) :
    Unobserving store event := by
  have hother : ∀ {P : Prop}, ordinary operation = false → P := fun hfalse =>
    absurd (hordinary.symm.trans hfalse) (by simp)
  cases event with
  | submit record => trivial
  | edit change job => trivial
  | remove job => trivial
  | reserve job attempt => cases operation <;> first | exact hother rfl | exact hcauses.elim
  | act action job attempt =>
    cases action with
    | observe result => cases operation <;> first | exact hother rfl | exact hcauses.elim
    | _ => trivial

/-- The records are as they were, or there was an event that observes nothing. -/
def Ordinary (store store' : Store) : Prop :=
  Store.SameRecords store store' ∨
    ∃ event, event.Changes store store' ∧ Unobserving store event

theorem ordinary_of_call (hs : s.Sound) {operation : Store.Operation}
    (hordinary : ordinary operation = true) (h : s.store.call operation = .ok store') :
    Ordinary s.store store' := by
  obtain ⟨hsame, -⟩ | ⟨event, hcauses, hchanges⟩ := Store.changes_of_call hs.linked h
  · exact .inl hsame
  · exact .inr ⟨event, hchanges, unobserving_of_causes s.store hordinary hcauses⟩

theorem ordinary_place (hs : s.Sound) {snapshot : Snapshot} {job : Record}
    {nodeId attemptId : Identity} {policyRevision : ℕ} {now : ℚ}
    (h : Runner.placement s.store snapshot job nodeId attemptId policyRevision now = .ok (attempt, store')) :
    Ordinary s.store store' := by
  simp only [Runner.placement, bind_eq_ok] at h
  obtain ⟨-, -, lease, -, hreserve⟩ := h
  obtain ⟨found, hattempt, hreserves⟩ := Store.reserve_eq_ok hs.linked.bound hreserve
  refine .inr ⟨.reserve found attempt, hreserves, ?_⟩
  simp only [Store.reserve, bind_eq_ok, raiseIf_eq_ok, exists_const] at hreserve
  obtain ⟨-, -, -, -, ⟨⟩, hfree, -⟩ := hreserve
  rw [Unobserving, hattempt]
  exact hfree

/-- A step records an observation only when a report arrives. -/
theorem ordinary_step (hs : s.Sound) (action : Action)
    (hreceive : ∀ index snapshot now, action ≠ .receive index snapshot now) :
    Ordinary s.store (s.step action).store := by
  have hself : Ordinary s.store s.store := .inl ⟨rfl, rfl⟩
  cases action with
  | submit request key delegation id now =>
    by_cases hdrawn : id ∈ s.drawn
    · rw [step, if_pos hdrawn]
      exact hself
    rw [step, if_neg hdrawn]
    cases hsubmit : (s.store.submit request key delegation id now).map Prod.snd with
    | error e => exact hself
    | ok store' =>
      have hcall : s.store.call (.submit request key delegation id now) = .ok store' := hsubmit
      exact ordinary_of_call hs rfl hcall
  | place snapshot job nodeId attemptId policyRevision now =>
    by_cases hdrawn : attemptId ∈ s.drawn
    · rw [step, if_pos hdrawn]
      exact hself
    rw [step, if_neg hdrawn]
    cases hplace : Runner.placement s.store snapshot job nodeId attemptId policyRevision now with
    | error e => exact hself
    | ok result => exact ordinary_place hs hplace
  | prepare id snapshot =>
    rw [step]
    cases hsend : prepareCommand s.store id snapshot with
    | error e => exact hself
    | ok result =>
      simp only [prepareCommand, bind_eq_ok] at hsend
      obtain ⟨attempt, -, -, -, ledgerId, -, hsend⟩ := hsend
      split_ifs at hsend
      obtain rfl := Except.ok.inj hsend
      exact hself
  | rejectAbsent id snapshot =>
    rw [step]
    cases hsend : rejectCommand s.store id snapshot with
    | error e => exact hself
    | ok result =>
      simp only [rejectCommand, bind_eq_ok, Except.ok.injEq] at hsend
      obtain ⟨attempt, -, -, -, ledgerId, -, rfl⟩ := hsend
      exact hself
  | renew id expiresAt now =>
    rw [step]
    cases hsend : renewCommand s.store id expiresAt now with
    | error e => exact hself
    | ok result =>
      simp only [renewCommand, bind_eq_ok, Prod.exists, Except.ok.injEq] at hsend
      obtain ⟨lease, store', hrenew, rfl⟩ := hsend
      have hcall : s.store.call (.renew id expiresAt now) = .ok store' := by
        rw [Store.call, hrenew]
        rfl
      exact ordinary_of_call hs rfl hcall
  | start id now =>
    rw [step]
    cases hsend : startCommand s.store id now with
    | error e => exact hself
    | ok result =>
      simp only [startCommand, bind_eq_ok, Prod.exists, Except.ok.injEq] at hsend
      obtain ⟨attempt, store', htransition, rfl⟩ := hsend
      have hcall : s.store.call (.transition id .prepared .starting none now) = .ok store' := by
        rw [Store.call, htransition]
        rfl
      exact ordinary_of_call hs rfl hcall
  | uncertain id reason now =>
    rw [step]
    cases huncertain : Commands.uncertain s.store id reason now with
    | error e => exact hself
    | ok store' =>
      simp only [Commands.uncertain, bind_eq_ok] at huncertain
      obtain ⟨attempt, -, huncertain⟩ := huncertain
      split_ifs at huncertain
      · have hcall : s.store.call (.transition id attempt.state .unknown (some reason) now) =
            .ok store' := huncertain
        exact ordinary_of_call hs rfl hcall
      · obtain rfl := Except.ok.inj huncertain
        exact hself
  | records operation =>
    by_cases hquiet : operation.quiet
    swap
    · rw [step, if_neg hquiet]
      exact hself
    rw [step, if_pos hquiet]
    cases hcall : s.store.call operation with
    | error e => exact hself
    | ok store' =>
      refine ordinary_of_call hs ?_ hcall
      cases operation <;> first | rfl | cases hquiet
  | receive index snapshot now => exact absurd rfl (hreceive index snapshot now)
  | deliver index ledger surroundings =>
    rw [step]
    split <;> exact hself
  | report ledger id =>
    rw [step]
    split <;> exact hself
  | install settings ledger =>
    rw [step]
    split_ifs <;> exact hself
  | act ledger operation =>
    rw [step]
    split
    · split_ifs <;> exact hself
    · exact hself
  | stop fence => exact hself
  | release fence => exact hself
  | lose index => exact hself
  | drop index => exact hself

/-- Where a stored attempt comes from. -/
theorem attempt_of_step (hs : s.Sound) (action : Action) {id : Identity}
    (hattempt' : (s.step action).store.lookupAttempt id = some attempt') :
    (∃ attempt, s.store.lookupAttempt id = some attempt ∧
      (Resumes (fun _ => False) attempt attempt' ∨ ∃ index snapshot now report,
        action = .receive index snapshot now ∧ s.reports[index]? = some report ∧
          Resumes (fun confirmed => confirmed = report.cleanupConfirmed ∧ report.attemptId = id)
            attempt attempt')) ∨
      s.store.lookupAttempt id = none ∧ attempt'.observed = none ∧
        s.store.requireFree attempt'.plan.job.limits.gpuDevices = .ok () := by
  by_cases hreceive : ∃ index snapshot now, action = .receive index snapshot now
  · obtain ⟨index, snapshot, now, rfl⟩ := hreceive
    cases hreport : s.reports[index]? with
    | none =>
      simp only [step, hreport] at hattempt'
      exact .inl ⟨attempt', hattempt', .inl (.refl _ _)⟩
    | some report =>
      simp only [step, hreport] at hattempt'
      obtain ⟨attempt, hattempt, hresumes⟩ := attempt_of_records hs.linked
        (Commands.records_observation hs.linked.bound report snapshot now) hattempt'
      exact .inl ⟨attempt, hattempt,
        .inr ⟨index, snapshot, now, report, rfl, hreport, hresumes⟩⟩
  · have hordinary := ordinary_step hs action fun index snapshot now heq =>
      hreceive ⟨index, snapshot, now, heq⟩
    obtain hsame | ⟨event, hchanges, hevent⟩ := hordinary
    · rw [hsame.lookupAttempt] at hattempt'
      exact .inl ⟨attempt', hattempt', .inl (.refl _ _)⟩
    · obtain ⟨attempt, hattempt, hresumes⟩ | hnew :=
        attempt_of_event hs.linked hchanges hevent hattempt'
      · exact .inl ⟨attempt, hattempt, .inl hresumes⟩
      · exact .inr hnew

/-- A step stores one new attempt at most. -/
theorem new_attempt_unique (hs : s.Sound) (action : Action) {id id' : Identity}
    (hbefore : s.store.lookupAttempt id = none) (hbefore' : s.store.lookupAttempt id' = none)
    (hafter : (s.step action).store.lookupAttempt id = some attempt)
    (hafter' : (s.step action).store.lookupAttempt id' = some attempt') : id' = id := by
  by_cases hreceive : ∃ index snapshot now, action = .receive index snapshot now
  · obtain ⟨index, snapshot, now, rfl⟩ := hreceive
    obtain ⟨found, hfound, -⟩ | ⟨-, -, -⟩ := attempt_of_step hs _ hafter
    · rw [hbefore] at hfound
      cases hfound
    cases hreport : s.reports[index]? with
    | none =>
      simp only [step, hreport, hbefore] at hafter
      cases hafter
    | some report =>
      simp only [step, hreport] at hafter
      obtain ⟨found, hfound, -⟩ := attempt_of_records hs.linked
        (Commands.records_observation hs.linked.bound report snapshot now) hafter
      rw [hbefore] at hfound
      cases hfound
  · have hordinary := ordinary_step hs action fun index snapshot now heq =>
      hreceive ⟨index, snapshot, now, heq⟩
    obtain hsame | ⟨event, hchanges, -⟩ := hordinary
    · rw [hsame.lookupAttempt, hbefore] at hafter
      cases hafter
    · obtain ⟨job, rfl, rfl⟩ := Store.reserve_of_changes hs.linked hchanges hbefore hafter
      obtain ⟨job', heq, rfl⟩ := Store.reserve_of_changes hs.linked hchanges hbefore' hafter'
      cases heq
      rfl

end Attempts

section Order

/-- The position of the report that arrives. -/
def Action.received : Action → Option ℕ
  | .receive index _ _ => some index
  | _ => none

/-- A report that arrives is the oldest one about its attempt. Those that were made before it have
arrived or are lost. -/
def InOrder (s : System) (action : Action) : Prop :=
  ∀ index ∈ action.received, ∀ report ∈ s.reports[index]?,
    ∀ older ∈ s.reports.drop (index + 1), older.attemptId ≠ report.attemptId

instance (s : System) (action : Action) : Decidable (s.InOrder action) :=
  inferInstanceAs (Decidable (∀ _ ∈ _, _))

/-- A later report confirms what an earlier one has confirmed, and what the controller has
recorded. -/
structure Ordered (s : System) : Prop where
  pairwise : s.reports.Pairwise fun newer older => older.attemptId = newer.attemptId →
    older.cleanupConfirmed = true → newer.cleanupConfirmed = true
  current : ∀ {id : Identity} {attempt : Attempt} {observed : AttemptResult},
    s.store.lookupAttempt id = some attempt → attempt.observed = some observed →
    observed.cleanupConfirmed = true → ∀ report ∈ s.reports, report.attemptId = id →
    report.cleanupConfirmed = true

/-- What a ledger has confirmed it reports. -/
theorem confirmed_of_cleaned (hs : s.Sound) (ht : s.Traced) {ledger ledger' id : Identity}
    {value : Value} {report : Report} (hcleaned : s.Cleaned ledger' id)
    (hrecord : s.record ledger id = some value) (hshown : value.publicReport = .ok report) :
    report.cleanupConfirmed = true := by
  obtain ⟨cleaned, hrecord', hconfirmed⟩ := hcleaned
  obtain ⟨⟨installationId, hknown⟩, hid⟩ := known_of_record hs hrecord
  obtain ⟨⟨installationId', hknown'⟩, hid'⟩ := known_of_record hs hrecord'
  -- An attempt is known to one ledger only.
  obtain ⟨-, -, rfl⟩ := ht.unique hknown hknown' (hid'.trans hid.symm)
  obtain rfl := Option.some.inj (hrecord'.symm.trans hrecord)
  rw [Value.report_cleanup hshown, hconfirmed]

omit [Hash Submission] in
/-- The oldest report about an attempt is at most as far as the others. -/
theorem confirmed_of_oldest (ho : s.Ordered) {index : ℕ} {report other : Report}
    (hreport : s.reports[index]? = some report)
    (holdest : ∀ older ∈ s.reports.drop (index + 1), older.attemptId ≠ report.attemptId)
    (hconfirmed : report.cleanupConfirmed = true) (hother : other ∈ s.reports)
    (hsame : other.attemptId = report.attemptId) : other.cleanupConfirmed = true := by
  obtain ⟨hlt, rfl⟩ := List.getElem?_eq_some_iff.mp hreport
  obtain ⟨position, hposition, rfl⟩ := List.mem_iff_getElem.mp hother
  rcases lt_trichotomy position index with hnewer | rfl | holder
  · exact List.pairwise_iff_getElem.mp ho.pairwise position index hposition hlt hnewer hsame.symm
      hconfirmed
  · exact hconfirmed
  · refine absurd hsame (holdest _ ?_)
    rw [List.mem_drop_iff_getElem]
    refine ⟨position - (index + 1), by omega, ?_⟩
    congr 1
    omega

omit [Hash Submission] in
theorem reports_commit (s : System) (result : Except Error Store) :
    (s.commit result).reports = s.reports := by
  cases result <;> rfl

omit [Hash Submission] in
theorem reports_dispatch (s : System) (result : Except Error (Command × Store)) :
    (s.dispatch result).reports = s.reports := by
  cases result <;> rfl

/-- Reports get lost or arrive, or the newest one is made. -/
theorem reports_step (s : System) (action : Action) :
    (s.step action).reports.Sublist s.reports ∨
      ∃ ledger id value report, s.record ledger id = some value ∧
        value.publicReport = .ok report ∧ (s.step action).reports = report :: s.reports := by
  have hself {reports : List Report} (h : reports = s.reports) : reports.Sublist s.reports :=
    h ▸ .refl _
  cases action with
  | report ledger id =>
    rw [step]
    split
    · rename_i report hreport
      obtain ⟨value, hvalue, hshown⟩ := Option.map_eq_some_iff.mp hreport
      exact .inr ⟨ledger, id, value, report, hvalue, hshown, rfl⟩
    · exact .inl (.refl _)
  | receive index snapshot now =>
    rw [step]
    split
    · exact .inl (List.eraseIdx_sublist ..)
    · exact .inl (.refl _)
  | drop index => exact .inl (List.eraseIdx_sublist ..)
  | submit request key delegation id now =>
    rw [step]
    split_ifs
    · exact .inl (.refl _)
    · exact .inl (hself (reports_commit s _))
  | place snapshot job nodeId attemptId policyRevision now =>
    rw [step]
    split_ifs
    · exact .inl (.refl _)
    · exact .inl (hself (reports_commit s _))
  | prepare id snapshot => exact .inl (hself (reports_dispatch s _))
  | rejectAbsent id snapshot => exact .inl (hself (reports_dispatch s _))
  | renew id expiresAt now => exact .inl (hself (reports_dispatch s _))
  | start id now => exact .inl (hself (reports_dispatch s _))
  | uncertain id reason now => exact .inl (hself (reports_commit s _))
  | records operation =>
    rw [step]
    split_ifs
    · exact .inl (hself (reports_commit s _))
    · exact .inl (.refl _)
  | deliver index ledger surroundings =>
    rw [step]
    split <;> exact .inl (.refl _)
  | install settings ledger =>
    rw [step]
    split_ifs <;> exact .inl (.refl _)
  | act ledger operation =>
    rw [step]
    split
    · split_ifs <;> exact .inl (.refl _)
    · exact .inl (.refl _)
  | stop fence => exact .inl (.refl _)
  | release fence => exact .inl (.refl _)
  | lose index => exact .inl (.refl _)

theorem Ordered.step (hs : s.Sound) (ht : s.Traced) (ha : s.Attested) (ho : s.Ordered)
    {action : Action} (hin : s.InOrder action) : (s.step action).Ordered where
  pairwise := by
    obtain hkept | ⟨ledger, id, value, report, hrecord, hshown, hreports⟩ := reports_step s action
    · exact ho.pairwise.sublist hkept
    rw [hreports, List.pairwise_cons]
    refine ⟨fun older holder hsame hconfirmed => ?_, ho.pairwise⟩
    obtain ⟨ledger', hcleaned⟩ := ha.reported older holder hconfirmed
    have hid : report.attemptId = id :=
      (congrArg Fence.attemptId (Value.report_eq hshown).1).trans (known_of_record hs hrecord).2
    rw [hsame, hid] at hcleaned
    exact confirmed_of_cleaned hs ht hcleaned hrecord hshown
  current {id attempt' observed} hattempt' hobserved hconfirmed other hother hid := by
    -- What was recorded before the step is confirmed by all reports.
    have hold {attempt : Attempt} (hattempt : s.store.lookupAttempt id = some attempt)
        (hsame : attempt'.observed = attempt.observed) : other.cleanupConfirmed = true := by
      rw [hsame] at hobserved
      obtain hkept | ⟨ledger, id', value, report, hrecord, hshown, hreports⟩ :=
        reports_step s action
      · exact ho.current hattempt hobserved hconfirmed other (hkept.subset hother) hid
      rw [hreports] at hother
      obtain rfl | hother := List.mem_cons.mp hother
      · obtain ⟨ledger', hcleaned⟩ := ha.observed hattempt hobserved hconfirmed
        have hid' : other.attemptId = id' :=
          (congrArg Fence.attemptId (Value.report_eq hshown).1).trans
            (known_of_record hs hrecord).2
        rw [← hid, hid'] at hcleaned
        exact confirmed_of_cleaned hs ht hcleaned hrecord hshown
      · exact ho.current hattempt hobserved hconfirmed other hother hid
    obtain ⟨attempt, hattempt, hresumes | ⟨index, snapshot, now, report, rfl, hreport, hresumes⟩⟩ |
      ⟨-, hnone, -⟩ := attempt_of_step hs action hattempt'
    · obtain hsame | ⟨-, -, hfalse⟩ := hresumes.observed
      · exact hold hattempt hsame
      · exact hfalse.elim
    · obtain hsame | ⟨result, hresult, hcleanup, hattemptId⟩ := hresumes.observed
      · exact hold hattempt hsame
      · obtain rfl := Option.some.inj (hresult.symm.trans hobserved)
        simp only [System.step, hreport] at hother
        exact confirmed_of_oldest ho hreport (hin index rfl report hreport)
          (hcleanup.symm.trans hconfirmed) (List.mem_of_mem_eraseIdx hother)
          (hid.trans hattemptId.symm)
    · rw [hnone] at hobserved
      cases hobserved

end Order

/-- A record that an executor has of a stored attempt is of the same plan, and at the ledger that
the attempt is bound to. A cleanup or a release that the controller has recorded is one of that
ledger, also after `later`. -/
structure Grounded (s : System) (later : List Action) : Prop where
  bound : ∀ {id ledger attempt}, s.store.lookupAttempt id = some attempt →
    attempt.ledgerId = some ledger → ∀ {other value}, s.record other id = some value →
      other = ledger ∧ value.plan = attempt.plan
  cleaned : ∀ {id ledger attempt}, s.store.lookupAttempt id = some attempt →
    attempt.ledgerId = some ledger → ∀ {observed}, attempt.observed = some observed →
      observed.cleanupConfirmed = true → (run step s later).Cleaned ledger id
  released : ∀ {id ledger attempt}, s.store.lookupAttempt id = some attempt →
    attempt.ledgerId = some ledger → attempt.state = .released →
      (run step s later).Settled ledger id

/-- In every run what the controller has stored of an attempt agrees with the executors' ledgers,
whatever happens afterwards. -/
theorem records_grounded (projects identities : List Identity)
    (contributors : Table Identity Contributor) (policyRevision : ℕ) (managed : List String)
    (earlier later : List Action) :
    (run step (initial projects identities contributors policyRevision managed) earlier).Grounded
      later := by
  let I (t : System) : Prop := t.Traced ∧ t.Exclusive ∧ t.Attested
  have hkeeps {t t' : System} (hs : t.Sound) (h : I t) (hchange : Change False t t') : I t' :=
    ⟨h.1.change hs hchange, h.2.1.change hs h.1 hchange, h.2.2.change hs h.1 hchange⟩
  have hinitial : I (initial projects identities contributors policyRevision managed) := by
    refine ⟨traced_initial .., exclusive_initial .., fun h => ?_, fun _ h => ?_, fun h => ?_⟩
    · simp [initial] at h
    · exact absurd h List.not_mem_nil
    · simp [initial, Store.initial, Store.lookupAttempt] at h
  obtain ⟨hs, ht, he, ha⟩ := run_changes hkeeps (sound_initial ..) hinitial earlier
  generalize run step _ earlier = s at hs ht he ha ⊢
  -- An attempt's plan names it, and no two ledgers know plans of one attempt.
  have hbound {id ledger : Identity} {attempt : Attempt}
      (hattempt : s.store.lookupAttempt id = some attempt)
      (hledger : attempt.ledgerId = some ledger) {other : Identity} {value : Value}
      (hrecord : s.record other id = some value) :
      other = ledger ∧ value.plan = attempt.plan := by
    have hplan := (Prod.mk.inj (hs.linked.attempt hattempt).plan_bound).1
    obtain ⟨⟨installationId, hknown⟩, hsame⟩ := known_of_record hs hrecord
    obtain ⟨hplan, -, hother⟩ := ht.unique (.stored hattempt rfl rfl hledger) hknown
      (hsame.trans (hs.linked.bound.attempt_id hattempt).symm |>.trans hplan)
    exact ⟨hother, hplan⟩
  refine ⟨hbound, fun hattempt hledger _ hobserved hconfirmed => ?_,
    fun {id ledger _} hattempt hledger hreleased => ?_⟩
  · obtain ⟨other, hcleaned⟩ := ha.observed hattempt hobserved hconfirmed
    rw [hcleaned.elim fun _ hvalue => (hbound hattempt hledger hvalue.1).1] at hcleaned
    -- The invariants are kept together with what is cleaned.
    exact (run_changes (I := fun t => I t ∧ t.Cleaned _ _) (fun hs h hchange =>
      ⟨hkeeps hs h.1 hchange, h.2.change hs h.1.1 h.1.2.2 hchange⟩) hs ⟨⟨ht, he, ha⟩, hcleaned⟩
      later).2.2
  · have hsettled := he.released hattempt hreleased hledger
    exact (run_changes (I := fun t => I t ∧ t.Settled ledger id) (fun hs h hchange =>
      ⟨hkeeps hs h.1 hchange, h.2.change hs h.1.1 hchange⟩) hs ⟨⟨ht, he, ha⟩, hsettled⟩ later).2.2

end System

end Ficc
