import Ficc.System.Changes

/-!
# Where attempts are known

A plan is known to the controller, to the network and to the ledgers. Whatever knows a plan has
it from the reservation of its attempt, which fixes the installation and the ledger it is sent
to. An attempt is therefore known under one plan and at one ledger only, even after its job has
been removed, and a record that belongs to a stored attempt belongs to its plan and its ledger.
-/

namespace Ficc

open Execution Workloads

variable [Hash Plan]

/-- The command asks the ledger of the installation to admit or to reject the plan. -/
def Command.Asks (plan : Plan) (installationId ledgerId : Identity) : Command → Prop
  | .prepare installation ledger admission =>
    admission.plan = plan ∧ installation = installationId ∧ ledger = ledgerId
  | .rejectAbsent installation ledger asked =>
    asked = plan ∧ installation = installationId ∧ ledger = ledgerId
  | _ => False

namespace System

/-- The plan is stored, on its way, or recorded, for the ledger of the installation. -/
inductive Known (s : System) (plan : Plan) (installationId ledgerId : Identity) : Prop
  | stored {id : Identity} {attempt : Attempt} (found : s.store.lookupAttempt id = some attempt)
    (planned : attempt.plan = plan) (installation : attempt.installationId = installationId)
    (ledger : attempt.ledgerId = some ledgerId)
  | sent {command : Command} (mem : command ∈ s.commands)
    (asks : command.Asks plan installationId ledgerId)
  | recorded {executor : Supervisor} {id : Identity} {value : Value}
    (found : s.executors.lookup ledgerId = some executor)
    (get : executor.ledger.get id = some value) (planned : value.plan = plan)
    (installation : executor.settings.installationId = installationId)

/-- The second store has the reservation of the plan, with an identity that is new. -/
def Places (s s' : System) (plan : Plan) (installationId ledgerId : Identity) : Prop :=
  ∃ job attempt, attempt.id ∉ s.drawn ∧ attempt.id ∈ s'.drawn ∧ attempt.plan = plan ∧
    attempt.installationId = installationId ∧ attempt.ledgerId = some ledgerId ∧
    Store.Reserves s.store job attempt s'.store

variable {careful : Prop} {s s' : System} {plan : Plan} {installationId ledgerId : Identity}

theorem known_of_honest {command : Command} (h : s.Honest command)
    (hasks : command.Asks plan installationId ledgerId) : s.Known plan installationId ledgerId := by
  cases command with
  | prepare installation ledger admission =>
    obtain ⟨rfl, rfl, rfl⟩ := hasks
    obtain ⟨id, attempt, hattempt, hplan, -, hinstallation, hledger⟩ := h
    exact .stored hattempt hplan hinstallation hledger
  | rejectAbsent installation ledger asked =>
    obtain ⟨rfl, rfl, rfl⟩ := hasks
    obtain ⟨id, attempt, hattempt, hplan, hinstallation, hledger⟩ := h
    exact .stored hattempt hplan hinstallation hledger
  | _ => exact hasks.elim

variable {ledger id : Identity} {value : Value} {attempt : Attempt}

/-- A plan that an executor inserts was on its way to it. -/
theorem known_of_inserted {executor : Supervisor} {middle : Ledger}
    (h : Ledger.Inserted (s.Allows careful ledger executor) middle value) :
    s.Known value.plan executor.settings.installationId ledger := by
  cases h with
  | reserved plan slot binding now offer admits permitted =>
    obtain ⟨-, admission, hplan, hmem⟩ := permitted
    exact .sent hmem ⟨hplan, rfl, rfl⟩
  | rejected plan now observation unblocked permitted =>
    obtain ⟨-, ⟨admission, hplan, hmem⟩ | hmem⟩ := permitted
    · exact .sent hmem ⟨hplan, rfl, rfl⟩
    · exact .sent hmem ⟨rfl, rfl, rfl⟩

theorem not_asks_of_sends {event : Store.Event} {command : Command} (h : command ∈ sends event) :
    ¬command.Asks plan installationId ledgerId := by
  unfold sends at h
  split at h
  · obtain rfl := List.mem_singleton.mp h
    exact id
  · obtain rfl := List.mem_singleton.mp h
    exact id
  · cases h

/-- What a change leaves alone. -/
theorem Known.of_frame (h : s'.Known plan installationId ledgerId)
    (hstore : ∀ id, s'.store.lookupAttempt id = s.store.lookupAttempt id)
    (hcommands : ∀ command ∈ s'.commands, command ∈ s.commands)
    (hexecutors : s'.executors = s.executors) :
    s.Known plan installationId ledgerId := by
  cases h with
  | stored found planned installation ledger =>
    exact .stored ((hstore _).symm.trans found) planned installation ledger
  | sent mem asks => exact .sent (hcommands _ mem) asks
  | recorded found get planned installation =>
    exact .recorded (hexecutors ▸ found) get planned installation

variable [Hash Submission]

/-- A plan is known only after its reservation. -/
theorem known_of_change (hs : s.Sound) (h : Change careful s s')
    (hknown : s'.Known plan installationId ledgerId) :
    s.Known plan installationId ledgerId ∨ Places s s' plan installationId ledgerId := by
  cases h with
  | @records event store' permitted changes =>
    cases hknown with
    | @stored id attempt' found planned installation ledger =>
      cases hbefore : s.store.lookupAttempt id with
      | none =>
        obtain ⟨job, rfl, -⟩ := Store.reserve_of_changes hs.linked changes hbefore found
        exact .inr ⟨job, attempt', permitted.1,
          Finset.mem_union_left _ (Finset.mem_singleton_self _), planned, installation, ledger,
          changes⟩
      | some attempt =>
        refine .inl ?_
        obtain hkept | ⟨action, job, touched, rfl, htouches, hnew⟩ | ⟨job, -, -, hnone⟩ :=
          Store.lookupAttempt_of_changes hs.linked changes hbefore
        · obtain rfl := Option.some.inj (hkept.symm.trans found)
          exact .stored hbefore planned installation ledger
        · obtain rfl := Option.some.inj (hnew.symm.trans found)
          obtain ⟨hledger, hinstallation⟩ := ledgerId_of_act htouches
          have hkeeps := Store.keepsAttempt_of_act ((hs.linked.changes changes).attempt found) htouches
          exact .stored hbefore (hkeeps.plan ▸ planned) (hinstallation ▸ installation)
            (hledger ▸ ledger)
        · exact absurd (hnone.symm.trans found) (by simp)
    | sent mem asks =>
      obtain hnew | hold := List.mem_append.mp mem
      · exact absurd asks (not_asks_of_sends hnew)
      · exact .inl (.sent hold asks)
    | recorded found get planned installation => exact .inl (.recorded found get planned installation)
  | administer same => exact .inl (hknown.of_frame same.lookupAttempt (fun _ => id) rfl)
  | draw other => exact .inl (hknown.of_frame (fun _ => rfl) (fun _ => id) rfl)
  | report found shown => exact .inl (hknown.of_frame (fun _ => rfl) (fun _ => id) rfl)
  | discard kept => exact .inl (hknown.of_frame (fun _ => rfl) (fun _ => id) rfl)
  | forget kept started => exact .inl (hknown.of_frame (fun _ => rfl) kept rfl)
  | send honest =>
    refine .inl ?_
    cases hknown with
    | stored found planned installation ledger => exact .stored found planned installation ledger
    | sent mem asks =>
      obtain rfl | hold := List.mem_cons.mp mem
      · exact known_of_honest honest asks
      · exact .sent hold asks
    | recorded found get planned installation => exact .recorded found get planned installation
  | @execute ledger executor executor' found changes installed node installation =>
    refine .inl ?_
    cases hknown with
    | stored found planned installation ledger => exact .stored found planned installation ledger
    | sent mem asks => exact .sent mem asks
    | recorded found' get planned installed' =>
      obtain ⟨rfl, rfl⟩ | ⟨-, hlookup⟩ := lookup_insert_cases found'
      · have hbound := (hs.installed found).invariant.ledger.bound
        rw [installation] at installed'
        subst planned installed'
        obtain ⟨value, hvalue, hdevelops⟩ | ⟨middle, first, -, hinserted, hdevelops⟩ :=
          changes.backward hbound get
        · rw [hdevelops.plan]
          exact .recorded found hvalue rfl rfl
        · rw [hdevelops.plan]
          exact known_of_inserted hinserted
      · exact .recorded hlookup get planned installed'
  | install fresh =>
    refine .inl ?_
    cases hknown with
    | stored found planned installation ledger => exact .stored found planned installation ledger
    | sent mem asks => exact .sent mem asks
    | recorded found get planned installation =>
      obtain ⟨rfl, rfl⟩ | ⟨-, hlookup⟩ := lookup_insert_cases found
      · simp [Supervisor.install, Supervisor.opened, Ledger.create, Ledger.get] at get
      · exact .recorded hlookup get planned installation

/-- Everything that is known of an attempt agrees, and every identity in use has been drawn. -/
structure Traced (s : System) : Prop where
  attempt_drawn : ∀ {plan : Plan} {installationId ledgerId : Identity},
    s.Known plan installationId ledgerId → plan.attemptId ∈ s.drawn
  job_drawn : ∀ {plan : Plan} {installationId ledgerId : Identity},
    s.Known plan installationId ledgerId → plan.jobId ∈ s.drawn
  record_drawn : ∀ {id : Identity} {job : Record}, s.store.lookupJob id = some job → id ∈ s.drawn
  ledger_drawn : ∀ {ledger : Identity} {executor : Supervisor},
    s.executors.lookup ledger = some executor → ledger ∈ s.drawn
  unique : ∀ {plan plan' : Plan} {installationId installationId' ledgerId ledgerId' : Identity},
    s.Known plan installationId ledgerId → s.Known plan' installationId' ledgerId' →
    plan'.attemptId = plan.attemptId →
    plan' = plan ∧ installationId' = installationId ∧ ledgerId' = ledgerId
  /-- As long as its job is stored, the attempt of a known plan is stored. -/
  retained : ∀ {plan : Plan} {installationId ledgerId : Identity},
    s.Known plan installationId ledgerId → s.store.lookupJob plan.jobId ≠ none →
    s.store.lookupAttempt plan.attemptId ≠ none

omit [Hash Submission] in
/-- A reserved attempt has the identity and the job of its plan. -/
theorem attempt_of_reserves {store store' : Store} {job : Record}
    (h : Store.Reserves store job attempt store') :
    attempt.id = attempt.plan.attemptId ∧ attempt.plan.jobId = job.id ∧
      store'.lookupAttempt attempt.id = some attempt := by
  obtain ⟨now, hcreated⟩ := h.created
  obtain ⟨job', -, -, hwrites⟩ := h.writes
  have hjobId : attempt.jobId = job.id := by rw [hcreated]; rfl
  obtain ⟨hid, hjob, -⟩ : attempt.id = attempt.plan.attemptId ∧
      attempt.jobId = attempt.plan.jobId ∧ attempt.nodeId = attempt.plan.nodeId := by
    simpa using h.valid.plan_bound
  exact ⟨hid, hjob.symm.trans hjobId, by rw [hwrites.attempts, if_pos rfl]⟩

omit [Hash Submission] in
theorem Places.attemptId (h : Places s s' plan installationId ledgerId) :
    plan.attemptId ∉ s.drawn ∧ plan.attemptId ∈ s'.drawn := by
  obtain ⟨job, attempt, hfresh, hdrawn, rfl, -, -, hreserves⟩ := h
  rw [← (attempt_of_reserves hreserves).1]
  exact ⟨hfresh, hdrawn⟩

omit [Hash Submission] in
/-- A change reserves one attempt only. -/
theorem Places.unique {plan' : Plan} {installationId' ledgerId' : Identity}
    (h : Places s s' plan installationId ledgerId)
    (h' : Places s s' plan' installationId' ledgerId') (hid : plan'.attemptId = plan.attemptId) :
    plan' = plan ∧ installationId' = installationId ∧ ledgerId' = ledgerId := by
  obtain ⟨job, attempt, -, -, rfl, rfl, hledger, hreserves⟩ := h
  obtain ⟨job', attempt', -, -, rfl, rfl, hledger', hreserves'⟩ := h'
  obtain ⟨hplan, -, hlookup⟩ := attempt_of_reserves hreserves
  obtain ⟨hplan', -, hlookup'⟩ := attempt_of_reserves hreserves'
  rw [hplan', hid, ← hplan, hlookup] at hlookup'
  obtain rfl := Option.some.inj hlookup'
  exact ⟨rfl, rfl, Option.some.inj (hledger'.symm.trans hledger)⟩

/-- The identities that are drawn in a change stay drawn. -/
theorem drawn_of_change (h : Change careful s s') (hid : id ∈ s.drawn) :
    id ∈ s'.drawn := by
  cases h with
  | records permitted changes => exact Finset.mem_union_right _ hid
  | draw other => exact Finset.mem_insert_of_mem hid
  | install fresh => exact Finset.mem_insert_of_mem hid
  | _ => exact hid

/-- A stored job was stored before, or its identity has been drawn. -/
theorem lookupJob_of_change (hs : s.Sound) (h : Change careful s s') {job' : Record}
    (hjob' : s'.store.lookupJob id = some job') :
    s.store.lookupJob id ≠ none ∨ id ∉ s.drawn ∧ id ∈ s'.drawn := by
  have hsame : s'.store.lookupJob id = s.store.lookupJob id → s.store.lookupJob id ≠ none := by
    intro heq
    rw [← heq, hjob']
    exact Option.some_ne_none _
  cases h with
  | records permitted changes =>
    by_cases hbefore : s.store.lookupJob id = none
    · obtain ⟨rfl, rfl⟩ := Store.submit_of_changes hs.linked changes hbefore hjob'
      exact .inr ⟨permitted, Finset.mem_union_left _ (Finset.mem_singleton_self _)⟩
    · exact .inl hbefore
  | administer same => exact .inl (hsame (same.lookupJob id))
  | _ => exact .inl (hsame rfl)

/-- A stored attempt is kept as long as its job is. -/
theorem lookupAttempt_of_change (hs : s.Sound) (h : Change careful s s')
    (hattempt : s.store.lookupAttempt id = some attempt)
    (hjob : s'.store.lookupJob attempt.jobId ≠ none) : s'.store.lookupAttempt id ≠ none := by
  have hsame : s'.store.lookupAttempt id = s.store.lookupAttempt id →
      s'.store.lookupAttempt id ≠ none := by
    intro heq
    rw [heq, hattempt]
    exact Option.some_ne_none _
  cases h with
  | records permitted changes =>
    obtain hkept | ⟨action, job, touched, rfl, -, hnew⟩ | ⟨job, rfl, hown, -⟩ :=
      Store.lookupAttempt_of_changes hs.linked changes hattempt
    · exact hsame (hkept.trans hattempt.symm)
    · rw [hnew]
      exact Option.some_ne_none _
    · refine absurd ?_ hjob
      rw [Store.Removes.jobs changes, if_pos hown]
  | administer same => exact hsame (same.lookupAttempt id)
  | _ => exact hsame rfl

/-- The stored attempt of a known plan. -/
theorem Traced.attempt_eq (hs : s.Sound) (ht : s.Traced)
    (hknown : s.Known plan installationId ledgerId)
    (hattempt : s.store.lookupAttempt plan.attemptId = some attempt) :
    attempt.plan = plan ∧ attempt.jobId = plan.jobId ∧ attempt.nodeId = plan.nodeId ∧
      attempt.installationId = installationId ∧ attempt.ledgerId = some ledgerId := by
  obtain ⟨ledger, hledger⟩ := Option.ne_none_iff_exists'.mp (hs.ledgered hattempt)
  have hid := hs.linked.bound.attempt_id hattempt
  have hbound : attempt.id = attempt.plan.attemptId ∧ attempt.jobId = attempt.plan.jobId ∧
      attempt.nodeId = attempt.plan.nodeId := by
    simpa using (hs.linked.attempt hattempt).plan_bound
  obtain ⟨hplan, rfl, rfl⟩ := ht.unique hknown (.stored hattempt rfl rfl hledger)
    (hbound.1.symm.trans hid)
  exact ⟨hplan, hplan ▸ hbound.2.1, hplan ▸ hbound.2.2, rfl, hledger⟩

theorem Traced.change (hs : s.Sound) (ht : s.Traced) (h : Change careful s s') : s'.Traced where
  attempt_drawn hknown := by
    obtain hold | hnew := known_of_change hs h hknown
    · exact drawn_of_change h (ht.attempt_drawn hold)
    · exact hnew.attemptId.2
  job_drawn hknown := by
    obtain hold | ⟨job, attempt, -, -, rfl, -, -, hreserves⟩ := known_of_change hs h hknown
    · exact drawn_of_change h (ht.job_drawn hold)
    · rw [(attempt_of_reserves hreserves).2.1]
      exact drawn_of_change h (ht.record_drawn hreserves.found)
  record_drawn hjob := by
    obtain hbefore | ⟨-, hdrawn⟩ := lookupJob_of_change hs h hjob
    · obtain ⟨job, hjob⟩ := Option.ne_none_iff_exists'.mp hbefore
      exact drawn_of_change h (ht.record_drawn hjob)
    · exact hdrawn
  ledger_drawn hlookup := by
    cases h with
    | execute found changes installed node installation =>
      obtain ⟨rfl, -⟩ | ⟨-, hlookup⟩ := lookup_insert_cases hlookup
      · exact ht.ledger_drawn found
      · exact ht.ledger_drawn hlookup
    | install fresh =>
      obtain ⟨rfl, -⟩ | ⟨-, hlookup⟩ := lookup_insert_cases hlookup
      · exact Finset.mem_insert_self _ _
      · exact Finset.mem_insert_of_mem (ht.ledger_drawn hlookup)
    | records permitted changes => exact Finset.mem_union_right _ (ht.ledger_drawn hlookup)
    | draw other => exact Finset.mem_insert_of_mem (ht.ledger_drawn hlookup)
    | _ => exact ht.ledger_drawn hlookup
  unique hfirst hsecond hid := by
    obtain hfirst | hfresh := known_of_change hs h hfirst <;>
      obtain hsecond | hfresh' := known_of_change hs h hsecond
    · exact ht.unique hfirst hsecond hid
    · exact absurd (hid ▸ ht.attempt_drawn hfirst) hfresh'.attemptId.1
    · exact absurd (hid.symm ▸ ht.attempt_drawn hsecond) hfresh.attemptId.1
    · exact hfresh.unique hfresh' hid
  retained {plan installationId ledgerId} hknown hjob := by
    obtain hold | ⟨job, attempt, -, -, rfl, -, -, hreserves⟩ := known_of_change hs h hknown
    · obtain ⟨job', hjob'⟩ := Option.ne_none_iff_exists'.mp hjob
      obtain hbefore | ⟨hfresh, -⟩ := lookupJob_of_change hs h hjob'
      · obtain ⟨attempt, hattempt⟩ := Option.ne_none_iff_exists'.mp (ht.retained hold hbefore)
        refine lookupAttempt_of_change hs h hattempt ?_
        rwa [(ht.attempt_eq hs hold hattempt).2.1]
      · exact absurd (ht.job_drawn hold) hfresh
    · obtain ⟨hid, -, hlookup⟩ := attempt_of_reserves hreserves
      rw [← hid, hlookup]
      exact Option.some_ne_none _

omit [Hash Submission] in
theorem record_eq_some :
    s.record ledger id = some value ↔
      ∃ executor, s.executors.lookup ledger = some executor ∧ executor.ledger.get id = some value :=
  Option.bind_eq_some_iff

/-- The record of a ledger that has one is known for it. -/
theorem known_of_record (hs : s.Sound) (h : s.record ledger id = some value) :
    (∃ installationId, s.Known value.plan installationId ledger) ∧ value.plan.attemptId = id := by
  obtain ⟨executor, hlookup, hget⟩ := record_eq_some.mp h
  exact ⟨⟨_, .recorded hlookup hget rfl rfl⟩, (hs.installed hlookup).invariant.ledger.bound.key hget⟩

/-- A record is kept, and moves that the commands allow lead to what becomes of it. -/
theorem record_of_change (hs : s.Sound) (ht : s.Traced) (h : Change careful s s')
    (hrecord : s.record ledger id = some value) :
    ∃ value' executor, s'.record ledger id = some value' ∧
      Ledger.Develops (s.Allows careful ledger executor) value value' := by
  obtain ⟨owner, hlookup, hget⟩ := record_eq_some.mp hrecord
  cases h with
  | @execute acting executor executor' found changes installed node installation =>
    by_cases hsame : ledger = acting
    · subst hsame
      obtain rfl := Option.some.inj (hlookup.symm.trans found)
      have hbound := (hs.installed found).invariant.ledger.bound
      obtain ⟨value', hget', hdevelops⟩ := changes.forward hbound hget
      refine ⟨value', owner, record_eq_some.mpr ⟨executor', ?_, hget'⟩, hdevelops⟩
      rw [Table.lookup_insert_eq, if_pos rfl]
    · refine ⟨value, owner, record_eq_some.mpr ⟨owner, ?_, hget⟩, .refl⟩
      rw [Table.lookup_insert_eq, if_neg hsame, hlookup]
  | @install settings fresh hfresh =>
    refine ⟨value, owner, record_eq_some.mpr ⟨owner, ?_, hget⟩, .refl⟩
    rw [Table.lookup_insert_eq, if_neg, hlookup]
    rintro rfl
    exact hfresh (ht.ledger_drawn hlookup)
  | _ => exact ⟨value, owner, hrecord, .refl⟩

omit [Hash Submission] in
theorem traced_initial (projects identities : List Identity)
    (contributors : Table Identity Contributor) (policyRevision : ℕ) (managed : List String) :
    (initial projects identities contributors policyRevision managed).Traced := by
  have hnone : ∀ {plan installationId ledgerId},
      ¬(initial projects identities contributors policyRevision managed).Known plan
        installationId ledgerId := by
    intro plan installationId ledgerId hknown
    cases hknown with
    | stored found planned installation ledger =>
      simp [initial, Store.initial, Store.lookupAttempt] at found
    | sent mem asks => cases mem
    | recorded found get planned installation => simp [initial] at found
  refine ⟨fun h => (hnone h).elim, fun h => (hnone h).elim, ?_, ?_, fun h => (hnone h).elim,
    fun h => (hnone h).elim⟩
  · intro id job hjob
    simp [initial, Store.initial, Store.lookupJob] at hjob
  · intro ledger executor hlookup
    simp [initial] at hlookup

end System

end Ficc
