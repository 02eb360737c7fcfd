import Ficc.System.Machine
import Ficc.Workloads.Succession

/-!
# Changes of the system

Every step of the system is a sequence of nine kinds of change, and all invariants are proved for
changes. A change says where what it writes comes from: a stored report was on its way, a record
of an executor was moved or inserted by a command that was on its way, and a command was sent for
a stored attempt.

Two things can make a later report unacceptable to the controller: a start that leaves the
network while the attempt is still prepared, and a recovery of storage that rewrites an uncertain
outcome that the controller knows. A change that is `careful` does neither.
-/

namespace Ficc

open Execution Workloads

variable [Hash Plan] [Hash Submission]

/-- The plan that a command asks to admit or to reject. -/
def Command.plan : Command → Option Plan
  | .prepare _ _ admission => some admission.plan
  | .rejectAbsent _ _ plan => some plan
  | _ => none

namespace System

section Events

/-- The commands that an event of the store sends. -/
def sends : Store.Event → List Command
  | .act (.renew lease) _ _ => [.renew lease]
  | .act (.dispatch .starting _) _ attempt => [.start attempt.fence]
  | _ => []

/-- The identities that an event of the store uses up. -/
def draws : Store.Event → Finset Identity
  | .submit record => {record.id}
  | .reserve _ attempt => {attempt.id}
  | _ => ∅

/-- The controller may cause the event. -/
def Permits (s : System) : Store.Event → Prop
  | .submit record => record.id ∉ s.drawn
  | .reserve _ attempt => attempt.id ∉ s.drawn ∧ attempt.ledgerId ≠ none
  | .act (.observe result) _ _ => ∃ report ∈ s.reports, Commands.Accepts report result
  | _ => True

/-- The command asks for a stored attempt at its own ledger, or for nothing new. -/
def Honest (s : System) : Command → Prop
  | .prepare installationId ledgerId admission =>
    ∃ id attempt, s.store.lookupAttempt id = some attempt ∧ attempt.plan = admission.plan ∧
      attempt.lease = admission.lease ∧ attempt.installationId = installationId ∧
      attempt.ledgerId = some ledgerId
  | .rejectAbsent installationId ledgerId plan =>
    ∃ id attempt, s.store.lookupAttempt id = some attempt ∧ attempt.plan = plan ∧
      attempt.installationId = installationId ∧ attempt.ledgerId = some ledgerId
  | .renew _ => False
  | .start _ => False
  | .stop _ => True
  | .release _ => True

/-- An executor holds the attempt prepared. -/
def Prepared (s : System) (fence : Fence) : Prop :=
  ∃ row ∈ s.executors.rows, ∃ value ∈ row.2.ledger.get fence.attemptId,
    value.fence = fence ∧ value.state = .prepared

/-- A recovery of storage would change the outcome of the attempt. -/
def Rewritten (value : Value) : Prop :=
  value.state = .unknown ∧ value.cleanupConfirmed = true ∧
    (value.reason, value.exitCode) ≠ (some "storage_recovered_outcome_unknown", none)

/-- The controller has no outcome of the attempt, and none is on its way. -/
def Unseen (s : System) (id : Identity) : Prop :=
  (∀ attempt ∈ s.store.lookupAttempt id, attempt.outcome = none) ∧
    ∀ report ∈ s.reports, report.attemptId = id → ¬Store.Conclusive report.toAttemptResult

/-- The events that the commands on their way allow an executor. -/
def Allows (careful : Prop) (s : System) (ledger : Identity) (executor : Supervisor) :
    Execution.Event → Prop
  | .offer _ => True
  | .reserve plan => plan.nodeId = executor.settings.nodeId ∧
    ∃ admission, admission.plan = plan ∧
      Command.prepare executor.settings.installationId ledger admission ∈ s.commands
  | .reject plan => plan.nodeId = executor.settings.nodeId ∧
    ((∃ admission, admission.plan = plan ∧
      Command.prepare executor.settings.installationId ledger admission ∈ s.commands) ∨
      Command.rejectAbsent executor.settings.installationId ledger plan ∈ s.commands)
  | .move value .start => Command.start value.fence ∈ s.commands
  | .move value (.renew request _) => value.fence = request.toFence ∧
    (Command.renew request ∈ s.commands ∨ ∃ installationId ledgerId admission,
      admission.lease = request ∧
        Command.prepare installationId ledgerId admission ∈ s.commands)
  | .move value (.finish result) => Supervised value result
  | .move value (.recover _ _ _) => careful → Rewritten value → s.Unseen value.plan.attemptId
  | .move _ _ => True

end Events

/-- One change of the system. -/
inductive Change (careful : Prop) (s : System) : System → Prop
  /-- An event of the store. -/
  | records {event : Store.Event} {store' : Store} (permitted : s.Permits event)
    (changes : event.Changes s.store store') :
    Change careful s
      { s with store := store', commands := sends event ++ s.commands, drawn := draws event ∪ s.drawn }
  /-- A change of the tables beside the jobs and attempts. -/
  | administer {store' : Store} (same : Store.SameRecords s.store store') :
    Change careful s { s with store := store' }
  | draw (id : Identity) : Change careful s { s with drawn := insert id s.drawn }
  | send {command : Command} (honest : s.Honest command) :
    Change careful s { s with commands := command :: s.commands }
  /-- Commands leave the network. -/
  | forget {commands' : List Command} (kept : ∀ command ∈ commands', command ∈ s.commands)
    (started : careful → ∀ fence, Command.start fence ∈ s.commands →
      Command.start fence ∉ commands' → ¬s.Prepared fence) :
    Change careful s { s with commands := commands' }
  | report {ledger id : Identity} {value : Value} {report : Report}
    (found : s.record ledger id = some value) (shown : value.publicReport = .ok report) :
    Change careful s { s with reports := report :: s.reports }
  /-- Reports leave the network. -/
  | discard {reports' : List Report} (kept : ∀ report ∈ reports', report ∈ s.reports) :
    Change careful s { s with reports := reports' }
  /-- An executor acts. -/
  | execute {ledger : Identity} {executor executor' : Supervisor}
    (found : s.executors.lookup ledger = some executor)
    (changes : Ledger.Changes (s.Allows careful ledger executor) executor.ledger executor'.ledger)
    (installed : Supervisor.Installed ledger executor')
    (node : executor'.settings.nodeId = executor.settings.nodeId)
    (installation : executor'.settings.installationId = executor.settings.installationId) :
    Change careful s { s with executors := s.executors.insert ledger executor' }
  | install {settings : Settings} {ledger : Identity} (fresh : ledger ∉ s.drawn) :
    Change careful s
      { s with
        executors := s.executors.insert ledger (Supervisor.install settings ledger)
        drawn := insert ledger s.drawn }

/-- The changes of a whole step, or of several. -/
def Changes (careful : Prop) : System → System → Prop := Relation.ReflTransGen (Change careful)

variable {careful : Prop} {s s' s'' : System}

theorem Changes.refl : Changes careful s s := Relation.ReflTransGen.refl

theorem Changes.trans (h₁ : Changes careful s s') (h₂ : Changes careful s' s'') :
    Changes careful s s'' := Relation.ReflTransGen.trans h₁ h₂

theorem Change.changes (h : Change careful s s') : Changes careful s s' :=
  Relation.ReflTransGen.single h

/-- A predicate that every change keeps is kept by every sequence of changes. -/
theorem Changes.invariant {I : System → Prop}
    (keeps : ∀ {s s' : System}, I s → Change careful s s' → I s') (h : Changes careful s s')
    (hI : I s) : I s' := by
  induction h with
  | refl => exact hI
  | tail _ hlast ih => exact keeps ih hlast

/-- What holds of every part of the system by itself. -/
structure Sound (s : System) : Prop where
  linked : s.store.Linked
  ledgered : ∀ {id : Identity} {attempt : Attempt}, s.store.lookupAttempt id = some attempt →
    attempt.ledgerId ≠ none
  installed : ∀ {ledger : Identity} {executor : Supervisor},
    s.executors.lookup ledger = some executor → Supervisor.Installed ledger executor

omit [Hash Plan] [Hash Submission] in
/-- An executor of the table after one of them has been written. -/
theorem lookup_insert_cases {executors : Table Identity Supervisor} {ledger other : Identity}
    {written executor : Supervisor}
    (h : (executors.insert ledger written).lookup other = some executor) :
    (other = ledger ∧ executor = written) ∨ other ≠ ledger ∧ executors.lookup other = some executor := by
  rw [Table.lookup_insert_eq] at h
  split_ifs at h with hsame
  · exact .inl ⟨hsame, (Option.some.inj h).symm⟩
  · exact .inr ⟨hsame, h⟩

omit [Hash Submission] in
/-- The ledger of an attempt does not change. -/
theorem ledgerId_of_act {action : Workloads.Action} {attempt attempt' : Attempt}
    (h : (action.applyAttempt attempt).Touches attempt') :
    attempt'.ledgerId = attempt.ledgerId ∧ attempt'.installationId = attempt.installationId := by
  obtain ⟨updatedAt, rfl⟩ := h
  cases action <;> exact ⟨rfl, rfl⟩

/-- A change keeps the system sound. -/
theorem Sound.change (hs : s.Sound) (h : Change careful s s') : s'.Sound := by
  cases h with
  | @records event store' permitted changes =>
    refine ⟨hs.linked.changes changes, fun {id attempt'} hattempt' => ?_, hs.installed⟩
    cases hbefore : s.store.lookupAttempt id with
    | none =>
      obtain ⟨job, rfl, -⟩ := Store.reserve_of_changes hs.linked changes hbefore hattempt'
      exact permitted.2
    | some attempt =>
      obtain hkept | ⟨action, job, found, rfl, htouches, hfound⟩ | ⟨job, -, -, hnone⟩ :=
        Store.lookupAttempt_of_changes hs.linked changes hbefore
      · obtain rfl := Option.some.inj (hkept.symm.trans hattempt')
        exact hs.ledgered hbefore
      · obtain rfl := Option.some.inj (hfound.symm.trans hattempt')
        rw [(ledgerId_of_act htouches).1]
        exact hs.ledgered hbefore
      · exact absurd (hnone.symm.trans hattempt') (by simp)
  | administer same =>
    refine ⟨hs.linked.same same, fun {id attempt} hattempt => ?_, hs.installed⟩
    exact hs.ledgered ((same.lookupAttempt id).symm.trans hattempt)
  | draw id => exact ⟨hs.linked, hs.ledgered, hs.installed⟩
  | send honest => exact ⟨hs.linked, hs.ledgered, hs.installed⟩
  | forget kept started => exact ⟨hs.linked, hs.ledgered, hs.installed⟩
  | report found shown => exact ⟨hs.linked, hs.ledgered, hs.installed⟩
  | discard kept => exact ⟨hs.linked, hs.ledgered, hs.installed⟩
  | execute found changes installed node installation =>
    refine ⟨hs.linked, hs.ledgered, fun {ledger executor} hlookup => ?_⟩
    obtain ⟨rfl, rfl⟩ | ⟨-, hlookup⟩ := lookup_insert_cases hlookup
    · exact installed
    · exact hs.installed hlookup
  | install fresh =>
    refine ⟨hs.linked, hs.ledgered, fun {ledger executor} hlookup => ?_⟩
    obtain ⟨rfl, rfl⟩ | ⟨-, hlookup⟩ := lookup_insert_cases hlookup
    · exact Supervisor.installed_install _ _
    · exact hs.installed hlookup

section Steps

/-- The step neither takes a start out of the network while the attempt is prepared nor rewrites
an outcome that the controller knows. -/
def Harmless (s : System) : Action → Prop
  | .lose index => ∀ fence, s.commands[index]? = some (.start fence) → ¬s.Prepared fence
  | .deliver index ledger surroundings => ∀ fence, s.commands[index]? = some (.start fence) →
    ¬(s.step (.deliver index ledger surroundings)).Prepared fence
  | .act ledger (.recoverStorage _ asked ..) => ∀ value, s.record ledger asked.attemptId = some value →
    value.fence = asked → Rewritten value → s.Unseen asked.attemptId
  | _ => True

variable {command : Command} {executor : Supervisor} {ledger : Identity}

omit [Hash Submission] in
/-- A command that is not among the rest was the erased one. -/
theorem mem_eraseIdx_or {commands : List Command} (index : ℕ) (h : command ∈ commands) :
    command ∈ commands.eraseIdx index ∨ commands[index]? = some command := by
  obtain ⟨position, hposition⟩ := List.mem_iff_getElem?.mp h
  by_cases hsame : position = index
  · exact .inr (hsame ▸ hposition)
  · exact .inl (List.mem_eraseIdx_iff_getElem?.mpr ⟨position, hsame, hposition⟩)

/-- An event of the store that sends nothing and draws nothing. -/
theorem changes_quiet {event : Store.Event} {store' : Store} (permitted : s.Permits event)
    (changes : event.Changes s.store store') (hsends : sends event = []) (hdraws : draws event = ∅) :
    Changes careful s { s with store := store' } := by
  have hchange : Change careful s { s with
      store := store', commands := sends event ++ s.commands, drawn := draws event ∪ s.drawn } :=
    .records permitted changes
  rw [hsends, hdraws, List.nil_append, Finset.empty_union] at hchange
  exact hchange.changes

theorem changes_submit (hs : s.Sound) (request : Submission) (key : String)
    (delegation : Delegation) (id : Identity) (now : ℚ) :
    Changes careful s (s.step (.submit request key delegation id now)) := by
  by_cases hdrawn : id ∈ s.drawn
  · rw [step, if_pos hdrawn]
    exact .refl
  rw [step, if_neg hdrawn]
  cases hsubmit : s.store.submit request key delegation id now with
  | error e => exact (Change.draw id).changes
  | ok result =>
    obtain ⟨record, store'⟩ := result
    obtain rfl | ⟨rfl, hsubmits⟩ := Store.submit_eq_ok hs.linked.bound hsubmit
    · exact (Change.draw id).changes
    · have hpermitted : s.Permits (.submit (Store.submitted request key delegation id now)) :=
        hdrawn
      exact (Change.records hpermitted hsubmits).changes

theorem changes_place (hs : s.Sound) (snapshot : Snapshot) (job : Record)
    (nodeId attemptId : Identity) (policyRevision : ℕ) (now : ℚ) :
    Changes careful s (s.step (.place snapshot job nodeId attemptId policyRevision now)) := by
  by_cases hdrawn : attemptId ∈ s.drawn
  · rw [step, if_pos hdrawn]
    exact .refl
  rw [step, if_neg hdrawn]
  cases hplace : Runner.placement s.store snapshot job nodeId attemptId policyRevision now with
  | error e => exact (Change.draw attemptId).changes
  | ok result =>
    obtain ⟨attempt, store'⟩ := result
    simp only [Runner.placement, Runner.nodeTests, bind_eq_ok, raiseIf_eq_ok, exists_const,
      not_or] at hplace
    obtain ⟨⟨⟨-, hledger⟩, -⟩, lease, -, hreserve⟩ := hplace
    obtain ⟨found, rfl, hreserves⟩ := Store.reserve_eq_ok hs.linked.bound hreserve
    have hpermitted : s.Permits (.reserve found (Store.reserved found.id
        (Runner.plan snapshot job nodeId attemptId policyRevision) lease snapshot.installationId
        snapshot.ledgerId snapshot.admissionVersion now)) := ⟨hdrawn, hledger⟩
    exact (Change.records hpermitted hreserves).changes

theorem changes_prepare (hs : s.Sound) (id : Identity) (snapshot : Snapshot) :
    Changes careful s (s.step (.prepare id snapshot)) := by
  rw [step]
  cases hsend : prepareCommand s.store id snapshot with
  | error e => exact .refl
  | ok result =>
    simp only [prepareCommand, Runner.bindsExecutor, bind_eq_ok, raiseIf_eq_ok, exists_const,
      orRaise_eq_ok, Store.attempt_eq_ok, not_not] at hsend
    obtain ⟨attempt, hattempt, ⟨hinstallation, hledger⟩, ledgerId, hledgerId, hsend⟩ := hsend
    split_ifs at hsend with hlease
    obtain rfl := Except.ok.inj hsend
    -- Every attempt has a ledger, so that the snapshot is one of the same ledger.
    have hsame : attempt.ledgerId = some ledgerId := by
      by_contra hother
      refine hledger ⟨hs.ledgered hattempt, fun heq => hother ?_⟩
      rw [← (Prod.mk.inj heq).1, hledgerId]
    have hhonest : s.Honest (.prepare snapshot.installationId ledgerId
        ⟨attempt.plan, attempt.lease, hlease.1, hlease.2⟩) :=
      ⟨id, attempt, hattempt, rfl, rfl, hinstallation.symm, hsame⟩
    exact (Change.send hhonest).changes

theorem changes_rejectAbsent (id : Identity) (snapshot : Snapshot) :
    Changes careful s (s.step (.rejectAbsent id snapshot)) := by
  rw [step]
  cases hsend : rejectCommand s.store id snapshot with
  | error e => exact .refl
  | ok result =>
    simp only [rejectCommand, bind_eq_ok, raiseIf_eq_ok, exists_const, orRaise_eq_ok,
      Store.attempt_eq_ok, not_not, Except.ok.injEq] at hsend
    obtain ⟨attempt, hattempt, ⟨-, -, -, -, -, hbinding⟩, ledgerId, hledgerId, rfl⟩ := hsend
    have hhonest : s.Honest (.rejectAbsent snapshot.installationId ledgerId attempt.plan) := by
      refine ⟨id, attempt, hattempt, rfl, (Prod.mk.inj hbinding).1, ?_⟩
      rw [(Prod.mk.inj hbinding).2, hledgerId]
    exact (Change.send hhonest).changes

theorem changes_renew (hs : s.Sound) (id : Identity) (expiresAt now : ℚ) :
    Changes careful s (s.step (.renew id expiresAt now)) := by
  rw [step]
  cases hsend : renewCommand s.store id expiresAt now with
  | error e => exact .refl
  | ok result =>
    simp only [renewCommand, bind_eq_ok, Prod.exists, Except.ok.injEq] at hsend
    obtain ⟨lease, store', hrenew, rfl⟩ := hsend
    obtain ⟨job, attempt, -, -, -, hacts⟩ := Store.renew_eq_ok hs.linked.bound hrenew
    have hpermitted : s.Permits (.act (.renew lease) job attempt) := trivial
    have hchange : Change careful s _ := .records hpermitted hacts
    have hdraws : draws (.act (.renew lease) job attempt) = ∅ := rfl
    rw [hdraws, Finset.empty_union] at hchange
    exact hchange.changes

theorem changes_start (hs : s.Sound) (id : Identity) (now : ℚ) :
    Changes careful s (s.step (.start id now)) := by
  rw [step]
  cases hsend : startCommand s.store id now with
  | error e => exact .refl
  | ok result =>
    simp only [startCommand, bind_eq_ok, Prod.exists, Except.ok.injEq] at hsend
    obtain ⟨returned, store', htransition, rfl⟩ := hsend
    obtain ⟨job, attempt, rfl, -, hreturned, hacts⟩ :=
      Store.transition_eq_ok hs.linked.bound htransition
    -- The command names the attempt by what the transition does not change.
    have hfence : returned.fence = attempt.fence := by
      obtain ⟨job', attempt', -, htouches, -, -, -, hid, hwrites⟩ := hacts.writes_keeps hs.linked
      rw [hwrites.attempts, if_pos hid.symm] at hreturned
      obtain rfl := Option.some.inj hreturned
      obtain ⟨updatedAt, rfl⟩ := htouches
      rfl
    have hpermitted : s.Permits (.act (.dispatch .starting none) job attempt) := trivial
    have hchange : Change careful s _ := .records hpermitted hacts
    have hdraws : draws (.act (.dispatch .starting none) job attempt) = ∅ := rfl
    have hsends : sends (.act (.dispatch .starting none) job attempt) =
        [.start returned.fence] := by rw [hfence]; rfl
    rw [hdraws, hsends, Finset.empty_union] at hchange
    exact hchange.changes

theorem changes_uncertain (hs : s.Sound) (id : Identity) (reason : String) (now : ℚ) :
    Changes careful s (s.step (.uncertain id reason now)) := by
  rw [step]
  cases huncertain : Commands.uncertain s.store id reason now with
  | error e => exact .refl
  | ok store' =>
    simp only [Commands.uncertain, bind_eq_ok, Store.attempt_eq_ok] at huncertain
    obtain ⟨attempt, -, huncertain⟩ := huncertain
    split_ifs at huncertain
    · obtain ⟨⟨returned, next⟩, htransition, rfl⟩ := map_eq_ok.mp huncertain
      obtain ⟨job, acted, -, -, -, hacts⟩ := Store.transition_eq_ok hs.linked.bound htransition
      have hpermitted : s.Permits (.act (.dispatch .unknown (some reason)) job acted) := trivial
      exact changes_quiet hpermitted hacts rfl rfl
    · obtain rfl := Except.ok.inj huncertain
      exact .refl

omit [Hash Submission] in
/-- The quiet operations abandon an attempt, edit a job or remove it. -/
theorem quiet_of_causes (s : System) {operation : Store.Operation} {event : Store.Event}
    (hquiet : operation.quiet = true) (hcauses : operation.Causes event) :
    s.Permits event ∧ sends event = [] ∧ draws event = ∅ := by
  have hloud : ∀ {P : Prop}, operation.quiet = false → P := fun hfalse =>
    absurd (hquiet.symm.trans hfalse) (by simp)
  cases event with
  | submit record =>
    cases operation <;> first | exact hloud rfl | exact hcauses.elim
  | reserve job attempt =>
    cases operation <;> first | exact hloud rfl | exact hcauses.elim
  | edit change job => exact ⟨trivial, rfl, rfl⟩
  | remove job => exact ⟨trivial, rfl, rfl⟩
  | act action job attempt =>
    cases action with
    | abandon => exact ⟨trivial, rfl, rfl⟩
    | observe result => cases operation <;> first | exact hloud rfl | exact hcauses.elim
    | dispatch state reason => cases operation <;> first | exact hloud rfl | exact hcauses.elim
    | renew lease => cases operation <;> first | exact hloud rfl | exact hcauses.elim

theorem changes_records (hs : s.Sound) (operation : Store.Operation) :
    Changes careful s (s.step (.records operation)) := by
  by_cases hquiet : operation.quiet
  swap
  · rw [step, if_neg hquiet]
    exact .refl
  rw [step, if_pos hquiet]
  cases hcall : s.store.call operation with
  | error e => exact .refl
  | ok store' =>
    obtain ⟨hsame, -⟩ | ⟨event, hcauses, hchanges⟩ := Store.changes_of_call hs.linked hcall
    · exact (Change.administer hsame).changes
    · obtain ⟨hpermitted, hsends, hdraws⟩ := quiet_of_causes s hquiet hcauses
      exact changes_quiet hpermitted hchanges hsends hdraws

/-- What an executor does for a command is allowed by the command. -/
theorem allows_of_permits (hs : s.Sound) {surroundings : Surroundings}
    (hlookup : s.executors.lookup ledger = some executor) (hmem : command ∈ s.commands)
    (hbind : command.bind executor = .ok ())
    (hnode : ∀ plan ∈ command.plan, plan.nodeId = executor.settings.nodeId)
    {event : Execution.Event} (h : (command.operation surroundings).Permits event) :
    s.Allows careful ledger executor event := by
  have hidentity := (hs.installed hlookup).identity
  have hbound : ∀ {installationId ledgerId : Identity},
      executor.bind installationId ledgerId 1 = .ok () →
      installationId = executor.settings.installationId ∧ ledgerId = ledger := by
    intro installationId ledgerId hok
    simp only [Supervisor.bind, raiseIf_eq_ok, not_or, not_not] at hok
    exact ⟨hok.1, hok.2.1.trans hidentity⟩
  cases event with
  | offer offer => trivial
  | reserve plan =>
    cases command with
    | prepare installationId ledgerId admission =>
      obtain ⟨rfl, rfl⟩ := hbound hbind
      obtain rfl : plan = admission.plan := h
      exact ⟨hnode _ rfl, admission, rfl, hmem⟩
    | _ => exact h.elim
  | reject plan =>
    cases command with
    | prepare installationId ledgerId admission =>
      obtain ⟨rfl, rfl⟩ := hbound hbind
      obtain rfl : plan = admission.plan := h
      exact ⟨hnode _ rfl, .inl ⟨admission, rfl, hmem⟩⟩
    | rejectAbsent installationId ledgerId asked =>
      obtain ⟨rfl, rfl⟩ := hbound hbind
      obtain rfl : plan = asked := h
      exact ⟨hnode _ rfl, .inr hmem⟩
    | _ => exact h.elim
  | move value move =>
    cases move with
    | annotate fields => trivial
    | started binding => trivial
    | release => trivial
    | finish result => exact h
    | start =>
      cases command with
      | start fence =>
        obtain rfl : value.fence = fence := h
        exact hmem
      | _ => exact h.elim
    | renew request timing =>
      cases command with
      | prepare installationId ledgerId admission =>
        exact ⟨h.1, .inr ⟨installationId, ledgerId, admission, h.2.symm, hmem⟩⟩
      | renew lease =>
        obtain ⟨hfence, rfl⟩ : value.fence = request.toFence ∧ request = lease := h
        exact ⟨hfence, .inl hmem⟩
      | _ => exact h.2.elim
    | recover before binding observedAt =>
      cases command <;> exact h.elim

omit [Hash Submission] in
/-- An executor does nothing for the plan of another contributor. -/
theorem step_of_foreign {surroundings : Surroundings} {plan : Plan}
    (hplan : command.plan = some plan) (hnode : plan.nodeId ≠ executor.settings.nodeId) :
    executor.step (command.operation surroundings) = executor := by
  have hforeign : (plan.deploymentId, plan.nodeId) ≠
      (executor.settings.deploymentId, executor.settings.nodeId) :=
    fun heq => hnode (Prod.mk.inj heq).2
  cases command with
  | prepare installationId ledgerId admission =>
    obtain rfl := Option.some.inj hplan
    simp only [Command.operation, Supervisor.step, Supervisor.prepare, Settings.checkIdentity,
      raiseIf, if_pos hforeign]
    rfl
  | rejectAbsent installationId ledgerId asked =>
    obtain rfl := Option.some.inj hplan
    simp only [Command.operation, Supervisor.step, Supervisor.rejectAbsent,
      Settings.checkIdentity, raiseIf, if_pos hforeign]
    rfl
  | _ => cases hplan

omit [Hash Submission] in
/-- The settings of an executor after an action that keeps the contributor. -/
theorem nodeId_step {operation : Supervisor.Operation}
    (h : ∀ settings ∈ operation.settings, settings.nodeId = executor.settings.nodeId) :
    (executor.step operation).settings.nodeId = executor.settings.nodeId := by
  obtain hsame | ⟨hsettings, -⟩ := Supervisor.settings_step executor operation
  · rw [hsame]
  · exact h _ hsettings

theorem change_execute (hs : s.Sound) (hlookup : s.executors.lookup ledger = some executor)
    (surroundings : Surroundings) (hmem : command ∈ s.commands) :
    Change careful s { s with
      executors := s.executors.insert ledger (command.execute executor surroundings) } := by
  have hinstalled := hs.installed hlookup
  have hidle : Change careful s { s with executors := s.executors.insert ledger executor } :=
    .execute hlookup .refl hinstalled rfl rfl
  unfold Command.execute
  split
  swap
  · exact hidle
  rename_i hbind
  by_cases hnode : ∀ plan ∈ command.plan, plan.nodeId = executor.settings.nodeId
  · have hsettings : ∀ settings ∈ (command.operation surroundings).settings,
        settings.nodeId = executor.settings.nodeId := by
      cases command <;> exact fun settings hsettings => nomatch hsettings
    exact .execute hlookup
      ((Supervisor.advances_step hinstalled.invariant _).changes.mono fun event =>
        allows_of_permits hs hlookup hmem hbind hnode)
      (hinstalled.step _) (nodeId_step hsettings) (hinstalled.installationId_step _)
  · rw [not_forall] at hnode
    obtain ⟨plan, hplan⟩ := hnode
    rw [Classical.not_imp] at hplan
    rw [step_of_foreign hplan.1 hplan.2]
    exact hidle

/-- A delivered command is one step of its executor. -/
theorem changes_deliver (hs : s.Sound) (index : ℕ) (ledger : Identity)
    (surroundings : Surroundings)
    (hcareful : careful → s.Harmless (.deliver index ledger surroundings)) :
    Changes careful s (s.step (.deliver index ledger surroundings)) := by
  simp only [Harmless, step] at hcareful
  rw [step]
  split
  · rename_i command executor hcommand hlookup
    rw [hcommand, hlookup] at hcareful
    have hmem : command ∈ s.commands := List.mem_of_getElem? hcommand
    refine (change_execute hs hlookup surroundings hmem).changes.trans (Change.changes ?_)
    refine .forget (fun other hother => List.mem_of_mem_eraseIdx hother) ?_
    intro hcare fence hstart hgone
    obtain hkept | hindex := mem_eraseIdx_or index hstart
    · exact absurd hkept hgone
    · rw [hcommand] at hindex
      exact hcareful hcare fence hindex
  · exact .refl

theorem changes_lose (index : ℕ) (hcareful : careful → s.Harmless (.lose index)) :
    Changes careful s (s.step (.lose index)) := by
  refine Change.changes (.forget (fun other hother => List.mem_of_mem_eraseIdx hother) ?_)
  intro hcare fence hstart hgone
  obtain hkept | hindex := mem_eraseIdx_or index hstart
  · exact absurd hkept hgone
  · exact hcareful hcare fence hindex

theorem changes_report (ledger id : Identity) :
    Changes careful s (s.step (.report ledger id)) := by
  rw [step]
  split
  · rename_i report hreport
    obtain ⟨value, hvalue, hshown⟩ := Option.map_eq_some_iff.mp hreport
    exact (Change.report hvalue hshown).changes
  · exact .refl

/-- The actions that record a report are events of the store. -/
theorem changes_of_records {report : Report} (hmem : report ∈ s.reports) {store' : Store}
    (h : Commands.Records report s.store store') :
    Changes careful s { s with store := store' } := by
  induction h with
  | refl => exact .refl
  | tail _ hlast ih =>
    obtain ⟨result, job, attempt, haccepts, hacts⟩ := hlast
    refine ih.trans ?_
    have hpermitted : ∀ store : Store, ({ s with store } : System).Permits
        (.act (.observe result) job attempt) := fun _ => ⟨report, hmem, haccepts⟩
    exact changes_quiet (hpermitted _) hacts rfl rfl

/-- A received report is a change of the records. -/
theorem changes_receive (hs : s.Sound) (index : ℕ) (snapshot : Snapshot) (now : ℚ) :
    Changes careful s (s.step (.receive index snapshot now)) := by
  rw [step]
  split
  · rename_i report hreport
    refine (changes_of_records (List.mem_of_getElem? hreport)
      (Commands.records_observation hs.linked.bound report snapshot now)).trans ?_
    exact (Change.discard fun other hother => List.mem_of_mem_eraseIdx hother).changes
  · exact .refl

omit [Hash Submission] in
/-- What an executor does by itself needs no command, as long as it recovers no storage. -/
theorem allows_of_local {operation : Supervisor.Operation} (hlocal : operation.commanded = false)
    (hrecover : ∀ value before binding observedAt, ¬operation.Permits (.move value (.recover before binding observedAt)))
    {event : Execution.Event} (h : operation.Permits event) :
    s.Allows careful ledger executor event := by
  have hcommanded : ∀ {P : Prop}, operation.commanded = true → P := fun htrue =>
    absurd (htrue.symm.trans hlocal) (by simp)
  cases event with
  | offer offer => trivial
  | reserve plan => cases operation <;> first | exact hcommanded rfl | exact h.elim
  | reject plan => cases operation <;> first | exact hcommanded rfl | exact h.elim
  | move value move =>
    cases move with
    | annotate fields => trivial
    | started binding => trivial
    | release => trivial
    | finish result => exact h
    | start => cases operation <;> first | exact hcommanded rfl | exact h.elim
    | renew request timing => cases operation <;> first | exact hcommanded rfl | exact h.2.elim
    | recover before binding observedAt => exact absurd h (hrecover _ _ _ _)

/-- A recovery of storage moves the record of the attempt once. -/
theorem changes_recoverStorage (hs : s.Sound) (hlookup : s.executors.lookup ledger = some executor)
    (settings : Settings) (asked : Fence) (expectedGeneration : ℕ) (verified : Except Error Binding)
    (observedAt : ℚ)
    (hcareful : careful → s.Harmless (.act ledger (.recoverStorage settings asked expectedGeneration verified observedAt)))
    :
    Ledger.Changes (s.Allows careful ledger executor) executor.ledger
      (executor.step (.recoverStorage settings asked expectedGeneration verified
        observedAt)).ledger := by
  have hbound := (hs.installed hlookup).invariant.ledger.bound
  rw [Supervisor.step]
  cases hrecover : executor.recoverStorage settings asked expectedGeneration verified
    observedAt with
  | error e => exact .refl
  | ok next =>
    simp only [Supervisor.recoverStorage, Ledger.reopen, bind_eq_ok, raiseIf_eq_ok, exists_const,
      Prod.exists, Except.ok.injEq] at hrecover
    obtain ⟨reopened, ⟨-, rfl⟩, value, -, slot, -, before, -, -, binding, -, -, recovered, final,
      hmove, rfl⟩ := hrecover
    refine Ledger.changes_of_recoverStorage hbound hmove fun found hfound hcare hrewritten => ?_
    have hid := hbound.fenced_attemptId hfound
    rw [hid]
    refine hcareful hcare found ?_ (hbound.fence_of_fenced hfound) hrewritten
    rw [record, hlookup]
    exact (Ledger.fenced_eq_ok.mp hfound).1

theorem changes_act (hs : s.Sound) (ledger : Identity) (operation : Supervisor.Operation)
    (hcareful : careful → s.Harmless (.act ledger operation)) :
    Changes careful s (s.step (.act ledger operation)) := by
  rw [step]
  split
  swap
  · exact .refl
  rename_i executor hlookup
  split_ifs with hlocal
  swap
  · exact .refl
  have hinstalled := hs.installed hlookup
  refine Change.changes (.execute hlookup ?_ (hinstalled.step _) (nodeId_step hlocal.2)
    (hinstalled.installationId_step _))
  have hchanges := (Supervisor.advances_step hinstalled.invariant operation).changes
  cases operation with
  | recoverStorage settings asked expectedGeneration verified observedAt =>
    exact changes_recoverStorage hs hlookup settings asked expectedGeneration verified observedAt
      hcareful
  | _ => exact hchanges.mono fun event => allows_of_local hlocal.1 fun _ _ _ _ => id

/-- Every step of the system is a sequence of changes. -/
theorem changes_step (hs : s.Sound) (action : Action) (hcareful : careful → s.Harmless action) :
    Changes careful s (s.step action) := by
  cases action with
  | submit request key delegation id now => exact changes_submit hs request key delegation id now
  | place snapshot job nodeId attemptId policyRevision now =>
    exact changes_place hs snapshot job nodeId attemptId policyRevision now
  | prepare id snapshot => exact changes_prepare hs id snapshot
  | rejectAbsent id snapshot => exact changes_rejectAbsent id snapshot
  | renew id expiresAt now => exact changes_renew hs id expiresAt now
  | start id now => exact changes_start hs id now
  | stop fence =>
    have hhonest : s.Honest (.stop fence) := trivial
    exact (Change.send hhonest).changes
  | release fence =>
    have hhonest : s.Honest (.release fence) := trivial
    exact (Change.send hhonest).changes
  | uncertain id reason now => exact changes_uncertain hs id reason now
  | records operation => exact changes_records hs operation
  | deliver index ledger surroundings => exact changes_deliver hs index ledger surroundings hcareful
  | lose index => exact changes_lose index hcareful
  | report ledger id => exact changes_report ledger id
  | receive index snapshot now => exact changes_receive hs index snapshot now
  | drop index =>
    exact (Change.discard fun other hother => List.mem_of_mem_eraseIdx hother).changes
  | install settings ledger =>
    by_cases hdrawn : ledger ∈ s.drawn
    · rw [step, if_pos hdrawn]
      exact .refl
    · rw [step, if_neg hdrawn]
      exact (Change.install hdrawn).changes
  | act ledger operation => exact changes_act hs ledger operation hcareful

/-- A step keeps the system sound. -/
theorem Sound.step (hs : s.Sound) (action : Action) : (s.step action).Sound := by
  have hchanges : Changes False s (s.step action) := changes_step hs action nofun
  exact hchanges.invariant (fun h hchange => h.change hchange) hs

/-- An invariant of the changes holds after every step, and so after every run. -/
theorem run_changes {I : System → Prop}
    (keeps : ∀ {s s' : System}, s.Sound → I s → Change False s s' → I s') (hs : s.Sound) (h : I s)
    (actions : List Action) : (run step s actions).Sound ∧ I (run step s actions) := by
  refine run_invariant (I := fun s => Sound s ∧ I s) (fun s action hI => ?_) ⟨hs, h⟩ actions
  have hchanges : Changes False s (s.step action) := changes_step hI.1 action nofun
  exact hchanges.invariant (I := fun s => Sound s ∧ I s)
    (fun hI hchange => ⟨hI.1.change hchange, keeps hI.1 hI.2 hchange⟩) hI

theorem sound_initial (projects identities : List Identity)
    (contributors : Table Identity Contributor) (policyRevision : ℕ) (managed : List String) :
    (initial projects identities contributors policyRevision managed).Sound where
  linked := Store.linked_initial projects identities contributors policyRevision managed
  ledgered h := by simp [initial, Store.initial, Store.lookupAttempt] at h
  installed h := by simp [initial] at h

end Steps

end System

end Ficc
