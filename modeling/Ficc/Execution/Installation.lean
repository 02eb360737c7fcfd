import Ficc.Execution.SupervisorSpec

/-!
# The identity of an executor

A ledger keeps its identity and the installation that it belongs to, and every process that
opens it has the settings of that installation. Only a new process has new settings.
-/

namespace Ficc.Execution

namespace Ledger

variable [Hash Plan] {permits : Event → Prop} {ledger ledger' : Ledger}

omit [Hash Plan] in
theorem installation_perform (ledger : Ledger) (value : Value) (move : Move) :
    (ledger.perform value move).installation = ledger.installation := by
  unfold perform
  split_ifs <;> rfl

theorem Change.identity (h : Change permits ledger ledger') :
    ledger'.identity = ledger.identity ∧ ledger'.installation = ledger.installation := by
  cases h with
  | offer offer permitted => exact ⟨rfl, rfl⟩
  | reserve plan slot binding now offer absent admits permitted => exact ⟨rfl, rfl⟩
  | reject plan now observation absent unblocked permitted => exact ⟨rfl, rfl⟩
  | move id value move found allowed permitted =>
    exact ⟨identity_perform ledger value move, installation_perform ledger value move⟩

theorem Changes.identity (h : Changes permits ledger ledger') :
    ledger'.identity = ledger.identity ∧ ledger'.installation = ledger.installation := by
  induction h with
  | refl => exact ⟨rfl, rfl⟩
  | tail _ hlast ih =>
    obtain ⟨hidentity, hinstallation⟩ := hlast.identity
    exact ⟨hidentity.trans ih.1, hinstallation.trans ih.2⟩

end Ledger

namespace Supervisor

variable {s s' : Supervisor}

section Settings

theorem settings_commit {result : Except Error Supervisor}
    (h : ∀ s', result = .ok s' → s'.settings = s.settings) :
    (s.commit result).settings = s.settings := by
  cases result with
  | ok s' => exact h s' rfl
  | error e => rfl

theorem settings_after {result : Except Error (Value × Supervisor)}
    (h : ∀ value s', result = .ok (value, s') → s'.settings = s.settings) :
    (s.after result).settings = s.settings := by
  refine settings_commit fun s' hs' => ?_
  obtain ⟨⟨value, next⟩, hresult, rfl⟩ := map_eq_ok.mp hs'
  exact h value next hresult

@[simp]
theorem settings_queuePreparation (s : Supervisor) (value : Value) :
    (s.queuePreparation value).settings = s.settings := by
  unfold queuePreparation
  split_ifs <;> rfl

theorem settings_finish {value : Value} {reason : Option String} {cleanup : Cleanup}
    (h : s.finish value reason cleanup = .ok s') : s'.settings = s.settings := by
  unfold finish at h
  by_cases hdone : value.state = .unknown ∧ value.cleanupConfirmed = true
  · rw [if_pos hdone] at h
    obtain rfl := Except.ok.inj h
    rfl
  rw [if_neg hdone] at h
  simp only [bind_eq_ok, raiseIf_eq_ok, exists_const] at h
  obtain ⟨-, h⟩ := h
  split at h
  · simp only [bind_eq_ok, raiseIf_eq_ok, exists_const] at h
    obtain ⟨-, h⟩ := h
    by_cases hpending : value.pendingStop = none ∧ value.state ≠ .unknown
    · rw [if_pos hpending] at h
      simp only [bind_eq_ok, Prod.exists, Except.ok.injEq] at h
      obtain ⟨-, -, -, rfl⟩ := h
      rfl
    · rw [if_neg hpending] at h
      obtain rfl := Except.ok.inj h
      rfl
  · simp only [bind_eq_ok, Except.ok.injEq] at h
    obtain ⟨-, -, rfl⟩ := h
    rfl

theorem settings_requestStop (s : Supervisor) (asked : Fence) (reason : String)
    (cleanup : Cleanup) : (s.requestStop asked reason cleanup).1.settings = s.settings := by
  unfold requestStop
  split
  · rfl
  rename_i value hfenced
  by_cases hdone : value.state ∈ TERMINAL ∨ value.state = .released ∨
      (value.state = .unknown ∧ value.cleanupConfirmed = true)
  · rw [if_pos hdone]
  rw [if_neg hdone]
  simp only
  split
  · rfl
  rename_i annotated hannotated
  have hsettings : annotated.settings = s.settings := by
    split_ifs at hannotated
    · obtain ⟨⟨found, ledger⟩, -, rfl⟩ := map_eq_ok.mp hannotated
      rfl
    · obtain rfl := Except.ok.inj hannotated
      rfl
  split_ifs with hpending
  · exact hsettings
  · split
    · exact hsettings
    · rename_i next hfinish
      exact (settings_finish hfinish).trans hsettings

theorem settings_releaseBegin {asked : Fence} {value : Value}
    (h : s.releaseBegin asked = .ok (value, s')) : s'.settings = s.settings := by
  simp only [releaseBegin, bind_eq_ok] at h
  obtain ⟨found, -, h⟩ := h
  by_cases hreleased : found.state = .released
  · rw [if_pos hreleased] at h
    obtain ⟨-, rfl⟩ := Prod.mk.inj (Except.ok.inj h)
    rfl
  rw [if_neg hreleased] at h
  simp only [bind_eq_ok] at h
  obtain ⟨-, -, h⟩ := h
  split_ifs at h
  · simp only [bind_eq_ok, Prod.exists, Except.ok.injEq, Prod.mk.injEq] at h
    obtain ⟨-, -, -, -, rfl⟩ := h
    rfl
  · simp only [bind_eq_ok, Except.ok.injEq, Prod.mk.injEq] at h
    obtain ⟨-, -, -, rfl⟩ := h
    rfl

theorem settings_releaseEnd (s : Supervisor) (asked : Fence) (cleaned : Bool) :
    (s.releaseEnd asked cleaned).settings = s.settings := by
  unfold releaseEnd
  split
  · rfl
  · simp only
    split <;> rfl

theorem settings_collectWork {value : Value} {result : Except Error Harvest} {now : Reading}
    (h : s.collectWork value result now = .ok s') : s'.settings = s.settings := by
  simp only [collectWork, bind_eq_ok] at h
  obtain ⟨harvest, -, -, -, h⟩ := h
  cases harvest with
  | prepared runtime =>
    simp only [bind_eq_ok, Prod.exists, Except.ok.injEq] at h
    obtain ⟨-, -, -, rfl⟩ := h
    rfl
  | initialized progress =>
    simp only [bind_eq_ok, Prod.exists, Except.ok.injEq] at h
    obtain ⟨-, -, -, rfl⟩ := h
    exact settings_queuePreparation _ _
  | done =>
    obtain rfl := Except.ok.inj h
    rfl

theorem settings_harvest (s : Supervisor) (id : Identity) (result : Except Error Harvest)
    (now : Reading) (cleanup : Cleanup) :
    (s.harvest id result now cleanup).settings = s.settings := by
  unfold harvest
  split
  · simp only
    split
    · rename_i next hcollect
      rw [settings_collectWork hcollect]
    · exact settings_commit fun s' hs' => settings_finish hs'
  · rfl

theorem settings_observe {value : Value} {sighting : Sighting} {cleanup : Cleanup}
    (h : s.observe value sighting cleanup = .ok s') : s'.settings = s.settings := by
  cases sighting with
  | finished => exact settings_finish h
  | gone => exact settings_finish h
  | ready approved =>
    simp only [observe] at h
    split_ifs at h
    · obtain rfl := Except.ok.inj h
      rfl
    · simp only [bind_eq_ok, Except.ok.injEq] at h
      obtain ⟨-, -, rfl⟩ := h
      rfl
  | payload =>
    simp only [observe] at h
    split_ifs at h
    · obtain rfl := Except.ok.inj h
      rfl
    · obtain rfl := Except.ok.inj h
      rfl
  | quiet =>
    obtain rfl := Except.ok.inj h
    rfl
  | failed => cases h

theorem settings_tick (s : Supervisor) (id : Identity) (now : Reading) (sighting : Sighting)
    (cleanup retry : Cleanup) : (s.tick id now sighting cleanup retry).settings = s.settings := by
  have hfinish : ∀ value reason cleanup,
      (s.commit (s.finish value reason cleanup)).settings = s.settings :=
    fun value reason cleanup => settings_commit fun s' hs' => settings_finish hs'
  unfold tick
  split
  · rfl
  rename_i value hfind
  simp only
  by_cases hunknown : value.state = .unknown ∧ value.cleanupConfirmed = false
  · rw [if_pos hunknown]
    exact hfinish _ _ _
  rw [if_neg hunknown]
  by_cases hdone : value.state ∈ TERMINAL ∨ value.state = .released ∨ value.state = .unknown
  · rw [if_pos hdone]
  rw [if_neg hdone]
  split
  · split
    · rfl
    · split_ifs
      · rfl
      · exact settings_commit fun s' hs' => settings_finish hs'
  · by_cases hwait : (s.pending.lookup id).isSome ∨ value.state = .prepared
    · rw [if_pos hwait]
    rw [if_neg hwait]
    split
    · rename_i next hobserve
      exact settings_observe hobserve
    · exact hfinish _ _ _

theorem settings_inputEnd (s : Supervisor) (asked : Fence) (object : Identity)
    (saved : Except Error Receipt) (now : Reading) (failure : String) (cleanup : Cleanup) :
    (s.inputEnd asked object saved now failure cleanup).settings = s.settings := by
  unfold inputEnd
  by_cases hbusy : asked.attemptId ∉ s.inputBusy
  · rw [if_pos hbusy]
  rw [if_neg hbusy]
  simp only
  split
  · rename_i next hcommit
    simp only [inputCommit, bind_eq_ok, Prod.exists, Except.ok.injEq] at hcommit
    obtain ⟨-, -, -, -, -, -, -, -, -, rfl⟩ := hcommit
    exact settings_queuePreparation _ _
  · split
    · rfl
    · exact settings_requestStop s asked _ cleanup

theorem settings_recoverAll (s : Supervisor) (cleanup : Identity → Cleanup)
    (values : List Value) : (s.recoverAll cleanup values).settings = s.settings := by
  induction values generalizing s with
  | nil => rfl
  | cons value values ih =>
    unfold recoverAll
    split_ifs
    · split
      · rename_i next hfinish
        exact (ih next).trans (settings_finish hfinish)
      · rfl
    · exact ih s

variable [Hash Plan]

/-- The settings of the new process that an action starts. -/
def Operation.settings : Operation → Option Settings
  | .restart settings _ => some settings
  | .recoverStorage settings .. => some settings
  | _ => none

theorem settings_prepare {admission : Admission} {probe : Slot → Except Error Binding}
    {admitAt rejectAt : Reading} {value : Value}
    (h : s.prepare admission probe admitAt rejectAt = .ok (value, s')) :
    s'.settings = s.settings := by
  simp only [prepare, bind_eq_ok] at h
  obtain ⟨-, -, h⟩ := h
  by_cases hknown : (s.ledger.get admission.plan.attemptId).isSome
  · rw [if_pos hknown] at h
    simp only [bind_eq_ok, Except.ok.injEq, Prod.mk.injEq] at h
    obtain ⟨-, -, -, rfl⟩ := h
    rfl
  rw [if_neg hknown] at h
  split at h
  · simp only [Except.ok.injEq, Prod.mk.injEq] at h
    obtain ⟨-, rfl⟩ := h
    split_ifs
    · exact settings_queuePreparation _ _
    · rfl
  · split_ifs at h
    simp only [bind_eq_ok, Prod.exists, Except.ok.injEq, Prod.mk.injEq] at h
    obtain ⟨-, -, -, -, rfl⟩ := h
    rfl

theorem settings_rejectAbsent {plan : Plan}
    {legacy : Option (Except Error (List (Binding × String)))} {now : Reading} {value : Value}
    (h : s.rejectAbsent plan legacy now = .ok (value, s')) : s'.settings = s.settings := by
  simp only [rejectAbsent, bind_eq_ok] at h
  obtain ⟨-, -, h⟩ := h
  split_ifs at h
  · simp only [bind_eq_ok, Except.ok.injEq, Prod.mk.injEq] at h
    obtain ⟨-, -, -, rfl⟩ := h
    rfl
  · simp only [bind_eq_ok, Prod.exists, Except.ok.injEq, Prod.mk.injEq] at h
    obtain ⟨-, -, -, -, -, -, rfl⟩ := h
    rfl

/-- Only a new process has other settings, and it has opened the ledger with them. -/
theorem settings_step (s : Supervisor) (operation : Operation) :
    (s.step operation).settings = s.settings ∨
      (operation.settings = some (s.step operation).settings ∧
        s.ledger.installation = (s.step operation).settings.installationId) := by
  cases operation with
  | prepare admission probe admitAt rejectAt =>
    exact .inl (settings_after fun value s' h => settings_prepare h)
  | rejectAbsent plan legacy now =>
    exact .inl (settings_after fun value s' h => settings_rejectAbsent h)
  | start asked now =>
    refine .inl (settings_after fun value s' h => ?_)
    simp only [start, bind_eq_ok, Prod.exists, Except.ok.injEq, Prod.mk.injEq] at h
    obtain ⟨-, -, -, -, -, -, -, -, -, rfl⟩ := h
    rfl
  | renew request now =>
    refine .inl (settings_after fun value s' h => ?_)
    simp only [renew, bind_eq_ok, Prod.exists, Except.ok.injEq, Prod.mk.injEq] at h
    obtain ⟨-, -, -, -, -, -, -, -, rfl⟩ := h
    rfl
  | requestStop asked reason cleanup => exact .inl (settings_requestStop s asked reason cleanup)
  | releaseBegin asked => exact .inl (settings_after fun value s' h => settings_releaseBegin h)
  | releaseEnd asked cleaned => exact .inl (settings_releaseEnd s asked cleaned)
  | setOffer settings control expected =>
    refine .inl (settings_commit fun s' h => ?_)
    simp only [setOffer, bind_eq_ok, Except.ok.injEq] at h
    obtain ⟨-, -, -, -, -, -, rfl⟩ := h
    rfl
  | harvest id result now cleanup => exact .inl (settings_harvest s id result now cleanup)
  | tick id now sighting cleanup retry =>
    exact .inl (settings_tick s id now sighting cleanup retry)
  | barrierStarted asked inspected now =>
    refine .inl (settings_commit fun s' h => ?_)
    simp only [barrierStarted, bind_eq_ok, Except.ok.injEq] at h
    obtain ⟨-, -, -, -, -, -, rfl⟩ := h
    rfl
  | barrierReleased asked now =>
    refine .inl (settings_commit fun s' h => ?_)
    simp only [barrierReleased, bind_eq_ok, Prod.exists, Except.ok.injEq] at h
    obtain ⟨-, -, -, -, -, -, -, -, -, rfl⟩ := h
    rfl
  | inputBegin asked object offset length now =>
    refine .inl (settings_commit fun s' h => ?_)
    simp only [inputBegin, bind_eq_ok, raiseIf_eq_ok, exists_const, Prod.exists] at h
    obtain ⟨_, item, receipt, -, -, -, -, h⟩ := h
    split_ifs at h
    · obtain rfl := Except.ok.inj h
      rfl
    · obtain rfl := Except.ok.inj h
      rfl
  | inputEnd asked object saved now failure cleanup =>
    exact .inl (settings_inputEnd s asked object saved now failure cleanup)
  | restart settings cleanup =>
    -- A process that does not come up leaves everything as it was.
    cases hrestart : s.restart settings cleanup with
    | error e => exact .inl (by rw [step, hrestart]; rfl)
    | ok next =>
      have hstep : s.step (.restart settings cleanup) = next := by rw [step, hrestart]; rfl
      simp only [restart, Ledger.reopen, bind_eq_ok, raiseIf_eq_ok, exists_const, not_not,
        Except.ok.injEq] at hrestart
      obtain ⟨ledger, ⟨hinstallation, rfl⟩, opened, -, -, -, -, -, -, rfl⟩ := hrestart
      have hsettings := settings_recoverAll (Supervisor.opened settings opened) cleanup
        opened.retained
      rw [hstep]
      exact .inr ⟨congrArg some hsettings.symm, by rw [hinstallation]; exact congrArg _ hsettings.symm⟩
  | recoverStorage settings asked expectedGeneration verified observedAt =>
    cases hrecover : s.recoverStorage settings asked expectedGeneration verified observedAt with
    | error e => exact .inl (by rw [step, hrecover]; rfl)
    | ok next =>
      have hstep : s.step (.recoverStorage settings asked expectedGeneration verified
          observedAt) = next := by rw [step, hrecover]; rfl
      simp only [recoverStorage, Ledger.reopen, bind_eq_ok, raiseIf_eq_ok, exists_const, not_not,
        Prod.exists, Except.ok.injEq] at hrecover
      obtain ⟨ledger, ⟨hinstallation, rfl⟩, value, -, slot, -, before, -, -, binding, -, -, recovered,
        ledger', -, rfl⟩ := hrecover
      rw [hstep]
      exact .inr ⟨rfl, hinstallation⟩

end Settings

section Installed

variable [Hash Plan] {identity : Identity}

/-- The executor serves the ledger with the identity, under the settings of its installation. -/
structure Installed (identity : Identity) (s : Supervisor) : Prop where
  invariant : s.Invariant
  identity : s.ledger.identity = identity
  installation : s.ledger.installation = s.settings.installationId

theorem installed_install (settings : Settings) (identity : Identity) :
    Installed identity (install settings identity) :=
  ⟨invariant_install settings identity, rfl, rfl⟩

/-- An action keeps the installation. -/
theorem Installed.installationId_step (h : Installed identity s) (operation : Operation) :
    (s.step operation).settings.installationId = s.settings.installationId := by
  obtain hsame | ⟨-, hopened⟩ := settings_step s operation
  · rw [hsame]
  · rw [← hopened, h.installation]

theorem Installed.step (h : Installed identity s) (operation : Operation) :
    Installed identity (s.step operation) := by
  obtain ⟨hidentity, hinstallation⟩ := (advances_step h.invariant operation).changes.identity
  refine ⟨invariant_step s operation h.invariant, by rw [hidentity, h.identity], ?_⟩
  rw [hinstallation, h.installation, h.installationId_step]

end Installed

end Supervisor

end Ficc.Execution
