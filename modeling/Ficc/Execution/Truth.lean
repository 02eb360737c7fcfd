import Ficc.Execution.Reservations

/-!
# Where outcomes come from

An executor asks the provider for the outcome of an attempt each time it cleans the attempt up,
and it may do so many times. Every action of the executor causes vouched events only
(`vouched_step`), so that the outcomes of a run can be traced back to their reports.

## Main results

* `traced_run`: every success and every released payload has its origin in the run.
* `keeps_outcome`: nothing but a release or a recovery of its storage changes an uncertain
  outcome.
* `outcomes_truthful`: what a run says about successes, cleanups and uncertain outcomes.
-/

namespace Ficc.Execution

/-- The attempt has succeeded, and may have been released since. -/
def Value.Succeeded (value : Value) : Prop :=
  value.state = .succeeded ∨ value.outcome = some .succeeded

/-- The outcome of the attempt was uncertain when it ended. -/
def Value.Uncertain (value : Value) : Prop :=
  value.state = .unknown ∨ (value.state = .released ∧ value.outcome = some .unknown)

/-- Both records say the same about the outcome. -/
def Value.SameOutcome (value value' : Value) : Prop :=
  value'.state = value.state ∧ value'.reason = value.reason ∧ value'.exitCode = value.exitCode ∧
    value'.outputBytes = value.outputBytes ∧ value'.errorBytes = value.errorBytes

theorem Value.SameOutcome.refl (value : Value) : value.SameOutcome value :=
  ⟨rfl, rfl, rfl, rfl, rfl⟩

theorem Value.SameOutcome.trans {value value' value'' : Value} (h₁ : value.SameOutcome value')
    (h₂ : value'.SameOutcome value'') : value.SameOutcome value'' :=
  ⟨h₂.1.trans h₁.1, h₂.2.1.trans h₁.2.1, h₂.2.2.1.trans h₁.2.2.1, h₂.2.2.2.1.trans h₁.2.2.2.1,
    h₂.2.2.2.2.trans h₁.2.2.2.2⟩

namespace Supervisor

variable [Hash Plan]

section Records

variable {s : Supervisor} {operation : Operation} {value value' : Value}

omit [Hash Plan] in
/-- An annotation releases the payload only if it says so. -/
theorem payloadReleased_foldl {fields : List AnnotatedField}
    (h : (fields.foldl AnnotatedField.apply value).payloadReleased = true) :
    value.payloadReleased = true ∨ .payloadReleased true ∈ fields := by
  induction fields generalizing value with
  | nil => exact .inl h
  | cons field fields ih =>
    rcases ih h with hfirst | hrest
    · cases field with
      | payloadReleased released =>
        have htrue : released = true := hfirst
        rw [htrue]
        exact .inr List.mem_cons_self
      | _ => exact .inl hfirst
    · exact .inr (List.mem_cons_of_mem _ hrest)

/-- An action that releases a barrier asks no provider. -/
theorem not_reports_of_releases {id : Identity} (h : Releases s operation id) :
    ¬operation.Reports id := by
  obtain ⟨asked, now, released, rfl, -, -, -⟩ := h
  rintro ⟨cleanup, hcleanup, -⟩
  cases hcleanup

/-- What the second record says beyond the first has its origin in the action. -/
structure Traces (s : Supervisor) (operation : Operation) (value value' : Value) : Prop where
  released : value'.payloadReleased = true →
    value.payloadReleased = true ∨ Releases s operation value.plan.attemptId
  succeeded : value'.Succeeded →
    value.Succeeded ∨ (value.payloadReleased = true ∧ operation.Reports value.plan.attemptId)

omit [Hash Plan] in
theorem succeeded_congr (hstate : value'.state = value.state) (houtcome : value'.outcome = value.outcome)
    (h : value'.Succeeded) : value.Succeeded := by
  unfold Value.Succeeded at h ⊢
  rwa [hstate, houtcome] at h

/-- A change of a row leads back to its operation. -/
theorem traces_of_evolves (h : Ledger.Evolves (Vouched s operation) value value') :
    Traces s operation value value' := by
  rcases h with rfl | ⟨move, hallowed, hvouched, rfl⟩
  · exact ⟨.inl, .inl⟩
  cases move with
  | annotate fields =>
    refine ⟨fun hreleased => ?_, fun hsucceeded => .inl ?_⟩
    · exact (payloadReleased_foldl hreleased).imp_right hvouched
    · obtain ⟨_, _, _, _, _, hfields⟩ := AnnotatedField.foldl_apply fields value
      refine succeeded_congr ?_ ?_ hsucceeded
      · rw [Move.apply, hfields]
      · rw [Move.apply, hfields]
  | start =>
    refine ⟨.inl, fun hsucceeded => .inl (.inr ?_)⟩
    exact hsucceeded.resolve_left State.noConfusion
  | started binding =>
    refine ⟨.inl, fun hsucceeded => .inl (.inr ?_)⟩
    exact hsucceeded.resolve_left State.noConfusion
  | renew request timing => exact ⟨.inl, .inl⟩
  | finish result =>
    refine ⟨.inl, fun hsucceeded => ?_⟩
    rcases hsucceeded with hstate | houtcome
    · exact .inr (hvouched hstate)
    · exact .inl (.inr houtcome)
  | release =>
    refine ⟨.inl, fun hsucceeded => .inl (.inl ?_)⟩
    exact Option.some.inj (hsucceeded.resolve_left State.noConfusion)
  | recover before binding observedAt =>
    unfold Move.apply
    dsimp only
    split
    · exact ⟨.inl, .inl⟩
    · refine ⟨.inl, fun hsucceeded => .inl (.inr ?_)⟩
      exact hsucceeded.resolve_left State.noConfusion

/-- So do several. -/
theorem traces_of_develops (h : Ledger.Develops (Vouched s operation) value value') :
    Traces s operation value value' := by
  induction h with
  | refl => exact ⟨.inl, .inl⟩
  | tail hfirst hlast ih =>
    rename_i middle last
    have hplan : middle.plan = value.plan := Ledger.Develops.plan hfirst
    obtain ⟨hlastReleased, hlastSucceeded⟩ := traces_of_evolves hlast
    rw [hplan] at hlastReleased hlastSucceeded
    refine ⟨fun hreleased => (hlastReleased hreleased).elim ih.released .inr,
      fun hsucceeded => ?_⟩
    rcases hlastSucceeded hsucceeded with hbefore | ⟨hreleased, hreports⟩
    · exact ih.succeeded hbefore
    · rcases ih.released hreleased with hold | hnow
      · exact .inr ⟨hold, hreports⟩
      · exact absurd hreports (not_reports_of_releases hnow)

/-- A new row has released nothing. -/
theorem fresh_of_inserted {permits : Event → Prop} {ledger : Ledger}
    (h : Ledger.Inserted permits ledger value) : value.payloadReleased = false ∧ ¬value.Succeeded := by
  cases h with
  | reserved plan slot binding now offer admits permitted =>
    exact ⟨rfl, fun hsucceeded => hsucceeded.elim State.noConfusion (nomatch ·)⟩
  | rejected plan now observation unblocked permitted =>
    refine ⟨rfl, fun hsucceeded => hsucceeded.elim (fun hstate => ?_) (nomatch ·)⟩
    unfold Ledger.rejected at hstate
    dsimp only at hstate
    split at hstate <;> cases hstate

end Records

section Runs

/-- The payload of the attempt was released in the run: its barrier waited for that, and the
release was committed. -/
def Released (start : Supervisor) (past : List Operation) (id : Identity) : Prop :=
  ∃ before operation after, past = before ++ operation :: after ∧
    Releases (run Supervisor.step start before) operation id

/-- The provider reported in the run that the attempt finished with exit code 0, after its payload
had been released. -/
def Reported (start : Supervisor) (past : List Operation) (id : Identity) : Prop :=
  ∃ before operation after, past = before ++ operation :: after ∧ operation.Reports id ∧
    Released start before id

variable {start : Supervisor} {past : List Operation} {id : Identity}

theorem Released.append (h : Released start past id) (operation : Operation) :
    Released start (past ++ [operation]) id := by
  obtain ⟨before, releasing, after, rfl, hreleases⟩ := h
  exact ⟨before, releasing, after ++ [operation], by simp, hreleases⟩

theorem Reported.append (h : Reported start past id) (operation : Operation) :
    Reported start (past ++ [operation]) id := by
  obtain ⟨before, reporting, after, rfl, hreports, hreleased⟩ := h
  exact ⟨before, reporting, after ++ [operation], by simp, hreports, hreleased⟩

/-- A release is one of the past. -/
theorem released_of_releases {operation : Operation}
    (h : Releases (run Supervisor.step start past) operation id) :
    Released start (past ++ [operation]) id :=
  ⟨past, operation, [], rfl, h⟩

/-- The origins of what a ledger says. -/
def Traced (start : Supervisor) (past : List Operation) (ledger : Ledger) : Prop :=
  ∀ id value, ledger.get id = some value →
    (value.payloadReleased = true → Released start past id) ∧
      (value.Succeeded → Reported start past id)

/-- Every success and every released payload has its origin in the run. -/
theorem traced_run (hinv : start.Invariant) (hempty : ∀ id, start.ledger.get id = none)
    (past : List Operation) : Traced start past (run Supervisor.step start past).ledger := by
  induction past using List.reverseRecOn with
  | nil =>
    intro id value hget
    rw [run_nil, hempty] at hget
    cases hget
  | append_singleton past operation ih =>
    intro id value' hget
    rw [run_append] at hget
    have hs : (run Supervisor.step start past).Invariant := run_invariant invariant_step hinv past
    have hchanges := vouched_step hs operation
    have hkey : value'.plan.attemptId = id :=
      (hchanges.bound hs.ledger.bound).key hget
    rcases hchanges.backward hs.ledger.bound hget with
      ⟨value, hbefore, hdevelops⟩ | ⟨middle, first, -, hinserted, hdevelops⟩
    · obtain ⟨hreleased, hreported⟩ := ih id value hbefore
      obtain ⟨hnowReleased, hnowSucceeded⟩ := traces_of_develops hdevelops
      rw [← Ledger.Develops.plan hdevelops, hkey] at hnowReleased hnowSucceeded
      refine ⟨fun h => ?_, fun h => ?_⟩
      · rcases hnowReleased h with hold | hreleases
        · exact (hreleased hold).append operation
        · exact released_of_releases hreleases
      · rcases hnowSucceeded h with hold | ⟨hold, hreports⟩
        · exact (hreported hold).append operation
        · exact ⟨past, operation, [], by simp, hreports, hreleased hold⟩
    · -- A new record says nothing yet, and the action that inserts it could only release it.
      obtain ⟨hkept, hfailed⟩ := fresh_of_inserted hinserted
      obtain ⟨hnowReleased, hnowSucceeded⟩ := traces_of_develops hdevelops
      rw [← Ledger.Develops.plan hdevelops, hkey] at hnowReleased hnowSucceeded
      rw [hkept] at hnowReleased hnowSucceeded
      refine ⟨fun h => ?_, fun h => ?_⟩
      · exact released_of_releases ((hnowReleased h).resolve_left Bool.false_ne_true)
      · rcases hnowSucceeded h with hold | ⟨hold, -⟩
        · exact absurd hold hfailed
        · exact absurd hold Bool.false_ne_true

end Runs

section Uncertain

variable {s : Supervisor} {operation : Operation} {value value' : Value}

/-- The action releases the attempt, or recovers its storage. -/
def Operation.Replaces (operation : Operation) (id : Identity) : Prop :=
  match operation with
  | .releaseBegin asked => asked.attemptId = id
  | .releaseEnd asked _ => asked.attemptId = id
  | .recoverStorage _ asked _ _ _ => asked.attemptId = id
  | _ => False

theorem uncertain_of_evolves (hvalue : value.Uncertain)
    (h : Ledger.Evolves operation.Permits value value') :
    value'.Uncertain ∧
      (¬operation.Replaces value.plan.attemptId → value.SameOutcome value') := by
  rcases h with rfl | ⟨move, hallowed, hpermits, rfl⟩
  · exact ⟨hvalue, fun _ => .refl _⟩
  have hactive : ¬value.state.Active := by
    rcases hvalue with hstate | ⟨hstate, -⟩ <;> rw [hstate] <;> decide
  cases move with
  | annotate fields =>
    obtain ⟨_, _, _, _, _, hfields⟩ := AnnotatedField.foldl_apply fields value
    simp only [Move.apply, hfields]
    exact ⟨hvalue, fun _ => ⟨rfl, rfl, rfl, rfl, rfl⟩⟩
  | start =>
    have hprepared : value.state = .prepared := hallowed
    rw [hprepared] at hactive
    exact absurd (by decide) hactive
  | started binding =>
    have hstarting : value.state = .starting := hallowed
    rw [hstarting] at hactive
    exact absurd (by decide) hactive
  | renew request timing => exact absurd hallowed.1 hactive
  | finish result =>
    rcases (hpermits : Supervised value result) with h | ⟨hstate, -, hunknown, hrest⟩
    · exact absurd h hactive
    · exact ⟨.inl hunknown, fun _ => ⟨hunknown.trans hstate.symm, hrest⟩⟩
  | release =>
    rcases hvalue with hstate | ⟨hstate, -⟩
    · refine ⟨.inr ⟨rfl, congrArg some hstate⟩, fun hkeeps => absurd ?_ hkeeps⟩
      cases operation with
      | releaseBegin asked => exact congrArg Fence.attemptId (Eq.symm hpermits)
      | releaseEnd asked cleaned => exact congrArg Fence.attemptId (Eq.symm hpermits)
      | _ => exact hpermits.elim
    · have hfinal : value.state.Final := hallowed.1
      rw [hstate] at hfinal
      exact absurd hfinal (by decide)
  | recover before binding observedAt =>
    have hstate : value.state = .unknown := hvalue.resolve_right fun h => hallowed.1 h.1
    refine ⟨.inl ?_, fun hkeeps => absurd ?_ hkeeps⟩
    · have hterminal : value.state ∉ TERMINAL := by rw [hstate]; decide
      simp only [Move.apply]
      rw [if_neg hterminal]
    · cases operation with
      | recoverStorage settings asked expectedGeneration verified observedAt =>
        exact congrArg Fence.attemptId (Eq.symm hpermits)
      | _ => exact hpermits.elim

theorem uncertain_of_develops (hvalue : value.Uncertain)
    (h : Ledger.Develops operation.Permits value value') :
    value'.Uncertain ∧
      (¬operation.Replaces value.plan.attemptId → value.SameOutcome value') := by
  induction h with
  | refl => exact ⟨hvalue, fun _ => .refl _⟩
  | tail hfirst hlast ih =>
    obtain ⟨huncertain, hsame⟩ := ih
    obtain ⟨hafter, hsame'⟩ := uncertain_of_evolves huncertain hlast
    rw [Ledger.Develops.plan hfirst] at hsame'
    exact ⟨hafter, fun hkeeps => (hsame hkeeps).trans (hsame' hkeeps)⟩

/-- An uncertain outcome stays one, and only a release or a recovery of its storage changes what
the record says about it. -/
theorem keeps_outcome (hinv : s.Invariant) (operation : Operation) {id : Identity}
    (hget : s.ledger.get id = some value) (hvalue : value.Uncertain) :
    ∃ value', (s.step operation).ledger.get id = some value' ∧ value'.Uncertain ∧
      (¬operation.Replaces id → value.SameOutcome value') := by
  obtain ⟨value', hget', hdevelops⟩ :=
    (advances_step hinv operation).changes.forward hinv.ledger.bound hget
  obtain ⟨huncertain, hsame⟩ := uncertain_of_develops hvalue hdevelops
  rw [hinv.ledger.bound.key hget] at hsame
  exact ⟨value', hget', huncertain, hsame⟩

/-- What is uncertain stays so until it is replaced. -/
theorem uncertain_run (hinv : s.Invariant) (later : List Operation) {id : Identity}
    (hget : s.ledger.get id = some value) (hvalue : value.Uncertain) :
    ∃ value', (run Supervisor.step s later).ledger.get id = some value' ∧
      value'.Uncertain := by
  induction later generalizing s value with
  | nil => exact ⟨value, hget, hvalue⟩
  | cons operation later ih =>
    obtain ⟨value', hget', huncertain, -⟩ := keeps_outcome hinv operation hget hvalue
    exact ih (invariant_step s operation hinv) hget' huncertain

end Uncertain

/-- What a run of the executor records about outcomes is true: a success was reported for a
payload that had been released, an attempt that has ended is cleaned up, and no later cleanup
changes an uncertain outcome. -/
theorem outcomes_truthful (settings : Settings) (identity : Identity) (past : List Operation)
    (id : Identity) (value : Value)
    (hget : (run Supervisor.step (install settings identity) past).ledger.get id = some value) :
    (value.Succeeded → Reported (install settings identity) past id) ∧
      (value.state ∈ TERMINAL ∨ value.state = .released → value.cleanupConfirmed = true) ∧
      (value.state = .unknown → ∀ later operation, ∃ before after,
        (run Supervisor.step (install settings identity) (past ++ later)).ledger.get id =
          some before ∧
        (run Supervisor.step (install settings identity) (past ++ later ++ [operation])).ledger.get
          id = some after ∧
        before.Uncertain ∧ after.Uncertain ∧
        (¬operation.Replaces id → before.SameOutcome after)) := by
  have hstart : (install settings identity).Consistent := consistent_install settings identity
  have hs := run_invariant consistent_step hstart past
  refine ⟨fun hsucceeded => ?_, fun hended => ?_, fun hunknown later operation => ?_⟩
  · exact (traced_run hstart.toInvariant (fun _ => rfl) past id value hget).2 hsucceeded
  · have hsound : value.Sound := hs.reserved.sound hget
    exact hended.elim hsound.terminal hsound.released
  · obtain ⟨before, hbefore, huncertain⟩ := uncertain_run hs.toInvariant later hget (.inl hunknown)
    have hlater := run_invariant consistent_step hs later
    obtain ⟨after, hafter, huncertain', hsame⟩ :=
      keeps_outcome hlater.toInvariant operation hbefore huncertain
    refine ⟨before, after, ?_, ?_, huncertain, huncertain', hsame⟩
    · rw [run_append]
      exact hbefore
    · rw [run_append, run_append]
      exact hafter

end Supervisor

namespace Sample

/-- A cleanup that finds the runtime finished with the given exit code. -/
def cleanup (exitCode : ℕ) : Cleanup :=
  ⟨some ⟨true, some exitCode, 3, 0⟩, .stopped, true, some ⟨true, some exitCode, 3, 0⟩⟩

/-- The run in which the payload of the attempt runs to its end. -/
def finishing : List (@Supervisor.Operation hash) :=
  letI := hash
  let asked := (plan 5 6 1 3).fence
  [.prepare (admission (plan 5 6 1 3) 110 lease_pos) (fun slot => .ok (binding slot))
      (reading 100) (reading 100),
    .harvest 5 (.ok (.prepared ⟨[], []⟩)) (reading 101) (cleanup 0),
    .start asked (reading 101),
    .harvest 5 (.ok .done) (reading 102) (cleanup 0),
    .tick 5 (reading 102) .payload (cleanup 0) (cleanup 0),
    .barrierStarted asked "payload" (reading 103),
    .barrierReleased asked (reading 103),
    .harvest 5 (.ok .done) (reading 104) (cleanup 0),
    .tick 5 (reading 105) .finished (cleanup 0) (cleanup 0)]

end Sample

theorem Supervisor.outcomes_truthful_finishing :
    ∃ value, (@run _ _ (@Supervisor.step Sample.hash)
        (Supervisor.install Sample.settings 7) Sample.finishing).ledger.get 5 =
          some value ∧ value.Succeeded ∧ value.cleanupConfirmed = true ∧
      @Supervisor.Reported Sample.hash (Supervisor.install Sample.settings 7)
        Sample.finishing 5 := by
  let _ := Sample.hash
  have hstate : ((run Supervisor.step (Supervisor.install Sample.settings 7)
      Sample.finishing).ledger.get 5).map Value.state = some .succeeded := by decide +kernel
  obtain ⟨value, hget, hvalue⟩ := Option.map_eq_some_iff.mp hstate
  have htruth := Supervisor.outcomes_truthful Sample.settings 7 Sample.finishing 5 value hget
  exact ⟨value, hget, .inl hvalue, htruth.2.1 (.inl (by rw [hvalue]; decide)),
    htruth.1 (.inl hvalue)⟩

end Ficc.Execution
