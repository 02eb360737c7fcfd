import Ficc.Execution.Ledger

/-!
# The life of one record

What the executor can do to the record of an attempt, apart from the database that stores it. A
`Move` carries the data that the operation writes, `Allowed` is the guard under which the ledger
makes it, and `apply` is the record that it writes. The ledger operations refine these moves, so
a fact about records is proved once per move and never by unfolding an operation.
-/

namespace Ficc.Execution

/-- How far an attempt has come. An outcome, certain or not, is one stage. -/
def State.rank : State → ℕ
  | .starting => 1
  | .running => 2
  | .succeeded => 3
  | .failed => 3
  | .cancelled => 3
  | .expired => 3
  | .unknown => 3
  | .released => 4
  | .queued => 0
  | .preparing => 0
  | .prepared => 0
  | .abandoned => 0

/-- The attempt waits for its runtime, starts it or runs it. -/
def State.Active (state : State) : Prop := state ∈ [State.prepared, .starting, .running]

instance (state : State) : Decidable state.Active := inferInstanceAs (Decidable (_ ∈ _))

/-- The attempt has an outcome, though perhaps an uncertain one. -/
def State.Final (state : State) : Prop := state ∈ TERMINAL ∨ state = .unknown

instance (state : State) : Decidable state.Final := inferInstanceAs (Decidable (_ ∨ _))

/-- One change of a record. -/
inductive Move
  | annotate (fields : List AnnotatedField)
  | start
  | started (binding : String)
  | renew (request : Renewal) (timing : Timing)
  | finish (result : AttemptResult)
  | release
  | recover (before : Option Binding) (binding : Binding) (observedAt : ℚ)

namespace Move

/-- The ledger makes the move on the record. -/
def Allowed (value : Value) : Move → Prop
  | .annotate _ => True
  | .start => value.state = .prepared
  | .started _ => value.state = .starting
  | .renew request _ => value.state.Active ∧ value.leaseSequence < request.sequence
  | .finish result =>
    value.state ≠ .released ∧ result.state.Final ∧
      (result.state ∈ TERMINAL → result.cleanupConfirmed = true) ∧
      (value.state ∈ TERMINAL → value.state = result.state)
  | .release => value.state.Final ∧ value.cleanupConfirmed = true
  | .recover before _ _ => value.state ≠ .released ∧ value.binding = before

/-- The record after the move. -/
def apply (value : Value) : Move → Value
  | .annotate fields => fields.foldl AnnotatedField.apply value
  | .start => { value with state := .starting }
  | .started binding => { value with state := .running, runtimeBinding := some binding }
  | .renew request timing =>
    { value with
      leaseSequence := request.sequence, leaseExpiresAt := request.expiresAt
      timing := some timing }
  | .finish result =>
    { value with
      state := result.state, reason := result.reason, exitCode := result.exitCode
      outputBytes := result.outputBytes, errorBytes := result.errorBytes
      cleanupConfirmed := result.cleanupConfirmed }
  | .release => { value with outcome := some value.state, state := .released, slot := none }
  | .recover before binding observedAt =>
    let value := { value with
      binding := some binding, cleanupConfirmed := true
      storageRecovery := value.storageRecovery ++ [⟨before, binding, observedAt⟩] }
    if value.state ∈ TERMINAL then value else { value with
      state := .unknown, reason := some "storage_recovered_outcome_unknown", exitCode := none }

/-- The move deletes the devices of the attempt. -/
def frees : Move → Bool
  | .annotate _ => false
  | .start => false
  | .started _ => false
  | .renew _ _ => false
  | .finish result => result.cleanupConfirmed
  | .release => true
  | .recover _ _ _ => true

end Move

section Frame

variable {value : Value} {move : Move}

/-- Annotations change only the annotation fields. -/
theorem AnnotatedField.foldl_apply (fields : List AnnotatedField) (value : Value) :
    ∃ runtime engine payload stop progress, fields.foldl AnnotatedField.apply value =
      { value with
        preparedRuntime := runtime, engineReleased := engine, payloadReleased := payload
        pendingStop := stop, inputProgress := progress } := by
  induction fields generalizing value with
  | nil => exact ⟨_, _, _, _, _, rfl⟩
  | cons field fields ih =>
    obtain ⟨runtime, engine, payload, stop, progress, h⟩ := ih (AnnotatedField.apply value field)
    refine ⟨runtime, engine, payload, stop, progress, h.trans ?_⟩
    cases field <;> rfl

/-- No move changes the plan. -/
@[simp]
theorem Move.apply_plan (value : Value) (move : Move) : (move.apply value).plan = value.plan := by
  cases move with
  | annotate fields =>
    obtain ⟨_, _, _, _, _, h⟩ := AnnotatedField.foldl_apply fields value
    simp only [apply, h]
  | recover => simp only [apply]; split_ifs <;> rfl
  | _ => rfl

@[simp]
theorem Move.apply_planDigest (value : Value) (move : Move) :
    (move.apply value).planDigest = value.planDigest := by
  cases move with
  | annotate fields =>
    obtain ⟨_, _, _, _, _, h⟩ := AnnotatedField.foldl_apply fields value
    simp only [apply, h]
  | recover => simp only [apply]; split_ifs <;> rfl
  | _ => rfl

/-- No move turns an admitted attempt into a rejected one, or back. -/
@[simp]
theorem Move.apply_admissionRejection (value : Value) (move : Move) :
    (move.apply value).admissionRejection = value.admissionRejection := by
  cases move with
  | annotate fields =>
    obtain ⟨_, _, _, _, _, h⟩ := AnnotatedField.foldl_apply fields value
    simp only [apply, h]
  | recover => simp only [apply]; split_ifs <;> rfl
  | _ => rfl

@[simp]
theorem Move.apply_annotate_state (value : Value) (fields : List AnnotatedField) :
    ((Move.annotate fields).apply value).state = value.state := by
  obtain ⟨_, _, _, _, _, h⟩ := AnnotatedField.foldl_apply fields value
  simp only [apply, h]

/-- A recovered attempt keeps its observed outcome, or has an uncertain one. -/
theorem Move.apply_recover_state (value : Value) (before : Option Binding) (binding : Binding)
    (observedAt : ℚ) :
    ((Move.recover before binding observedAt).apply value).state =
      if value.state ∈ TERMINAL then value.state else .unknown := by
  simp only [apply]
  split_ifs <;> rfl

end Frame

section Rank

variable {value : Value} {move : Move}

theorem State.rank_of_final {state : State} (h : state.Final) : state.rank = 3 := by
  revert h
  cases state <;> decide

theorem State.rank_lt_of_ne_released {state : State} (h : state ≠ .released) : state.rank ≤ 3 := by
  revert h
  cases state <;> decide

/-- A move never takes an attempt back. -/
theorem Move.rank_le_rank_apply (h : move.Allowed value) :
    value.state.rank ≤ (move.apply value).state.rank := by
  cases move with
  | annotate fields => rw [apply_annotate_state]
  | start =>
    have hprepared : value.state = .prepared := h
    rw [hprepared]
    exact Nat.zero_le _
  | started binding =>
    have hstarting : value.state = .starting := h
    rw [hstarting]
    exact Nat.le_of_ble_eq_true rfl
  | renew request timing => exact le_refl _
  | finish result =>
    obtain ⟨hreleased, hfinal, -, -⟩ := h
    have hresult : ((Move.finish result).apply value).state.rank = 3 := State.rank_of_final hfinal
    rw [hresult]
    exact State.rank_lt_of_ne_released hreleased
  | release =>
    have hfinal : value.state.rank = 3 := State.rank_of_final h.1
    rw [hfinal]
    exact Nat.le_succ 3
  | recover before binding observedAt =>
    rw [apply_recover_state]
    split_ifs with hterminal
    · exact le_refl _
    · exact State.rank_lt_of_ne_released h.1

/-- A released attempt stays released. -/
theorem Move.apply_released (h : move.Allowed value) (hreleased : value.state = .released) :
    (move.apply value).state = .released := by
  have hrank := rank_le_rank_apply h
  rw [hreleased] at hrank
  revert hrank
  cases (move.apply value).state <;> decide

/-- A move leads to a state that an executor reports. -/
theorem Move.reported_apply (h : value.state.Reported) : (move.apply value).state.Reported := by
  cases move with
  | annotate fields => rwa [apply_annotate_state]
  | start => exact (by decide : State.starting.Reported)
  | started binding => exact (by decide : State.running.Reported)
  | renew request timing => exact h
  | finish result => exact result.reported
  | release => exact (by decide : State.released.Reported)
  | recover before binding observedAt =>
    rw [apply_recover_state]
    split_ifs
    · exact h
    · decide

end Rank

end Ficc.Execution
