import Ficc.Execution.LedgerRuns
import Ficc.Execution.Monitor

/-!
# What the executor can do

One theorem for all actions of the executor, `Supervisor.records_step`: an action changes the
ledger only by the events that `Operation.Permits` allows it and that are `Vouched` for. A success
is recorded only for a released payload of which the provider reported the end, and only the
payload barrier releases a payload. The proof needs one invariant of the volatile state, that pool
work is only under way for attempts without an outcome. It is what keeps the supervisor from
recording an outcome twice.
-/

namespace Ficc.Execution

/-- The supervisor records a result only for an attempt without an outcome, or repeats an
uncertain outcome whose cleanup is not confirmed. -/
def Supervised (value : Value) (result : AttemptResult) : Prop :=
  value.state.Active ∨
    (value.state = .unknown ∧ value.cleanupConfirmed = false ∧ result.state = .unknown ∧
      result.reason = value.reason ∧ result.exitCode = value.exitCode ∧
      result.outputBytes = value.outputBytes ∧ result.errorBytes = value.errorBytes)

/-- A reported state that has not ended is active. -/
theorem State.active_of_reported {state : State} (hreported : state.Reported)
    (hterminal : state ∉ TERMINAL) (hreleased : state ≠ .released) (hunknown : state ≠ .unknown) :
    state.Active := by
  revert hreported hterminal hreleased hunknown
  cases state <;> decide

theorem State.Active.not_terminal {state : State} (h : state.Active) : state ∉ TERMINAL := by
  revert h
  cases state <;> decide

theorem State.Active.not_final {state : State} (h : state.Active) : ¬state.Final := by
  revert h
  cases state <;> decide

namespace Cleanup

theorem result_toFence (cleanup : Cleanup) (value : Value) (reason : Option String) :
    (cleanup.result value reason).toFence = value.fence := by
  unfold result
  split_ifs
  · rfl
  · simp only
    split
    · rename_i found hvalid
      exact (AttemptResult.validate_eq_ok hvalid).1
    · rfl

theorem retained_toFence (value : Value) (result : AttemptResult) :
    (retained value result).toFence = result.toFence := by
  unfold retained
  split_ifs <;> rfl

variable {value : Value} {reason : Option String}

/-- A repeated cleanup keeps the recorded uncertain outcome. -/
theorem retained_of_unknown {result : AttemptResult} (h : value.state = .unknown) :
    (retained value result).state = .unknown ∧ (retained value result).reason = value.reason ∧
      (retained value result).exitCode = value.exitCode ∧
      (retained value result).outputBytes = value.outputBytes ∧
      (retained value result).errorBytes = value.errorBytes := by
  rw [retained, if_pos h]
  exact ⟨rfl, rfl, rfl, rfl, rfl⟩

/-- The provider reported a finished runtime with exit code 0. -/
def Reports (cleanup : Cleanup) : Prop :=
  ∃ found, (cleanup.observe = some found ∨ cleanup.stopRuntime = some found) ∧
    found.finished = true ∧ found.exitCode = some 0

/-- Success needs the released payload and its clean exit. -/
theorem judged_succeeded {observed : Option Observed}
    (h : (judged value observed reason).1 = .succeeded) :
    value.payloadReleased = true ∧
      ∃ found ∈ observed, found.finished = true ∧ found.exitCode = some 0 := by
  have hother : ∀ reason, (judged.unobserved reason).1 ≠ .succeeded := by
    intro reason
    unfold judged.unobserved
    split_ifs <;> exact State.noConfusion
  unfold judged at h
  split at h
  · rename_i found hfound
    obtain ⟨hmem, hfinished⟩ := Option.filter_eq_some_iff.mp hfound
    by_cases hreleased : value.payloadReleased = true
    · rw [if_pos hreleased] at h
      by_cases hcode : found.exitCode = some 0
      · exact ⟨hreleased, found, hmem, hfinished, hcode⟩
      · rw [if_neg hcode] at h
        cases h
    · rw [if_neg hreleased] at h
      exact absurd h (hother reason)
  · exact absurd h (hother reason)

/-- What was observed in the end was observed before the stop or by it. -/
theorem mem_concluded {cleanup : Cleanup} {found : Observed}
    (h : found ∈ (cleanup.concluded value reason).1) :
    cleanup.observe = some found ∨ cleanup.stopRuntime = some found := by
  have hobserved : ∀ found ∈ (cleanup.observed value reason).1, cleanup.observe = some found := by
    intro found hfound
    unfold observed at hfound
    split at hfound
    · split at hfound
      · rename_i before hbefore
        exact hbefore.trans hfound
      · cases hfound
    · cases hfound
  unfold concluded at h
  dsimp only at h
  split at h
  · split at h
    · rename_i stopped hstopped
      dsimp only at h
      split at h
      · exact .inr (hstopped.trans h)
      · exact .inl (hobserved found h)
    · exact .inl (hobserved found h)
  · exact .inl (hobserved found h)

/-- A success is the provider's report about a released payload. -/
theorem result_succeeded {cleanup : Cleanup}
    (h : (retained value (cleanup.result value reason)).state = .succeeded) :
    value.payloadReleased = true ∧ cleanup.Reports := by
  unfold retained at h
  split at h
  · cases h
  unfold result at h
  split at h
  · cases h
  dsimp only at h
  split at h
  · rename_i recorded hvalid
    obtain ⟨-, hstate, -⟩ := AttemptResult.validate_eq_ok hvalid
    rw [hstate] at h
    obtain ⟨hreleased, found, hfound, hfinished, hcode⟩ := judged_succeeded h
    exact ⟨hreleased, found, mem_concluded hfound, hfinished, hcode⟩
  · cases h

end Cleanup

namespace Supervisor

variable [Hash Plan]

/-- What a cleanup of an attempt does to the ledger. -/
def Cleans (id : Identity) : Event → Prop
  | .move value (.annotate _) => value.plan.attemptId = id
  | .move value (.finish result) => value.plan.attemptId = id ∧ Supervised value result
  | _ => False

/-- Only the stop request of the record has changed. -/
def UpToStop (value found : Value) : Prop := ∃ stop, found = { value with pendingStop := stop }

/-- The event releases no payload, and a success that it records was reported to a cleanup. -/
def Honest (cleanups : List Cleanup) : Event → Prop
  | .move value (.finish result) => result.state = .succeeded →
      value.payloadReleased = true ∧ ∃ cleanup ∈ cleanups, cleanup.Reports
  | .move _ (.annotate fields) => .payloadReleased true ∉ fields
  | _ => True

/-- What one of the cleanups of an attempt does to the ledger. -/
def CleansBy (cleanups : List Cleanup) (id : Identity) (event : Event) : Prop :=
  Cleans id event ∧ Honest cleanups event

variable {s s' s₀ : Supervisor} {value found : Value} {id : Identity} {tried : List Cleanup}

/-- An annotation of other fields cleans nothing. -/
theorem cleansBy_annotate {ledger ledger' : Ledger} (hl : ledger.Bound) {fence : Fence}
    {fields : List AnnotatedField} (h : ledger.annotate fence fields = .ok (value, ledger'))
    (hid : fence.attemptId = id) (hfields : .payloadReleased true ∉ fields) :
    Ledger.Changes (CleansBy tried id) ledger ledger' :=
  Ledger.changes_of_annotate hl h fun _ hfound =>
    ⟨(hl.fenced_attemptId hfound).trans hid, hfields⟩

/-- A cleanup works with a record of an attempt that has no certain outcome, and touches the
ledger only. -/
theorem finish_eq_ok (hinv : s.ledger.Invariant) {reason : Option String} {cleanup : Cleanup}
    (hget : s.ledger.get value.plan.attemptId = some found) (hsame : UpToStop value found)
    (hterminal : value.state ∉ TERMINAL) (h : s.finish value reason cleanup = .ok s') :
    ∃ ledger, s' = { s with ledger } ∧
      Ledger.Changes (CleansBy [cleanup] value.plan.attemptId) s.ledger ledger := by
  unfold finish at h
  by_cases hunknown : value.state = .unknown ∧ value.cleanupConfirmed = true
  · rw [if_pos hunknown] at h
    obtain rfl := Except.ok.inj h
    exact ⟨s.ledger, rfl, .refl⟩
  rw [if_neg hunknown] at h
  simp only [bind_eq_ok, raiseIf_eq_ok, exists_const] at h
  obtain ⟨-, h⟩ := h
  -- The two ways in which the processes end lead to the same record of the result.
  have hrecord : ∀ ledger, s.ledger.finish (Cleanup.retained value (cleanup.result value reason)) =
      .ok ledger → Ledger.Changes (CleansBy [cleanup] value.plan.attemptId) s.ledger ledger := by
    intro ledger hfinish
    obtain ⟨current, hfence, hallowed, rfl⟩ := Ledger.finish_eq_ok hinv.bound hfinish
    rw [Cleanup.retained_toFence, Cleanup.result_toFence] at hfence
    obtain rfl := Option.some.inj (hget.symm.trans (Ledger.fenced_eq_ok.mp hfence).1)
    refine (Ledger.Change.of_fenced hfence hallowed ⟨⟨?_, ?_⟩, fun hsucceeded => ?_⟩).changes
    · obtain ⟨stop, rfl⟩ := hsame
      rfl
    · obtain ⟨stop, rfl⟩ := hsame
      by_cases hstate : value.state = .unknown
      · have hcleanup : value.cleanupConfirmed = false := by
          by_contra hconfirmed
          exact hunknown ⟨hstate, by simpa using hconfirmed⟩
        exact .inr ⟨hstate, hcleanup, Cleanup.retained_of_unknown hstate⟩
      · exact .inl (State.active_of_reported (hinv.reports hget) hterminal hallowed.1 hstate)
    · obtain ⟨hreleased, hreports⟩ := Cleanup.result_succeeded hsucceeded
      obtain ⟨stop, rfl⟩ := hsame
      exact ⟨hreleased, cleanup, List.mem_singleton_self cleanup, hreports⟩
  cases hstop : cleanup.stop with
  | pending overdue =>
    simp only [hstop, bind_eq_ok, raiseIf_eq_ok, exists_const] at h
    obtain ⟨-, h⟩ := h
    split_ifs at h with hpending
    · simp only [bind_eq_ok, Prod.exists, Except.ok.injEq] at h
      obtain ⟨annotated, ledger, hannotate, rfl⟩ := h
      exact ⟨ledger, rfl, cleansBy_annotate hinv.bound hannotate rfl (by simp)⟩
    · obtain rfl := Except.ok.inj h
      exact ⟨s.ledger, rfl, .refl⟩
  | stopped =>
    simp only [hstop, bind_eq_ok, Except.ok.injEq] at h
    obtain ⟨ledger, hfinish, rfl⟩ := h
    exact ⟨ledger, rfl, hrecord ledger hfinish⟩
  | failed =>
    simp only [hstop, bind_eq_ok, Except.ok.injEq] at h
    obtain ⟨ledger, hfinish, rfl⟩ := h
    exact ⟨ledger, rfl, hrecord ledger hfinish⟩

/-- A cleanup whose errors are dropped. -/
theorem commit_finish (s : Supervisor) (hinv : s.ledger.Invariant) (reason : Option String)
    (cleanup : Cleanup)
    (hget : s.ledger.get value.plan.attemptId = some found) (hsame : UpToStop value found)
    (hterminal : value.state ∉ TERMINAL) :
    ∃ ledger, s.commit (s.finish value reason cleanup) = { s with ledger } ∧
      Ledger.Changes (CleansBy [cleanup] value.plan.attemptId) s.ledger ledger := by
  cases hfinish : s.finish value reason cleanup with
  | ok next =>
    obtain ⟨ledger, rfl, hchanges⟩ := finish_eq_ok hinv hget hsame hterminal hfinish
    exact ⟨ledger, rfl, hchanges⟩
  | error e => exact ⟨s.ledger, rfl, .refl⟩

section Volatile

/-- Pool work is only under way for attempts without an outcome. -/
def PendingActive (s : Supervisor) : Prop :=
  ∀ {id : Identity} {work : Work}, s.pending.lookup id = some work →
    ∃ value, s.ledger.get id = some value ∧ value.state.Active

/-- An attempt without an outcome keeps none as long as no result is recorded for it and its
storage is not recovered. -/
theorem active_of_changes {permits : Event → Prop} {ledger ledger' : Ledger}
    (hinv : ledger.Invariant) (h : Ledger.Changes permits ledger ledger')
    (hfinish : ∀ value result, permits (.move value (.finish result)) →
      value.plan.attemptId ≠ id)
    (hrecover : ∀ value before binding at_, ¬permits (.move value (.recover before binding at_)))
    (hget : ∃ value, ledger.get id = some value ∧ value.state.Active) :
    ∃ value, ledger'.get id = some value ∧ value.state.Active := by
  induction h with
  | refl => exact hget
  | tail hfirst hlast ih =>
    obtain ⟨value, hvalue, hactive⟩ := ih
    have hmiddle := Ledger.Changes.invariant hinv hfirst
    obtain ⟨value', hvalue', hevolves⟩ := hlast.forward hmiddle.bound hvalue
    refine ⟨value', hvalue', ?_⟩
    rcases hevolves with rfl | ⟨move, hallowed, hpermitted, rfl⟩
    · exact hactive
    · cases move with
      | annotate fields => rwa [Move.apply_annotate_state]
      | start => exact (by decide : State.starting.Active)
      | started binding => exact (by decide : State.running.Active)
      | renew request timing => exact hactive
      | finish result => exact absurd (hmiddle.bound.key hvalue) (hfinish _ _ hpermitted)
      | release => exact absurd hallowed.1 hactive.not_final
      | recover before binding at_ => exact absurd hpermitted (hrecover _ _ _ _)

end Volatile

/-- The events that an action may cause. -/
def Operation.Permits (operation : Operation) : Event → Prop
  | .offer _ =>
    match operation with
    | .setOffer _ _ _ => True
    | _ => False
  | .reserve plan =>
    match operation with
    | .prepare admission _ _ _ => plan = admission.plan
    | _ => False
  | .reject plan =>
    match operation with
    | .prepare admission _ _ _ => plan = admission.plan
    | .rejectAbsent asked _ _ => plan = asked
    | _ => False
  | .move _ (.annotate _) => True
  | .move _ (.started _) => True
  | .move value .start =>
    match operation with
    | .start asked _ => value.fence = asked
    | _ => False
  | .move value (.renew request _) =>
    value.fence = request.toFence ∧
      match operation with
      | .renew asked _ => request = asked
      | .prepare admission _ _ _ => request = admission.lease
      | _ => False
  | .move value (.finish result) => Supervised value result
  | .move value .release =>
    match operation with
    | .releaseBegin asked => value.fence = asked
    | .releaseEnd asked _ => value.fence = asked
    | _ => False
  | .move value (.recover _ _ _) =>
    match operation with
    | .recoverStorage _ asked _ _ _ => value.fence = asked
    | _ => False

/-- The cleanups of an attempt that an action may carry out. -/
def Operation.cleanups (id : Identity) : Operation → List Cleanup
  | .requestStop asked _ cleanup => if asked.attemptId = id then [cleanup] else []
  | .harvest harvested _ _ cleanup => if harvested = id then [cleanup] else []
  | .tick ticked _ _ cleanup retry => if ticked = id then [cleanup, retry] else []
  | .inputEnd asked _ _ _ _ cleanup => if asked.attemptId = id then [cleanup] else []
  | .restart _ cleanup => [cleanup id]
  | _ => []

/-- The provider reported in the action that the attempt finished with exit code 0. -/
def Operation.Reports (operation : Operation) (id : Identity) : Prop :=
  ∃ cleanup ∈ operation.cleanups id, cleanup.Reports

/-- The action releases the payload barrier at which the attempt waits, and commits that. -/
def Releases (s : Supervisor) (operation : Operation) (id : Identity) : Prop :=
  ∃ asked now released, operation = .barrierReleased asked now ∧ asked.attemptId = id ∧
    s.pending.lookup id = some .payloadBarrier ∧ s.barrierReleased asked now = .ok released

/-- What is true of an event that the action causes. -/
def Vouched (s : Supervisor) (operation : Operation) : Event → Prop
  | .move value (.finish result) => result.state = .succeeded →
      value.payloadReleased = true ∧ operation.Reports value.plan.attemptId
  | .move value (.annotate fields) => .payloadReleased true ∈ fields →
      Releases s operation value.plan.attemptId
  | _ => True

/-- What an action records: permitted events that are vouched for. -/
def Records (s₀ : Supervisor) (operation : Operation) (event : Event) : Prop :=
  operation.Permits event ∧ Vouched s₀ operation event

/-- A cleanup is permitted in every action. -/
theorem permits_of_cleans {operation : Operation} {event : Event} (h : Cleans id event) :
    operation.Permits event := by
  match event, h with
  | .move _ (.annotate _), _ => trivial
  | .move _ (.finish _), h => exact h.2

/-- An action may record what its own cleanups do. -/
theorem records_of_cleansBy {operation : Operation}
    (htried : ∀ cleanup ∈ tried, cleanup ∈ operation.cleanups id) {event : Event}
    (h : CleansBy tried id event) : Records s₀ operation event := by
  obtain ⟨hcleans, hhonest⟩ := h
  refine ⟨permits_of_cleans hcleans, ?_⟩
  match event, hcleans, hhonest with
  | .move _ (.annotate _), _, hfields => exact fun hreleases => absurd hreleases hfields
  | .move value (.finish result), ⟨hid, _⟩, hreported =>
    intro hsucceeded
    obtain ⟨hreleased, cleanup, hcleanup, hreports⟩ := hreported hsucceeded
    exact ⟨hreleased, cleanup, hid ▸ htried cleanup hcleanup, hreports⟩

/-- What every reachable executor satisfies, besides the reservations. -/
structure Invariant (s : Supervisor) : Prop where
  ledger : s.ledger.Invariant
  pending : s.PendingActive
  offered : s.ledger.offer ≠ none

/-- The ledger changes by permitted events, and the volatile state stays consistent with it. -/
structure Advances (permits : Event → Prop) (s s' : Supervisor) : Prop where
  changes : Ledger.Changes permits s.ledger s'.ledger
  pending : s'.PendingActive

/-- What advances keeps the invariant. -/
theorem Advances.invariant {permits : Event → Prop} (hinv : s.Invariant)
    (h : Advances permits s s') : s'.Invariant :=
  ⟨Ledger.Changes.invariant hinv.ledger h.changes, h.pending, h.changes.offered hinv.offered⟩

theorem Advances.refl {permits : Event → Prop} (hinv : s.Invariant) : Advances permits s s :=
  ⟨.refl, hinv.pending⟩

/-- An action that only annotates and cleans up attempts for which no pool work is under way. -/
theorem Advances.of_cleans {ledger : Ledger} {operation : Operation} (hinv : s.Invariant)
    (htried : ∀ cleanup ∈ tried, cleanup ∈ operation.cleanups id)
    (hfree : s.pending.lookup id = none)
    (h : Ledger.Changes (CleansBy tried id) s.ledger ledger) :
    Advances (Records s₀ operation) s { s with ledger } where
  changes := h.mono fun _ => records_of_cleansBy htried
  pending {other work} hwork := by
    refine active_of_changes hinv.ledger h ?_ (fun _ _ _ _ hrecover => hrecover.1)
      (hinv.pending hwork)
    rintro value result ⟨⟨rfl, -⟩, -⟩ hsame
    rw [hsame] at hfree
    rw [hfree] at hwork
    cases hwork

section Quiet

/-- The event neither records a result nor recovers storage. -/
def Silent : Event → Prop
  | .move _ (.finish _) => False
  | .move _ (.recover _ _ _) => False
  | _ => True

/-- An action that records no result, where pool work is only added for attempts without an
outcome. -/
theorem Advances.of_silent {operation : Operation} (hinv : s.Invariant)
    (h : Ledger.Changes (fun event => Records s₀ operation event ∧ Silent event) s.ledger s'.ledger)
    (hpending : ∀ {id work}, s'.pending.lookup id = some work →
      s.pending.lookup id = some work ∨ ∃ value, s'.ledger.get id = some value ∧
        value.state.Active) :
    Advances (Records s₀ operation) s s' where
  changes := h.mono fun _ => And.left
  pending {id work} hwork := by
    rcases hpending hwork with hbefore | hactive
    · exact active_of_changes hinv.ledger h (fun _ _ hfinish => absurd hfinish.2 not_false)
        (fun _ _ _ _ hrecover => hrecover.2) (hinv.pending hbefore)
    · exact hactive

/-- An annotation that does not release a payload. -/
theorem silent_annotate {operation : Operation} {ledger ledger' : Ledger} (hl : ledger.Bound)
    {fence : Fence} {fields : List AnnotatedField}
    (h : ledger.annotate fence fields = .ok (value, ledger'))
    (hfields : .payloadReleased true ∉ fields) :
    Ledger.Changes (fun event => Records s₀ operation event ∧ Silent event) ledger ledger' :=
  Ledger.changes_of_annotate hl h fun _ _ =>
    ⟨⟨trivial, fun hreleases => absurd hreleases hfields⟩, trivial⟩

theorem Advances.congr {permits : Event → Prop} {s'' : Supervisor} (h : Advances permits s s')
    (hledger : s''.ledger = s'.ledger) (hpending : s''.pending = s'.pending) :
    Advances permits s s'' where
  changes := hledger ▸ h.changes
  pending {id work} hwork := by
    rw [hpending] at hwork
    rw [hledger]
    exact h.pending hwork

theorem Advances.after {permits : Event → Prop} (hinv : s.Invariant)
    {result : Except Error (Value × Supervisor)}
    (h : ∀ value s', result = .ok (value, s') → Advances permits s s') :
    Advances permits s (s.after result) := by
  cases hresult : result with
  | ok returned => exact h returned.1 returned.2 hresult
  | error e => exact .refl hinv

theorem Advances.commit {permits : Event → Prop} (hinv : s.Invariant)
    {result : Except Error Supervisor} (h : ∀ s', result = .ok s' → Advances permits s s') :
    Advances permits s (s.commit result) := by
  cases hresult : result with
  | ok next => exact h next hresult
  | error e => exact .refl hinv

omit [Hash Plan] in
/-- A queued preparation writes nothing. -/
@[simp]
theorem queuePreparation_ledger (s : Supervisor) (value : Value) :
    (s.queuePreparation value).ledger = s.ledger := by
  unfold queuePreparation
  split_ifs <;> rfl

omit [Hash Plan] in
/-- Preparation is queued for a prepared attempt only. -/
theorem queuePreparation_pending {work : Work}
    (h : (s.queuePreparation value).pending.lookup id = some work) :
    s.pending.lookup id = some work ∨ (id = value.plan.attemptId ∧ value.state = .prepared) := by
  unfold queuePreparation at h
  split_ifs at h with hskip hinputs hcomplete
  · exact .inl h
  · rw [not_or, not_or] at hskip
    rw [Table.lookup_insert_eq] at h
    split_ifs at h with hid
    · exact .inr ⟨hid, not_not.mp hskip.2.1⟩
    · exact .inl h
  · rw [not_or, not_or] at hskip
    rw [Table.lookup_insert_eq] at h
    split_ifs at h with hid
    · exact .inr ⟨hid, not_not.mp hskip.2.1⟩
    · exact .inl h
  · exact .inl h

end Quiet

section Actions

/-- A preparation writes only what it records, and so does every operation below. -/
theorem advances_prepare (hinv : s.Invariant) (admission : Admission)
    (probe : Slot → Except Error Binding) (admitAt rejectAt : Reading) :
    Advances (Records s₀ (.prepare admission probe admitAt rejectAt)) s
      (s.after (s.prepare admission probe admitAt rejectAt)) := by
  refine Advances.after hinv fun value s' h => ?_
  simp only [prepare, bind_eq_ok] at h
  obtain ⟨-, -, h⟩ := h
  split_ifs at h with hknown
  · simp only [bind_eq_ok, Except.ok.injEq, Prod.mk.injEq] at h
    obtain ⟨_, -, -, rfl⟩ := h
    exact .refl hinv
  · split at h
    · rename_i admitted fresh ledger hadmitted
      simp only [tryAdmit, bind_eq_ok] at hadmitted
      obtain ⟨slot, -, binding, -, hadmitted⟩ := hadmitted
      simp only [Except.ok.injEq, Prod.mk.injEq] at h
      obtain ⟨rfl, rfl⟩ := h
      refine Advances.of_silent hinv ?_ ?_
      · have hchanges : Ledger.Changes (fun event =>
            Records s₀ (.prepare admission probe admitAt rejectAt) event ∧ Silent event)
            s.ledger ledger := by
          refine Ledger.changes_of_admitPlan hinv.ledger.bound hadmitted
            ⟨⟨rfl, trivial⟩, trivial⟩ ?_
          intro found timing hfound
          exact ⟨⟨⟨hfound, rfl⟩, trivial⟩, trivial⟩
        split_ifs
        · simpa using hchanges
        · exact hchanges
      · intro id work hwork
        rcases Ledger.admitPlan_eq_ok hinv.ledger.bound hadmitted with
          ⟨rfl, -, -⟩ | ⟨rfl, -, -, timing, -, rfl, rfl⟩
        · exact .inl hwork
        · rcases queuePreparation_pending hwork with hbefore | ⟨rfl, hprepared⟩
          · exact .inl hbefore
          · refine .inr ⟨(Move.renew admission.lease timing).apply
              (Ledger.reservation admission.plan slot.id binding admitAt.wall), ?_,
              (by decide : State.prepared.Active)⟩
            simp
    · rename_i e hrefused
      split_ifs at h with hcaught
      simp only [bind_eq_ok, Prod.exists, Except.ok.injEq, Prod.mk.injEq] at h
      obtain ⟨rejected, ledger, hreject, rfl, rfl⟩ := h
      exact Advances.of_silent hinv (Ledger.changes_of_reject hreject ⟨⟨rfl, trivial⟩, trivial⟩)
        .inl

theorem advances_rejectAbsent (hinv : s.Invariant) (plan : Plan)
    (legacy : Option (Except Error (List (Binding × String)))) (now : Reading) :
    Advances (Records s₀ (.rejectAbsent plan legacy now)) s
      (s.after (s.rejectAbsent plan legacy now)) := by
  refine Advances.after hinv fun value s' h => ?_
  simp only [rejectAbsent, bind_eq_ok] at h
  obtain ⟨-, -, h⟩ := h
  split_ifs at h with hknown
  · simp only [bind_eq_ok, Except.ok.injEq, Prod.mk.injEq] at h
    obtain ⟨_, -, -, rfl⟩ := h
    exact .refl hinv
  · simp only [bind_eq_ok, Prod.exists, Except.ok.injEq, Prod.mk.injEq] at h
    obtain ⟨observed, -, rejected, ledger, hreject, rfl, rfl⟩ := h
    exact Advances.of_silent hinv (Ledger.changes_of_reject hreject ⟨⟨rfl, trivial⟩, trivial⟩)
        .inl

theorem advances_start (hinv : s.Invariant) (asked : Fence) (now : Reading) :
    Advances (Records s₀ (.start asked now)) s (s.after (s.start asked now)) := by
  refine Advances.after hinv fun value s' h => ?_
  simp only [start, bind_eq_ok, raiseIf_eq_ok, exists_const, Prod.exists, Except.ok.injEq,
    Prod.mk.injEq] at h
  obtain ⟨found, hfound, -, started, first, ledger, hstart, rfl, rfl⟩ := h
  have hbound := hinv.ledger.bound
  refine Advances.of_silent hinv ?_ ?_
  · exact Ledger.changes_of_startRequested hbound hstart fun found hfound =>
      ⟨⟨hbound.fence_of_fenced hfound, trivial⟩, trivial⟩
  · intro id work hwork
    obtain ⟨current, hcurrent, ⟨rfl, -, -, -⟩ | ⟨rfl, -, -, rfl, rfl⟩⟩ :=
      Ledger.startRequested_eq_ok hbound hstart
    · exact .inl hwork
    · -- The launch is queued for the attempt that has just become starting.
      simp only [if_true, Table.lookup_insert_eq] at hwork
      split_ifs at hwork with hid
      · refine .inr ⟨Move.start.apply current, ?_, (by decide : State.starting.Active)⟩
        rw [Ledger.get_perform, if_pos (hid.trans (hbound.fenced_attemptId hcurrent).symm)]
      · exact .inl hwork

theorem advances_renew (hinv : s.Invariant) (request : Renewal) (now : Reading) :
    Advances (Records s₀ (.renew request now)) s (s.after (s.renew request now)) := by
  refine Advances.after hinv fun value s' h => ?_
  simp only [renew, bind_eq_ok, raiseIf_eq_ok, exists_const, Prod.exists, Except.ok.injEq,
    Prod.mk.injEq] at h
  obtain ⟨found, -, -, renewed, ledger, hrenew, rfl, rfl⟩ := h
  have hbound := hinv.ledger.bound
  refine Advances.of_silent hinv (Ledger.changes_of_renew hbound hrenew ?_) .inl
  intro found timing hfound
  exact ⟨⟨⟨hbound.fence_of_fenced hfound, rfl⟩, trivial⟩, trivial⟩

theorem changes_stopAll {operation : Operation} {ledger ledger' : Ledger} (hl : ledger.Bound)
    {values : List Value} (h : stopAll ledger values = .ok ledger') :
    Ledger.Changes (fun event => Records s₀ operation event ∧ Silent event) ledger ledger' := by
  induction values generalizing ledger with
  | nil =>
    obtain rfl := Except.ok.inj h
    exact .refl
  | cons value values ih =>
    unfold stopAll at h
    split_ifs at h with hstop
    · simp only [bind_eq_ok, Prod.exists] at h
      obtain ⟨annotated, next, hannotate, hrest⟩ := h
      have hfirst : Ledger.Changes (fun event => Records s₀ operation event ∧ Silent event) ledger
          next := silent_annotate hl hannotate (by simp)
      exact hfirst.trans (ih (hfirst.bound hl) hrest)
    · exact ih hl h

theorem advances_setOffer (hinv : s.Invariant) (settings : OfferSettings) (control : Control)
    (expected : ℕ) :
    Advances (Records s₀ (.setOffer settings control expected)) s
      (s.commit (s.setOffer settings control expected)) := by
  refine Advances.commit hinv fun s' h => ?_
  simp only [setOffer, bind_eq_ok, Except.ok.injEq] at h
  obtain ⟨-, -, offered, hoffer, ledger, hstop, rfl⟩ := h
  refine Advances.of_silent hinv ?_ .inl
  have hfirst : Ledger.Changes (fun event =>
      Records s₀ (.setOffer settings control expected) event ∧ Silent event) s.ledger
      offered := Ledger.changes_of_saveOffer hoffer ⟨⟨trivial, trivial⟩, trivial⟩
  unfold applyControl at hstop
  split_ifs at hstop with hstopped
  · exact hfirst.trans (changes_stopAll (hfirst.bound hinv.ledger.bound) hstop)
  · obtain rfl := Except.ok.inj hstop
    exact hfirst

theorem advances_releaseBegin (hinv : s.Invariant) (asked : Fence) :
    Advances (Records s₀ (.releaseBegin asked)) s (s.after (s.releaseBegin asked)) := by
  refine Advances.after hinv fun value s' h => ?_
  simp only [releaseBegin, bind_eq_ok] at h
  obtain ⟨found, hfound, h⟩ := h
  split_ifs at h with hreleased hrejected
  · simp only [Except.ok.injEq, Prod.mk.injEq] at h
    obtain ⟨-, rfl⟩ := h
    exact .refl hinv
  · simp only [bind_eq_ok, Prod.exists, Except.ok.injEq, Prod.mk.injEq] at h
    obtain ⟨-, -, released, ledger, hrelease, rfl, rfl⟩ := h
    have hbound := hinv.ledger.bound
    exact Advances.of_silent hinv (Ledger.changes_of_release hbound hrelease fun found hfound =>
      ⟨⟨hbound.fence_of_fenced hfound, trivial⟩, trivial⟩) .inl
  · simp only [bind_eq_ok, Except.ok.injEq, Prod.mk.injEq] at h
    obtain ⟨-, -, -, -, rfl, rfl⟩ := h
    exact (Advances.refl hinv).congr rfl rfl

theorem advances_releaseEnd (hinv : s.Invariant) (asked : Fence) (cleaned : Bool) :
    Advances (Records s₀ (.releaseEnd asked cleaned)) s (s.releaseEnd asked cleaned) := by
  unfold releaseEnd
  split
  · exact .refl hinv
  · simp only
    split
    · rename_i ledger hreleased
      simp only [bind_eq_ok] at hreleased
      obtain ⟨-, -, current, -, -, -, hmap⟩ := hreleased
      obtain ⟨⟨released, next⟩, hrelease, rfl⟩ := map_eq_ok.mp hmap
      have hbound := hinv.ledger.bound
      exact Advances.of_silent hinv (Ledger.changes_of_release hbound hrelease fun found hfound =>
        ⟨⟨hbound.fence_of_fenced hfound, trivial⟩, trivial⟩) .inl
    · exact (Advances.refl hinv).congr rfl rfl

/-- An annotation after which preparation may be queued. -/
theorem advances_annotate_queue {operation : Operation} (hinv : s.Invariant) {asked : Fence}
    {fields : List AnnotatedField} {ledger : Ledger}
    (h : s.ledger.annotate asked fields = .ok (value, ledger))
    (hfields : .payloadReleased true ∉ fields) :
    Advances (Records s₀ operation) s (({ s with ledger } : Supervisor).queuePreparation value) := by
  have hbound := hinv.ledger.bound
  refine Advances.of_silent hinv ?_ ?_
  · rw [queuePreparation_ledger]
    exact silent_annotate hbound h hfields
  · intro id work hwork
    rcases queuePreparation_pending hwork with hbefore | ⟨rfl, hprepared⟩
    · exact .inl hbefore
    · refine .inr ⟨value, ?_, ?_⟩
      · obtain ⟨found, -, rfl, rfl⟩ := Ledger.annotate_eq_ok hbound h
        rw [queuePreparation_ledger]
        simp
      · rw [hprepared]
        exact (by decide : State.prepared.Active)

/-- A stop request is recorded, and the attempt is cleaned up unless pool work is under way. -/
theorem advances_requestStop {operation : Operation} (hinv : s.Invariant) (asked : Fence)
    (reason : String) {cleanup : Cleanup} (hcleanup : cleanup ∈ operation.cleanups asked.attemptId) :
    Advances (Records s₀ operation) s (s.requestStop asked reason cleanup).1 := by
  have hbound := hinv.ledger.bound
  have hcleanups : ∀ other ∈ [cleanup], other ∈ operation.cleanups asked.attemptId :=
    List.forall_mem_singleton.mpr hcleanup
  unfold requestStop
  cases hfenced : s.ledger.fenced asked with
  | error e => exact .refl hinv
  | ok value =>
    have hget : s.ledger.get asked.attemptId = some value := (Ledger.fenced_eq_ok.mp hfenced).1
    have hid : value.plan.attemptId = asked.attemptId := hbound.fenced_attemptId hfenced
    simp only
    by_cases hdone : value.state ∈ TERMINAL ∨ value.state = .released ∨
        (value.state = .unknown ∧ value.cleanupConfirmed = true)
    · rw [if_pos hdone]
      exact .refl hinv
    rw [if_neg hdone]
    rw [not_or] at hdone
    -- The record after the request differs from the one before it in the request only.
    have hfinished : ∀ ledger found,
        Ledger.Changes (CleansBy [cleanup] asked.attemptId) s.ledger ledger →
        ledger.Invariant → ledger.get asked.attemptId = some found → UpToStop value found →
        s.pending.lookup asked.attemptId = none → ∀ next : Supervisor,
        ({ s with ledger } : Supervisor).finish value (some reason) cleanup = .ok next →
        Advances (Records s₀ operation) s next := by
      intro ledger found hchanges hledger hfound hsame hfree next hfinish
      obtain ⟨ledger', rfl, hcleans⟩ := finish_eq_ok (s := { s with ledger }) hledger
        (by rw [hid]; exact hfound) hsame hdone.1 hfinish
      rw [hid] at hcleans
      exact Advances.of_cleans hinv hcleanups hfree (hchanges.trans hcleans)
    split_ifs with hstate
    · cases hannotate : s.ledger.annotate asked [.pendingStop reason] with
      | error e => exact .refl hinv
      | ok result =>
        obtain ⟨annotated, ledger⟩ := result
        have hchanges : Ledger.Changes (CleansBy [cleanup] asked.attemptId) s.ledger ledger :=
          cleansBy_annotate hbound hannotate rfl (by simp)
        simp only [Except.map]
        split_ifs with hpending
        · exact Advances.of_silent hinv (silent_annotate hbound hannotate (by simp)) .inl
        · have hfree : s.pending.lookup asked.attemptId = none := by simpa using hpending
          obtain ⟨found, hfound, -, rfl⟩ := Ledger.annotate_eq_ok hbound hannotate
          obtain rfl := Except.ok.inj (hfenced.symm.trans hfound)
          split
          · exact Advances.of_cleans hinv hcleanups hfree hchanges
          · rename_i next hfinish
            refine hfinished _ _ hchanges (Ledger.Changes.invariant hinv.ledger hchanges) ?_
              ⟨some reason, rfl⟩ hfree next hfinish
            rw [Ledger.get_perform, if_pos hid.symm]
            rfl
    · simp only
      split_ifs with hpending
      · exact .refl hinv
      · have hfree : s.pending.lookup asked.attemptId = none := by simpa using hpending
        split
        · exact .refl hinv
        · rename_i next hfinish
          exact hfinished s.ledger value .refl hinv.ledger hget ⟨value.pendingStop, rfl⟩ hfree next
            hfinish

/-- The result of pool work is stored in the record of its attempt. -/
theorem advances_collectWork {operation : Operation} (hinv : s.Invariant)
    {result : Except Error Harvest} {now : Reading}
    (h : s.collectWork value result now = .ok s') : Advances (Records s₀ operation) s s' := by
  have hbound := hinv.ledger.bound
  simp only [collectWork, bind_eq_ok] at h
  obtain ⟨harvested, -, -, -, h⟩ := h
  cases harvested with
  | prepared runtime =>
    simp only [bind_eq_ok, Prod.exists, Except.ok.injEq] at h
    obtain ⟨annotated, ledger, hannotate, rfl⟩ := h
    exact Advances.of_silent hinv (silent_annotate hbound hannotate (by simp)) .inl
  | initialized progress =>
    simp only [bind_eq_ok, Prod.exists, Except.ok.injEq] at h
    obtain ⟨annotated, ledger, hannotate, rfl⟩ := h
    exact advances_annotate_queue hinv hannotate (by simp)
  | done =>
    obtain rfl := Except.ok.inj h
    exact .refl hinv

theorem advances_harvest {operation : Operation} (hinv : s.Invariant) (id : Identity)
    (result : Except Error Harvest) (now : Reading) {cleanup : Cleanup}
    (hcleanup : cleanup ∈ operation.cleanups id) :
    Advances (Records s₀ operation) s (s.harvest id result now cleanup) := by
  unfold harvest
  split
  · rename_i work value hwork hget
    -- The attempt leaves the pool first, so that it may be cleaned up.
    have herased : ({ s with pending := s.pending.erase id } : Supervisor).Invariant := by
      refine ⟨hinv.ledger, fun {other work'} hother => ?_, hinv.offered⟩
      by_cases hsame : other = id
      · subst hsame
        rw [AList.lookup_erase] at hother
        cases hother
      · rw [AList.lookup_erase_ne hsame] at hother
        exact hinv.pending hother
    obtain ⟨found, hfound, hactive⟩ := hinv.pending hwork
    obtain rfl := Option.some.inj (hfound.symm.trans hget)
    have hid : found.plan.attemptId = id := hinv.ledger.bound.key hget
    simp only
    split
    · rename_i next hcollect
      have hadvances : Advances (Records s₀ operation) _ next := advances_collectWork herased hcollect
      exact ⟨hadvances.changes, hadvances.pending⟩
    · rename_i e hcollect
      obtain ⟨ledger, heq, hchanges⟩ := commit_finish { s with pending := s.pending.erase id }
        hinv.ledger _ _ (by rw [hid]; exact hget) ⟨found.pendingStop, rfl⟩ hactive.not_terminal
      rw [heq]
      rw [hid] at hchanges
      have hadvances : Advances (Records s₀ operation) _ _ := Advances.of_cleans herased
        (List.forall_mem_singleton.mpr hcleanup) (AList.lookup_erase _ _) hchanges
      exact ⟨hadvances.changes, hadvances.pending⟩
  · exact .refl hinv

/-- Reacting to a sighting cleans the attempt up or queues a barrier for it. -/
theorem advances_observe {operation : Operation} (hinv : s.Invariant)
    (hget : s.ledger.get value.plan.attemptId = some value) (hactive : value.state.Active)
    (hfree : s.pending.lookup value.plan.attemptId = none) {sighting : Sighting}
    {cleanup : Cleanup} (hcleanup : cleanup ∈ operation.cleanups value.plan.attemptId)
    (h : s.observe value sighting cleanup = .ok s') : Advances (Records s₀ operation) s s' := by
  have hfinish : ∀ reason, s.finish value reason cleanup = .ok s' →
      Advances (Records s₀ operation) s s' := by
    intro reason hreason
    obtain ⟨ledger, rfl, hchanges⟩ := finish_eq_ok hinv.ledger hget ⟨value.pendingStop, rfl⟩
      hactive.not_terminal hreason
    exact Advances.of_cleans hinv (List.forall_mem_singleton.mpr hcleanup) hfree hchanges
  have hqueue : ∀ work, Advances (Records s₀ operation) s
      { s with pending := s.pending.insert value.plan.attemptId work } := by
    intro work
    refine Advances.of_silent hinv .refl fun {id found} hfound => ?_
    rw [Table.lookup_insert_eq] at hfound
    split_ifs at hfound with hid
    · exact .inr ⟨value, hid ▸ hget, hactive⟩
    · exact .inl hfound
  cases sighting with
  | finished => exact hfinish none h
  | gone => exact hfinish _ h
  | ready approved =>
    simp only [observe] at h
    split_ifs at h with hreleased
    · obtain rfl := Except.ok.inj h
      exact .refl hinv
    · simp only [bind_eq_ok, raiseIf_eq_ok, exists_const, Except.ok.injEq] at h
      obtain ⟨-, rfl⟩ := h
      exact hqueue .engineBarrier
  | payload =>
    simp only [observe] at h
    split_ifs at h with hreleased
    · obtain rfl := Except.ok.inj h
      exact .refl hinv
    · obtain rfl := Except.ok.inj h
      exact hqueue .payloadBarrier
  | quiet =>
    obtain rfl := Except.ok.inj h
    exact .refl hinv
  | failed => cases h

theorem advances_tick {operation : Operation} (hinv : s.Invariant) (id : Identity) (now : Reading)
    (sighting : Sighting) {cleanup retry : Cleanup} (hcleanup : cleanup ∈ operation.cleanups id)
    (hretry : retry ∈ operation.cleanups id) :
    Advances (Records s₀ operation) s (s.tick id now sighting cleanup retry) := by
  have hbound := hinv.ledger.bound
  unfold tick
  split
  · exact .refl hinv
  rename_i value hfind
  obtain ⟨hget, hheld⟩ := hbound.get_of_mem_retained (List.mem_of_find?_eq_some hfind)
  have hid : value.plan.attemptId = id := by simpa using List.find?_some hfind
  have hnone : value.state = .unknown ∨ value.state.Active →
      s.pending.lookup id = none → ∀ reason, ∀ again ∈ operation.cleanups id,
      Advances (Records s₀ operation) s (s.commit (s.finish value reason again)) := by
    intro hstate hfree reason again hagain
    have hterminal : value.state ∉ TERMINAL := by
      rcases hstate with hunknown | hactive
      · rw [hunknown]
        decide
      · exact hactive.not_terminal
    obtain ⟨ledger, heq, hchanges⟩ := commit_finish s hinv.ledger reason again hget
      ⟨value.pendingStop, rfl⟩ hterminal
    rw [heq]
    rw [hid] at hchanges
    exact Advances.of_cleans hinv (List.forall_mem_singleton.mpr hagain) hfree hchanges
  simp only
  by_cases hunknown : value.state = .unknown ∧ value.cleanupConfirmed = false
  · rw [if_pos hunknown]
    refine hnone (.inl hunknown.1) ?_ _ _ hcleanup
    -- An uncertain outcome is an outcome, so no pool work is under way.
    by_contra hpending
    obtain ⟨work, hwork⟩ := Option.ne_none_iff_exists'.mp hpending
    obtain ⟨found, hfound, hactive⟩ := hinv.pending hwork
    obtain rfl := Option.some.inj (hfound.symm.trans (hid ▸ hget))
    rw [hunknown.1] at hactive
    revert hactive
    decide
  rw [if_neg hunknown]
  by_cases hdone : value.state ∈ TERMINAL ∨ value.state = .released ∨ value.state = .unknown
  · rw [if_pos hdone]
    exact .refl hinv
  rw [if_neg hdone]
  rw [not_or, not_or] at hdone
  have hactive : value.state.Active :=
    State.active_of_reported (hinv.ledger.reports hget) hdone.1 hdone.2.1 hdone.2.2
  split
  · rename_i e hcurrent
    split
    · exact .refl hinv
    rename_i annotated ledger hannotate
    have hchanges : Ledger.Changes (CleansBy [cleanup] id) s.ledger ledger :=
      cleansBy_annotate hbound hannotate hid (by simp)
    split_ifs with hpending
    · exact Advances.of_silent hinv (silent_annotate hbound hannotate (by simp)) .inl
    · have hfree : s.pending.lookup id = none := by simpa using hpending
      have hledger := Ledger.Changes.invariant hinv.ledger hchanges
      obtain ⟨found, hfound, -, hperform⟩ := Ledger.annotate_eq_ok hbound hannotate
      obtain rfl := Option.some.inj (hget.symm.trans (Ledger.fenced_eq_ok.mp hfound).1)
      have hrecord : ledger.get value.plan.attemptId = some ((Move.annotate
          [.pendingStop (stopReason value e "expired")]).apply value) := by
        rw [hperform, Ledger.get_perform, if_pos rfl]
      obtain ⟨ledger', heq, hcleans⟩ := commit_finish { s with ledger } hledger
        (some (stopReason value e "expired")) cleanup hrecord
        ⟨_, rfl⟩ hactive.not_terminal
      rw [heq]
      rw [hid] at hcleans
      exact Advances.of_cleans hinv (List.forall_mem_singleton.mpr hcleanup) hfree
        (hchanges.trans hcleans)
  · split_ifs with hwait
    · exact .refl hinv
    rw [not_or] at hwait
    have hfree : s.pending.lookup id = none := by simpa using hwait.1
    split
    · rename_i next hobserve
      rw [← hid] at hfree hcleanup
      exact advances_observe hinv hget hactive hfree hcleanup hobserve
    · exact hnone (.inr hactive) hfree _ _ hretry

theorem advances_barrierStarted (hinv : s.Invariant) (asked : Fence) (inspected : String)
    (now : Reading) :
    Advances (Records s₀ (.barrierStarted asked inspected now)) s
      (s.commit (s.barrierStarted asked inspected now)) := by
  refine Advances.commit hinv fun s' h => ?_
  simp only [barrierStarted, bind_eq_ok, Except.ok.injEq] at h
  obtain ⟨-, -, -, -, ledger, hstarted, rfl⟩ := h
  exact Advances.of_silent hinv (Ledger.changes_of_started hinv.ledger.bound hstarted
    fun _ => ⟨⟨trivial, trivial⟩, trivial⟩) .inl

/-- A payload is released by the action that releases its barrier. -/
theorem advances_barrierReleased (hinv : s.Invariant) (asked : Fence) (now : Reading) :
    Advances (Records s (.barrierReleased asked now)) s
      (s.commit (s.barrierReleased asked now)) := by
  have hbound := hinv.ledger.bound
  refine Advances.commit hinv fun s' hcommitted => ?_
  have h := hcommitted
  simp only [barrierReleased, bind_eq_ok, orRaise_eq_ok, Prod.exists, Except.ok.injEq] at h
  obtain ⟨work, hwork, -, -, checked, -, annotated, ledger, hannotate, rfl⟩ := h
  refine Advances.of_silent hinv (Ledger.changes_of_annotate hbound hannotate
    fun found hfound => ⟨⟨trivial, fun hreleases => ?_⟩, trivial⟩) .inl
  have hid : found.plan.attemptId = asked.attemptId := hbound.fenced_attemptId hfound
  by_cases hpayload : work = .payloadBarrier
  · exact ⟨asked, now, _, rfl, hid.symm, by rw [hid, hwork, hpayload], hcommitted⟩
  · rw [if_neg hpayload] at hreleases
    simp at hreleases

theorem advances_inputBegin (hinv : s.Invariant) (asked : Fence) (object : Identity)
    (offset length : ℕ) (now : Reading) :
    Advances (Records s₀ (.inputBegin asked object offset length now)) s
      (s.commit (s.inputBegin asked object offset length now)) := by
  refine Advances.commit hinv fun s' h => ?_
  simp only [inputBegin, bind_eq_ok, raiseIf_eq_ok, exists_const, Prod.exists] at h
  obtain ⟨_, item, receipt, -, -, -, -, h⟩ := h
  split_ifs at h with hcomplete
  · obtain rfl := Except.ok.inj h
    exact .refl hinv
  · obtain rfl := Except.ok.inj h
    exact (Advances.refl hinv).congr rfl rfl

theorem advances_inputEnd {operation : Operation} (hinv : s.Invariant) (asked : Fence)
    (object : Identity) (saved : Except Error Receipt) (now : Reading) (failure : String)
    {cleanup : Cleanup} (hcleanup : cleanup ∈ operation.cleanups asked.attemptId) :
    Advances (Records s₀ operation) s (s.inputEnd asked object saved now failure cleanup) := by
  unfold inputEnd
  by_cases hbusy : asked.attemptId ∉ s.inputBusy
  · rw [if_pos hbusy]
    exact .refl hinv
  rw [if_neg hbusy]
  simp only
  split
  · rename_i next hcommit
    simp only [inputCommit, bind_eq_ok, Prod.exists, Except.ok.injEq] at hcommit
    obtain ⟨receipt, -, current, item, before, -, annotated, ledger, hannotate, rfl⟩ := hcommit
    exact (advances_annotate_queue hinv hannotate (by simp)).congr rfl rfl
  · split
    · exact (Advances.refl hinv).congr rfl rfl
    · rename_i current hcurrent
      exact (advances_requestStop hinv asked _ hcleanup).congr rfl rfl

/-- A cleanup touches no other attempt. -/
theorem get_of_cleans {ledger ledger' : Ledger}
    (h : Ledger.Changes (CleansBy tried id) ledger ledger') {other : Identity}
    (hne : other ≠ id) :
    ledger'.get other = ledger.get other := by
  induction h with
  | refl => rfl
  | tail hfirst hlast ih =>
    rw [← ih]
    cases hlast with
    | offer offer permitted => exact permitted.1.elim
    | reserve plan slot binding now offer absent admits permitted => exact permitted.1.elim
    | reject plan now observation absent unblocked permitted => exact permitted.1.elim
    | move moved old move found allowed permitted =>
      have hid : old.plan.attemptId = id := by
        cases move with
        | annotate fields => exact permitted.1
        | finish result => exact permitted.1.1
        | _ => exact permitted.1.elim
      rw [Ledger.get_perform, if_neg (hid ▸ hne)]

/-- The recovery after a restart cleans up one attempt after the other. -/
theorem changes_recoverAll (operation : Operation) (s : Supervisor) (hinv : s.ledger.Invariant)
    (cleanup : Identity → Cleanup) (hcleanup : ∀ id, cleanup id ∈ operation.cleanups id)
    {values : List Value}
    (hnodup : (values.map fun value => value.plan.attemptId).Nodup)
    (hcurrent : ∀ value ∈ values, s.ledger.get value.plan.attemptId = some value) :
    (s.recoverAll cleanup values).pending = s.pending ∧
      Ledger.Changes (Records s₀ operation) s.ledger (s.recoverAll cleanup values).ledger := by
  induction values generalizing s with
  | nil => exact ⟨rfl, .refl⟩
  | cons value values ih =>
    rw [List.map_cons, List.nodup_cons] at hnodup
    have hrest : ∀ other ∈ values, s.ledger.get other.plan.attemptId = some other :=
      fun other hother => hcurrent other (List.mem_cons_of_mem _ hother)
    unfold recoverAll
    by_cases hclean : value.state ∉ TERMINAL ∧ value.cleanupConfirmed = false
    · rw [if_pos hclean]
      split
      · rename_i next hfinish
        obtain ⟨ledger, rfl, hcleans⟩ := finish_eq_ok hinv
          (hcurrent value List.mem_cons_self) ⟨value.pendingStop, rfl⟩ hclean.1 hfinish
        have hafter : ∀ other ∈ values, ledger.get other.plan.attemptId = some other := by
          intro other hother
          have hne : other.plan.attemptId ≠ value.plan.attemptId := by
            intro hsame
            exact hnodup.1 (hsame ▸ List.mem_map_of_mem (f := fun v : Value => v.plan.attemptId) hother)
          rw [get_of_cleans hcleans hne]
          exact hrest other hother
        have hlater := ih { s with ledger } (Ledger.Changes.invariant hinv hcleans) hnodup.2 hafter
        refine ⟨hlater.1, Relation.ReflTransGen.trans (hcleans.mono fun _ => ?_) hlater.2⟩
        exact records_of_cleansBy (List.forall_mem_singleton.mpr (hcleanup _))
      · exact ⟨rfl, .refl⟩
    · rw [if_neg hclean]
      exact ih s hinv hnodup.2 hrest

theorem advances_restart (hinv : s.Invariant) (settings : Settings)
    (cleanup : Identity → Cleanup) :
    Advances (Records s₀ (.restart settings cleanup)) s
      (s.commit (s.restart settings cleanup)) := by
  refine Advances.commit hinv fun s' h => ?_
  simp only [restart, bind_eq_ok, Except.ok.injEq] at h
  obtain ⟨reopened, hreopen, ledger, hoffer, offer, -, -, -, -, -, rfl⟩ := h
  simp only [Ledger.reopen, bind_eq_ok, raiseIf_eq_ok, exists_const, Except.ok.injEq] at hreopen
  obtain ⟨-, rfl⟩ := hreopen
  rw [ensureOffer, if_neg hinv.offered] at hoffer
  obtain rfl := Except.ok.inj hoffer
  have hbound := hinv.ledger.bound
  obtain ⟨hpending, hrecover⟩ := changes_recoverAll (.restart settings cleanup)
    (opened settings s.ledger) hinv.ledger cleanup (fun id => List.mem_singleton_self _)
    hbound.nodup_retained fun value hvalue => (hbound.get_of_mem_retained hvalue).1
  refine ⟨hrecover, fun {id work} hwork => ?_⟩
  have hempty : (opened settings s.ledger).pending.lookup id = some work := hpending ▸ hwork
  cases hempty

theorem advances_recoverStorage (hinv : s.Invariant) (settings : Settings) (asked : Fence)
    (expectedGeneration : ℕ) (verified : Except Error Binding) (observedAt : ℚ) :
    Advances (Records s₀ (.recoverStorage settings asked expectedGeneration verified observedAt)) s
      (s.commit (s.recoverStorage settings asked expectedGeneration verified observedAt)) := by
  have hbound := hinv.ledger.bound
  refine Advances.commit hinv fun s' h => ?_
  simp only [recoverStorage, bind_eq_ok, Prod.exists, Except.ok.injEq] at h
  obtain ⟨reopened, hreopen, value, -, slot, -, before, -, -, -, binding, -, -, -, recovered,
    ledger, hrecover, rfl⟩ := h
  simp only [Ledger.reopen, bind_eq_ok, raiseIf_eq_ok, exists_const, Except.ok.injEq] at hreopen
  obtain ⟨-, rfl⟩ := hreopen
  refine ⟨Ledger.changes_of_recoverStorage hbound hrecover fun found hfound =>
    ⟨hbound.fence_of_fenced hfound, trivial⟩, fun {id work} hwork => ?_⟩
  cases hwork

/-- Every action changes the ledger only by events that are permitted to it and vouched for. -/
theorem records_step (hinv : s.Invariant) (operation : Operation) :
    Advances (Records s operation) s (s.step operation) := by
  cases operation with
  | prepare admission probe admitAt rejectAt =>
    exact advances_prepare hinv admission probe admitAt rejectAt
  | rejectAbsent plan legacy now => exact advances_rejectAbsent hinv plan legacy now
  | start asked now => exact advances_start hinv asked now
  | renew request now => exact advances_renew hinv request now
  | requestStop asked reason cleanup =>
    exact advances_requestStop hinv asked reason (by simp [Operation.cleanups])
  | releaseBegin asked => exact advances_releaseBegin hinv asked
  | releaseEnd asked cleaned => exact advances_releaseEnd hinv asked cleaned
  | setOffer settings control expected => exact advances_setOffer hinv settings control expected
  | harvest id result now cleanup =>
    exact advances_harvest hinv id result now (by simp [Operation.cleanups])
  | tick id now sighting cleanup retry =>
    exact advances_tick hinv id now sighting (by simp [Operation.cleanups])
      (by simp [Operation.cleanups])
  | barrierStarted asked inspected now => exact advances_barrierStarted hinv asked inspected now
  | barrierReleased asked now => exact advances_barrierReleased hinv asked now
  | inputBegin asked object offset length now =>
    exact advances_inputBegin hinv asked object offset length now
  | inputEnd asked object saved now failure cleanup =>
    exact advances_inputEnd hinv asked object saved now failure (by simp [Operation.cleanups])
  | restart settings cleanup => exact advances_restart hinv settings cleanup
  | recoverStorage settings asked expectedGeneration verified observedAt =>
    exact advances_recoverStorage hinv settings asked expectedGeneration verified observedAt

/-- Every operation writes only what it permits. -/
theorem advances_step (hinv : s.Invariant) (operation : Operation) :
    Advances operation.Permits s (s.step operation) where
  changes := (records_step hinv operation).changes.mono fun _ => And.left
  pending := (records_step hinv operation).pending

/-- Every write is vouched for. -/
theorem vouched_step (hinv : s.Invariant) (operation : Operation) :
    Ledger.Changes (Vouched s operation) s.ledger (s.step operation).ledger :=
  (records_step hinv operation).changes.mono fun _ => And.right

/-- A step keeps the invariant. -/
theorem invariant_step (s : Supervisor) (operation : Operation) (hinv : s.Invariant) :
    (s.step operation).Invariant :=
  (advances_step hinv operation).invariant hinv

theorem invariant_install (settings : Settings) (identity : Identity) :
    (install settings identity).Invariant where
  ledger := Ledger.Changes.invariant
    (Ledger.invariant_create settings.installationId identity)
    (Ledger.Change.offer settings.initialOffer trivial :
      Ledger.Change Ledger.Anything _ _).changes
  pending h := by cases h
  offered := Option.some_ne_none _

end Actions

end Supervisor

end Ficc.Execution
