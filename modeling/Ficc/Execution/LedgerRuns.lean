import Ficc.Foundations.Transition
import Ficc.Execution.Changes

/-!
# Runs of the ledger

The ledger as a machine whose actions are its operations, with any arguments. In every run from
an empty ledger an attempt only moves forward, its start is granted at most once, and the
unreleased attempt of a job is alone and the newest.
-/

namespace Ficc.Execution

variable [Hash Plan]

/-- A call of a ledger operation. -/
inductive Ledger.Operation
  | reserve (plan : Plan) (slot : String) (binding : Binding) (now : ℚ)
  | admitPlan (admission : Admission) (slot : String) (binding : Binding) (now : Reading)
    (maximumSeconds : ℚ)
  | reject (plan : Plan) (now : ℚ) (observation : Option (List (Binding × String)))
  | renew (request : Renewal) (now : Reading) (maximumSeconds : ℚ)
  | startRequested (fence : Fence) (now : Reading)
  | started (fence : Fence) (binding : String)
  | finish (result : AttemptResult)
  | release (fence : Fence)
  | recoverStorage (fence : Fence) (before : Option Binding) (binding : Binding) (observedAt : ℚ)
  | annotate (fence : Fence) (fields : List AnnotatedField)
  | saveOffer (offer : Offer) (expected : ℕ)
  | reopen (installation : Identity)

namespace Ledger

/-- The ledger that an operation commits. -/
def call (ledger : Ledger) : Operation → Except Error Ledger
  | .reserve plan slot binding now => (ledger.reserve plan slot binding now).map Prod.snd
  | .admitPlan admission slot binding now maximumSeconds =>
    (ledger.admitPlan admission slot binding now maximumSeconds).map Prod.snd
  | .reject plan now observation => (ledger.reject plan now observation).map Prod.snd
  | .renew request now maximumSeconds => (ledger.renew request now maximumSeconds).map Prod.snd
  | .startRequested fence now => (ledger.startRequested fence now).map Prod.snd
  | .started fence binding => ledger.started fence binding
  | .finish result => ledger.finish result
  | .release fence => (ledger.release fence).map Prod.snd
  | .recoverStorage fence before binding observedAt =>
    (ledger.recoverStorage fence before binding observedAt).map Prod.snd
  | .annotate fence fields => (ledger.annotate fence fields).map Prod.snd
  | .saveOffer offer expected => ledger.saveOffer offer expected
  | .reopen installation => ledger.reopen installation

/-- An operation that raises is rolled back. -/
def step (ledger : Ledger) (operation : Operation) : Ledger :=
  match ledger.call operation with
  | .ok next => next
  | .error _ => ledger

/-- The attempt whose start the operation grants, which is when `start_requested` returns
`True`. -/
def granted (ledger : Ledger) : Operation → Option Identity
  | .startRequested fence now =>
    match ledger.startRequested fence now with
    | .ok ((_, true), _) => some fence.attemptId
    | _ => none
  | _ => none

/-- The starts granted in a run, in order. -/
def grants (ledger : Ledger) : List Operation → List Identity
  | [] => []
  | operation :: operations =>
    (ledger.granted operation).toList ++ grants (ledger.step operation) operations

/-- Any event may happen. -/
def Anything : Event → Prop := fun _ => True

/-- The operation may give an attempt a lease. -/
def Operation.Renews : Operation → Prop
  | .admitPlan _ _ _ _ _ => True
  | .renew _ _ _ => True
  | _ => False

variable {ledger ledger' : Ledger}

/-- An operation that returns makes changes, and only a renewal or an admission gives a lease. -/
theorem changes_of_call_of (hl : ledger.Bound) {operation : Operation} {permits : Event → Prop}
    (hpermits : ∀ event : Event, (event.Renews → operation.Renews) → permits event)
    (h : ledger.call operation = .ok ledger') : Changes permits ledger ledger' := by
  cases operation with
  | reserve plan slot binding now =>
    obtain ⟨⟨value, next⟩, hreserve, rfl⟩ := map_eq_ok.mp h
    exact changes_of_reserve hreserve (hpermits _ False.elim)
  | admitPlan admission slot binding now maximumSeconds =>
    obtain ⟨⟨⟨value, fresh⟩, next⟩, hadmitted, rfl⟩ := map_eq_ok.mp h
    exact changes_of_admitPlan hl hadmitted (hpermits _ fun _ => trivial)
      fun _ _ _ => hpermits _ fun _ => trivial
  | reject plan now observation =>
    obtain ⟨⟨value, next⟩, hreject, rfl⟩ := map_eq_ok.mp h
    exact changes_of_reject hreject (hpermits _ False.elim)
  | renew request now maximumSeconds =>
    obtain ⟨⟨value, next⟩, hrenew, rfl⟩ := map_eq_ok.mp h
    exact changes_of_renew hl hrenew fun _ _ _ => hpermits _ fun _ => trivial
  | startRequested fence now =>
    obtain ⟨⟨⟨value, first⟩, next⟩, hstart, rfl⟩ := map_eq_ok.mp h
    exact changes_of_startRequested hl hstart fun _ _ => hpermits _ False.elim
  | started fence binding => exact changes_of_started hl h fun _ => hpermits _ False.elim
  | finish result => exact changes_of_finish hl h fun _ _ => hpermits _ False.elim
  | release fence =>
    obtain ⟨⟨value, next⟩, hrelease, rfl⟩ := map_eq_ok.mp h
    exact changes_of_release hl hrelease fun _ _ => hpermits _ False.elim
  | recoverStorage fence before binding observedAt =>
    obtain ⟨⟨value, next⟩, hrecover, rfl⟩ := map_eq_ok.mp h
    exact changes_of_recoverStorage hl hrecover fun _ _ => hpermits _ False.elim
  | annotate fence fields =>
    obtain ⟨⟨value, next⟩, hannotate, rfl⟩ := map_eq_ok.mp h
    exact changes_of_annotate hl hannotate fun _ _ => hpermits _ False.elim
  | saveOffer offer expected => exact changes_of_saveOffer h (hpermits _ False.elim)
  | reopen installation =>
    simp only [call, reopen, bind_eq_ok, raiseIf_eq_ok, exists_const, Except.ok.injEq] at h
    obtain ⟨-, rfl⟩ := h
    exact .refl

/-- An operation that returns makes changes. -/
theorem changes_of_call (hl : ledger.Bound) {operation : Operation}
    (h : ledger.call operation = .ok ledger') : Changes Anything ledger ledger' :=
  changes_of_call_of hl (fun _ _ => trivial) h

theorem changes_step (hl : ledger.Bound) (operation : Operation) :
    Changes Anything ledger (ledger.step operation) := by
  unfold step
  cases hcall : ledger.call operation with
  | ok next => exact changes_of_call hl hcall
  | error e => exact .refl

section Invariant

/-- What every run keeps. -/
structure Invariant (ledger : Ledger) : Prop where
  bound : ledger.Bound
  exclusive : ledger.Exclusive
  reports : ∀ {id : Identity} {value : Value}, ledger.get id = some value → value.state.Reported

theorem invariant_create (installation identity : Identity) :
    (create installation identity).Invariant where
  bound := bound_create installation identity
  exclusive h := by simp [create, get] at h
  reports h := by simp [create, get] at h

theorem Inserted.reported {permits : Event → Prop} {value : Value}
    (h : Inserted permits ledger value) : value.state.Reported := by
  cases h with
  | reserved => exact (by decide : State.prepared.Reported)
  | rejected plan now observation =>
    cases observation with
    | none => exact (by decide : State.failed.Reported)
    | some observed => exact (by decide : State.unknown.Reported)

omit [Hash Plan] in
theorem Evolves.reported {permits : Event → Prop} {value value' : Value}
    (h : Evolves permits value value') (hreported : value.state.Reported) :
    value'.state.Reported := by
  rcases h with rfl | ⟨move, -, -, rfl⟩
  · exact hreported
  · exact Move.reported_apply hreported

theorem Changes.invariant {permits : Event → Prop} (hinv : ledger.Invariant)
    (h : Changes permits ledger ledger') : ledger'.Invariant := by
  induction h with
  | refl => exact hinv
  | tail _ hlast ih =>
    refine ⟨hlast.bound ih.bound, hlast.exclusive ih.bound ih.exclusive, ?_⟩
    intro id value hget
    rcases hlast.backward ih.bound hget with ⟨old, hold, hevolves⟩ | ⟨-, hinserted, -⟩
    · exact hevolves.reported (ih.reports hold)
    · exact hinserted.reported

theorem invariant_step (ledger : Ledger) (operation : Operation) (hinv : ledger.Invariant) :
    (ledger.step operation).Invariant :=
  (changes_step hinv.bound operation).invariant hinv

end Invariant

section Runs

/-- Every attempt of the first ledger is still there in the second, and no earlier in its life. -/
def Grows (ledger ledger' : Ledger) : Prop :=
  ∀ {id : Identity} {value : Value}, ledger.get id = some value →
    ∃ value', ledger'.get id = some value' ∧ value.state.rank ≤ value'.state.rank

omit [Hash Plan] in
theorem Grows.refl (ledger : Ledger) : Grows ledger ledger :=
  fun {_ value} hget => ⟨value, hget, le_refl _⟩

omit [Hash Plan] in
theorem Grows.trans {first second third : Ledger} (h₁ : Grows first second)
    (h₂ : Grows second third) : Grows first third := by
  intro id value hget
  obtain ⟨value₂, hget₂, hrank₂⟩ := h₁ hget
  obtain ⟨value₃, hget₃, hrank₃⟩ := h₂ hget₂
  exact ⟨value₃, hget₃, hrank₂.trans hrank₃⟩

theorem Changes.grows {permits : Event → Prop} (hl : ledger.Bound)
    (h : Changes permits ledger ledger') : Grows ledger ledger' := by
  induction h with
  | refl => exact Grows.refl ledger
  | tail hfirst hlast ih =>
    refine ih.trans fun {id value} hget => ?_
    obtain ⟨value', hget', hevolves⟩ := hlast.forward (Changes.bound hl hfirst) hget
    exact ⟨value', hget', hevolves.rank_le⟩

theorem grows_step (ledger : Ledger) (operation : Operation) (hinv : ledger.Invariant) :
    Grows ledger (ledger.step operation) :=
  (changes_step hinv.bound operation).grows hinv.bound

/-- A granted start finds the attempt prepared and leaves it starting. -/
theorem granted_eq_some (hl : ledger.Bound) {operation : Operation} {id : Identity}
    (h : ledger.granted operation = some id) :
    (∃ value, ledger.get id = some value ∧ value.state = .prepared) ∧
      ∃ value', (ledger.step operation).get id = some value' ∧ value'.state = .starting := by
  cases operation with
  | startRequested fence now =>
    simp only [granted] at h
    split at h
    · rename_i value next hstart
      obtain rfl := Option.some.inj h
      obtain ⟨found, hfence, ⟨hfalse, -⟩ | ⟨-, hprepared, -, rfl, rfl⟩⟩ :=
        startRequested_eq_ok hl hstart
      · cases hfalse
      · have hstep : ledger.step (.startRequested fence now) = ledger.perform found .start := by
          simp only [step, call, hstart, Except.map]
        refine ⟨⟨found, (fenced_eq_ok.mp hfence).1, hprepared⟩, Move.start.apply found, ?_, rfl⟩
        rw [hstep, get_perform, if_pos (hl.fenced_attemptId hfence).symm]
    · cases h
  | _ => cases h

/-- Every granted start finds its attempt unknown to the ledger so far, or still prepared. -/
theorem rank_eq_zero_of_mem_grants (hinv : ledger.Invariant) {operations : List Operation}
    {id : Identity} (h : id ∈ ledger.grants operations) {value : Value}
    (hget : ledger.get id = some value) : value.state.rank = 0 := by
  induction operations generalizing ledger value with
  | nil => cases h
  | cons operation operations ih =>
    rcases List.mem_append.mp h with hnow | hlater
    · have hgranted : ledger.granted operation = some id := by simpa using hnow
      obtain ⟨⟨found, hfound, hprepared⟩, -⟩ := granted_eq_some hinv.bound hgranted
      obtain rfl := Option.some.inj (hget.symm.trans hfound)
      rw [hprepared]
      rfl
    · obtain ⟨value', hget', hrank⟩ := grows_step ledger operation hinv hget
      have hzero := ih (invariant_step ledger operation hinv) hlater hget'
      omega

/-- No start is granted twice. -/
theorem nodup_grants (hinv : ledger.Invariant) (operations : List Operation) :
    (ledger.grants operations).Nodup := by
  induction operations generalizing ledger with
  | nil => exact List.nodup_nil
  | cons operation operations ih =>
    have hinv' := invariant_step ledger operation hinv
    refine List.nodup_append.mpr ⟨by cases ledger.granted operation <;> simp, ih hinv', ?_⟩
    rintro id hnow other hlater rfl
    have hgranted : ledger.granted operation = some id := by simpa using hnow
    obtain ⟨-, value, hget, hstarting⟩ := granted_eq_some hinv.bound hgranted
    -- Once granted, the attempt is starting, and it never becomes prepared again.
    have hzero := rank_eq_zero_of_mem_grants hinv' hlater hget
    rw [hstarting] at hzero
    cases hzero

/-- In every run of the ledger an attempt only moves forward, a start is granted at most once for
each attempt, and an unreleased attempt is the only one of its job and the newest. -/
theorem forward_once_exclusive (installation identity : Identity) (operations : List Operation) :
    let ledger := run step (create installation identity) operations
    (∀ (later : List Operation) (id : Identity) (value : Value), ledger.get id = some value →
      value.state.Reported ∧ ∃ value', (run step ledger later).get id = some value' ∧
        value'.state.Reported ∧ value.state.rank ≤ value'.state.rank) ∧
    ((create installation identity).grants operations).Nodup ∧
    ∀ (id other : Identity) (value value' : Value), ledger.get id = some value →
      value.state ≠ .released → ledger.get other = some value' → other ≠ id →
      value'.plan.jobId = value.plan.jobId →
      value'.state = .released ∧ value'.plan.generation < value.plan.generation := by
  intro ledger
  have hinv : ledger.Invariant :=
    run_invariant invariant_step (invariant_create installation identity) operations
  refine ⟨?_, nodup_grants (invariant_create installation identity) operations, ?_⟩
  · intro later id value hget
    have hlater := run_invariant invariant_step hinv later
    obtain ⟨value', hget', hrank⟩ := run_relates Grows.refl Grows.trans invariant_step grows_step
      hinv later hget
    exact ⟨hinv.reports hget, value', hget', hlater.reports hget', hrank⟩
  · intro id other value value' hget hunreleased hother hne hjob
    exact ⟨Exclusive.released hinv.exclusive hget hother hne hjob hunreleased,
      hinv.exclusive hget hother hne hjob hunreleased⟩

/-- What is asked again about the attempt is answered from its record, and changes nothing. -/
structure Replays (ledger : Ledger) (value : Value) : Prop where
  reserve : ∀ slot binding now, ledger.reserve value.plan slot binding now = .ok (value, ledger)
  admitPlan : ∀ admission slot binding now maximumSeconds, admission.plan = value.plan →
    ledger.admitPlan admission slot binding now maximumSeconds = .ok ((value, false), ledger)
  reject : ∀ now observation, ledger.reject value.plan now observation = .ok (value, ledger)
  startRequested : value.state ≠ .prepared → ∀ now,
    ledger.startRequested value.plan.fence now = .ok ((value, false), ledger)
  release : value.state = .released → ledger.release value.plan.fence = .ok (value, ledger)

theorem Bound.replays (hl : ledger.Bound) {id : Identity} {value : Value}
    (hget : ledger.get id = some value) : ledger.Replays value := by
  rw [← hl.key hget] at hget
  have hfenced : ledger.fenced value.plan.fence = .ok value :=
    fenced_eq_ok.mpr ⟨hget, rfl, hl.digest hget⟩
  have hreserve slot binding now :
      ledger.reserve value.plan slot binding now = .ok (value, ledger) := by
    simp [Ledger.reserve, hget, hl.digest hget, raiseIf]
  refine ⟨hreserve, fun admission slot binding now maximumSeconds heq => ?_, fun now _ => ?_,
    fun hstate now => ?_, fun hstate => ?_⟩
  · simp [Ledger.admitPlan, heq, hreserve, hget]
  · simp [Ledger.reject, hget, hfenced]
  · simp [Ledger.startRequested, hfenced, hstate]
  · simp [Ledger.release, hfenced, hstate]

/-- Every attempt of the first ledger is in the second, with the same plan. -/
def Remembers (ledger ledger' : Ledger) : Prop :=
  ∀ id value, ledger.get id = some value →
    ∃ value', ledger'.get id = some value' ∧ value'.plan = value.plan

/-- In every run, whatever happens after an attempt was recorded, its plan is remembered, and what
is asked about it again is answered from its record and changes nothing. -/
theorem requests_replayed (installation identity : Identity) (operations later : List Operation) :
    let ledger := run step (create installation identity) operations
    let ledger' := run step ledger later
    ledger.Remembers ledger' ∧ ∀ id value, ledger'.get id = some value → ledger'.Replays value := by
  intro ledger ledger'
  have hinv : ledger.Invariant :=
    run_invariant invariant_step (invariant_create installation identity) operations
  refine ⟨run_relates (fun _ _ value hget => ⟨value, hget, rfl⟩) ?_ invariant_step ?_ hinv later,
    fun _ _ => (run_invariant invariant_step hinv later).bound.replays⟩
  · intro first second third h₁ h₂ id value hget
    obtain ⟨middle, hmiddle, hfirst⟩ := h₁ id value hget
    obtain ⟨value', hget', hsecond⟩ := h₂ id middle hmiddle
    exact ⟨value', hget', hsecond.trans hfirst⟩
  · intro s operation h id value hget
    obtain ⟨value', hget', hdevelops⟩ := (changes_step h.bound operation).forward h.bound hget
    exact ⟨value', hget', hdevelops.plan⟩

end Runs

end Ledger

end Ficc.Execution
