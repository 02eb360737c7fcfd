import Ficc.Execution.LedgerSpec

/-!
# Changes of a ledger

Everything that a transaction can do to a ledger is a sequence of four kinds of change: a new
offer, a reservation, a rejection, and a move on one record. A predicate on events says which
of them an operation may make, so that one relation describes every operation of the ledger and
of the supervisor. This file proves what all changes keep.
-/

namespace Ficc.Execution

variable [Hash Plan]

/-- What a change does. -/
inductive Event
  | offer (offer : Offer)
  | reserve (plan : Plan)
  | reject (plan : Plan)
  | move (value : Value) (move : Move)

/-- The event gives an attempt a lease. -/
def Event.Renews : Event → Prop
  | .move _ (.renew _ _) => True
  | _ => False

namespace Ledger

/-- One change of a ledger by an event that is permitted. -/
inductive Change (permits : Event → Prop) (ledger : Ledger) : Ledger → Prop
  | offer (offer : Offer) (permitted : permits (.offer offer)) :
    Change permits ledger { ledger with offer := some offer }
  | reserve (plan : Plan) (slot : String) (binding : Binding) (now : ℚ) (offer : Offer)
    (absent : ledger.get plan.attemptId = none) (admits : ledger.Admits plan slot now offer)
    (permitted : permits (.reserve plan)) :
    Change permits ledger ((ledger.put (reservation plan slot binding now)).holdDevices
      plan.attemptId plan.job.limits.gpuDevices)
  | reject (plan : Plan) (now : ℚ) (observation : Option (List (Binding × String)))
    (absent : ledger.get plan.attemptId = none) (unblocked : ledger.Unblocked plan)
    (permitted : permits (.reject plan)) :
    Change permits ledger (ledger.put (ledger.rejected plan now observation))
  | move (id : Identity) (value : Value) (move : Move) (found : ledger.get id = some value)
    (allowed : move.Allowed value) (permitted : permits (.move value move)) :
    Change permits ledger (ledger.perform value move)

/-- The changes of a whole transaction, or of several. -/
def Changes (permits : Event → Prop) : Ledger → Ledger → Prop :=
  Relation.ReflTransGen (Change permits)

variable {permits permits' : Event → Prop} {ledger ledger' ledger'' : Ledger}

theorem Changes.refl : Changes permits ledger ledger := Relation.ReflTransGen.refl

theorem Changes.trans (h₁ : Changes permits ledger ledger')
    (h₂ : Changes permits ledger' ledger'') : Changes permits ledger ledger'' :=
  Relation.ReflTransGen.trans h₁ h₂

theorem Change.changes (h : Change permits ledger ledger') : Changes permits ledger ledger' :=
  Relation.ReflTransGen.single h

theorem Change.mono (h : Change permits ledger ledger')
    (hpermits : ∀ event, permits event → permits' event) : Change permits' ledger ledger' := by
  cases h with
  | offer offer permitted => exact .offer offer (hpermits _ permitted)
  | reserve plan slot binding now offer absent admits permitted =>
    exact .reserve plan slot binding now offer absent admits (hpermits _ permitted)
  | reject plan now observation absent unblocked permitted =>
    exact .reject plan now observation absent unblocked (hpermits _ permitted)
  | move id value move found allowed permitted =>
    exact .move id value move found allowed (hpermits _ permitted)

theorem Changes.mono (h : Changes permits ledger ledger')
    (hpermits : ∀ event, permits event → permits' event) : Changes permits' ledger ledger' := by
  induction h with
  | refl => exact .refl
  | tail _ hlast ih => exact ih.trans (hlast.mono hpermits).changes

theorem Change.of_fenced {fence : Fence} {value : Value} {move : Move}
    (hfence : ledger.fenced fence = .ok value) (hallowed : move.Allowed value)
    (hpermitted : permits (.move value move)) :
    Change permits ledger (ledger.perform value move) :=
  .move _ value move (fenced_eq_ok.mp hfence).1 hallowed hpermitted

section Records

/-- A record after at most one permitted move. -/
def Evolves (permits : Event → Prop) (value value' : Value) : Prop :=
  value' = value ∨ ∃ move : Move, move.Allowed value ∧ permits (.move value move) ∧
    value' = move.apply value

variable {value value' : Value} {id : Identity}

omit [Hash Plan] in
theorem Evolves.plan (h : Evolves permits value value') :
    value'.plan = value.plan := by
  rcases h with rfl | ⟨move, -, -, rfl⟩
  · rfl
  · simp

omit [Hash Plan] in
theorem Evolves.rank_le (h : Evolves permits value value') :
    value.state.rank ≤ value'.state.rank := by
  rcases h with rfl | ⟨move, hallowed, -, rfl⟩
  · exact le_refl _
  · exact Move.rank_le_rank_apply hallowed

omit [Hash Plan] in
theorem Evolves.released (h : Evolves permits value value') (hreleased : value.state = .released) :
    value'.state = .released := by
  rcases h with rfl | ⟨move, hallowed, -, rfl⟩
  · exact hreleased
  · exact Move.apply_released hallowed hreleased

/-- The record is the one that a permitted reservation or rejection inserts. -/
inductive Inserted (permits : Event → Prop) (ledger : Ledger) : Value → Prop
  | reserved (plan : Plan) (slot : String) (binding : Binding) (now : ℚ) (offer : Offer)
    (admits : ledger.Admits plan slot now offer) (permitted : permits (.reserve plan)) :
    Inserted permits ledger (reservation plan slot binding now)
  | rejected (plan : Plan) (now : ℚ) (observation : Option (List (Binding × String)))
    (unblocked : ledger.Unblocked plan) (permitted : permits (.reject plan)) :
    Inserted permits ledger (ledger.rejected plan now observation)

theorem Inserted.unblocked (h : Inserted permits ledger value) :
    ledger.Unblocked value.plan := by
  cases h with
  | reserved plan slot binding now offer admits permitted => exact admits.unblocked
  | rejected plan now observation unblocked permitted => exact unblocked

/-- A change keeps every record, and moves at most one. -/
theorem Change.forward (hl : ledger.Bound) (h : Change permits ledger ledger')
    (hget : ledger.get id = some value) :
    ∃ value', ledger'.get id = some value' ∧ Evolves permits value value' := by
  cases h with
  | offer offer permitted => exact ⟨value, hget, .inl rfl⟩
  | reserve plan slot binding now offer absent admits permitted =>
    have hne : id ≠ plan.attemptId := by
      rintro rfl
      rw [absent] at hget
      cases hget
    refine ⟨value, ?_, .inl rfl⟩
    rw [get_holdDevices, get_put]
    exact (if_neg hne).trans hget
  | reject plan now observation absent unblocked permitted =>
    have hne : id ≠ plan.attemptId := by
      rintro rfl
      rw [absent] at hget
      cases hget
    refine ⟨value, ?_, .inl rfl⟩
    rw [get_put]
    exact (if_neg hne).trans hget
  | move moved old move found allowed permitted =>
    obtain rfl := hl.key found
    by_cases hid : id = old.plan.attemptId
    · subst hid
      obtain rfl := Option.some.inj (found.symm.trans hget)
      exact ⟨move.apply old, by rw [get_perform, if_pos rfl],
        .inr ⟨move, allowed, permitted, rfl⟩⟩
    · exact ⟨value, by rw [get_perform, if_neg hid, hget], .inl rfl⟩

/-- A record after a change was there before, or it is the only new one. -/
theorem Change.backward (hl : ledger.Bound) (h : Change permits ledger ledger')
    (hget : ledger'.get id = some value') :
    (∃ value, ledger.get id = some value ∧ Evolves permits value value') ∨
      (ledger.get id = none ∧ Inserted permits ledger value' ∧
        ∀ other ≠ id, ledger'.get other = ledger.get other) := by
  cases hbefore : ledger.get id with
  | some value =>
    obtain ⟨found, hfound, hevolves⟩ := h.forward hl hbefore
    obtain rfl := Option.some.inj (hget.symm.trans hfound)
    exact .inl ⟨value, rfl, hevolves⟩
  | none =>
    cases h with
    | offer offer permitted =>
      have hsame : ledger.get id = some value' := hget
      rw [hbefore] at hsame
      cases hsame
    | reserve plan slot binding now offer absent admits permitted =>
      rw [get_holdDevices, get_put] at hget
      split_ifs at hget with hid
      · obtain rfl := Option.some.inj hget
        refine .inr ⟨rfl, .reserved plan slot binding now offer admits permitted,
          fun other hother => ?_⟩
        rw [get_holdDevices, get_put, if_neg (hid ▸ hother)]
      · rw [hbefore] at hget
        cases hget
    | reject plan now observation absent unblocked permitted =>
      rw [get_put] at hget
      split_ifs at hget with hid
      · obtain rfl := Option.some.inj hget
        refine .inr ⟨rfl, .rejected plan now observation unblocked permitted,
          fun other hother => ?_⟩
        rw [get_put, if_neg (hid ▸ hother)]
      · rw [hbefore] at hget
        cases hget
    | move moved old move found allowed permitted =>
      rw [get_perform] at hget
      split_ifs at hget with hid
      · rw [hid, hl.key found, found] at hbefore
        cases hbefore
      · rw [hbefore] at hget
        cases hget

theorem Change.bound (hl : ledger.Bound) (h : Change permits ledger ledger') : ledger'.Bound := by
  cases h with
  | offer offer permitted => exact hl.of_attempts rfl
  | reserve plan slot binding now offer absent admits permitted =>
    exact (hl.put rfl).of_attempts rfl
  | reject plan now observation absent unblocked permitted => exact hl.put rfl
  | move moved old move found allowed permitted => exact hl.perform (hl.digest found)

theorem Changes.bound (hl : ledger.Bound) (h : Changes permits ledger ledger') :
    ledger'.Bound := by
  induction h with
  | refl => exact hl
  | tail _ hlast ih => exact hlast.bound ih

/-- A record after permitted moves. -/
def Develops (permits : Event → Prop) : Value → Value → Prop :=
  Relation.ReflTransGen (Evolves permits)

omit [Hash Plan] in
theorem Develops.plan (h : Develops permits value value') :
    value'.plan = value.plan := by
  induction h with
  | refl => rfl
  | tail _ hlast ih => exact hlast.plan.trans ih

/-- A transaction keeps every record, up to moves. -/
theorem Changes.forward (hl : ledger.Bound) (h : Changes permits ledger ledger')
    (hget : ledger.get id = some value) :
    ∃ value', ledger'.get id = some value' ∧ Develops permits value value' := by
  induction h with
  | refl => exact ⟨value, hget, .refl⟩
  | tail hfirst hlast ih =>
    obtain ⟨middle, hmiddle, hdevelops⟩ := ih
    obtain ⟨value', hvalue', hevolves⟩ := hlast.forward (Changes.bound hl hfirst) hmiddle
    exact ⟨value', hvalue', hdevelops.tail hevolves⟩

/-- A record after a transaction was there before, or a permitted reservation or rejection has
inserted it. -/
theorem Changes.backward (hl : ledger.Bound) (h : Changes permits ledger ledger')
    (hget : ledger'.get id = some value') :
    (∃ value, ledger.get id = some value ∧ Develops permits value value') ∨
      ∃ middle first, ledger.get id = none ∧ Inserted permits middle first ∧
        Develops permits first value' := by
  induction h generalizing value' with
  | refl => exact .inl ⟨value', hget, .refl⟩
  | tail hfirst hlast ih =>
    obtain ⟨value, hvalue, hevolves⟩ | ⟨habsent, hinserted, -⟩ :=
      hlast.backward (Changes.bound hl hfirst) hget
    · obtain ⟨first, hgot, hdevelops⟩ | ⟨middle, first, habsent, hinserted, hdevelops⟩ := ih hvalue
      · exact .inl ⟨first, hgot, hdevelops.tail hevolves⟩
      · exact .inr ⟨middle, first, habsent, hinserted, hdevelops.tail hevolves⟩
    · -- Records are never deleted, so it was not there in the beginning either.
      refine .inr ⟨_, value', ?_, hinserted, .refl⟩
      by_contra hthere
      obtain ⟨value, hvalue⟩ := Option.ne_none_iff_exists'.mp hthere
      obtain ⟨kept, hkept, -⟩ := Changes.forward hl hfirst hvalue
      rw [habsent] at hkept
      cases hkept

/-- An offer is replaced, never withdrawn. -/
theorem Changes.offered (h : Changes permits ledger ledger') (hoffer : ledger.offer ≠ none) :
    ledger'.offer ≠ none := by
  induction h with
  | refl => exact hoffer
  | tail _ hlast ih =>
    cases hlast with
    | offer offer permitted => exact Option.some_ne_none _
    | reserve plan slot binding now offer absent admits permitted => exact ih
    | reject plan now observation absent unblocked permitted => exact ih
    | move moved old move found allowed permitted => rwa [offer_perform]

end Records

section Exclusion

/-- The unreleased attempt of a job is newer than every other attempt of the job. -/
def Exclusive (ledger : Ledger) : Prop :=
  ∀ {id other : Identity} {value value' : Value}, ledger.get id = some value →
    ledger.get other = some value' → other ≠ id → value'.plan.jobId = value.plan.jobId →
    value.state ≠ .released → value'.plan.generation < value.plan.generation

/-- A new attempt is admitted only when it is the newest of its job and all others are released,
and no attempt becomes unreleased later. -/
theorem Change.exclusive (hl : ledger.Bound) (hexclusive : ledger.Exclusive)
    (h : Change permits ledger ledger') : ledger'.Exclusive := by
  intro id other value value' hget hother hne hjob hunreleased
  rcases h.backward hl hget with ⟨old, hold, hevolves⟩ | ⟨-, hinserted, hsame⟩
  · rcases h.backward hl hother with ⟨old', hold', hevolves'⟩ | ⟨-, hinserted, -⟩
    · rw [hevolves.plan, hevolves'.plan] at *
      exact hexclusive hold hold' hne hjob fun hreleased =>
        hunreleased (hevolves.released hreleased)
    · -- The other attempt is new, so this one would have blocked it.
      have hreleased := (hinserted.unblocked id old hold (by rw [hjob, hevolves.plan])).1
      exact absurd (hevolves.released hreleased) hunreleased
  · rw [hsame other hne] at hother
    exact (hinserted.unblocked other value' hother hjob).2

omit [Hash Plan] in
/-- An unreleased attempt is the only unreleased one of its job. -/
theorem Exclusive.released (hexclusive : ledger.Exclusive) {id other : Identity}
    {value value' : Value} (hget : ledger.get id = some value)
    (hother : ledger.get other = some value') (hne : other ≠ id)
    (hjob : value'.plan.jobId = value.plan.jobId) (hunreleased : value.state ≠ .released) :
    value'.state = .released := by
  by_contra hunreleased'
  have hless := hexclusive hget hother hne hjob hunreleased
  have hgreater := hexclusive hother hget hne.symm hjob.symm hunreleased'
  exact absurd hless (not_lt.mpr hgreater.le)

end Exclusion

section Operations

variable {value : Value} {fence : Fence}

theorem changes_of_annotate (hl : ledger.Bound) {fields : List AnnotatedField}
    (h : ledger.annotate fence fields = .ok (value, ledger'))
    (hpermits : ∀ found, ledger.fenced fence = .ok found →
      permits (.move found (.annotate fields))) :
    Changes permits ledger ledger' := by
  obtain ⟨found, hfence, -, rfl⟩ := annotate_eq_ok hl h
  have hallowed : (Move.annotate fields).Allowed found := trivial
  exact (Change.of_fenced hfence hallowed (hpermits found hfence)).changes

theorem changes_of_reject {plan : Plan} {now : ℚ}
    {observation : Option (List (Binding × String))}
    (h : ledger.reject plan now observation = .ok (value, ledger'))
    (hpermits : permits (.reject plan)) : Changes permits ledger ledger' := by
  rcases reject_eq_ok h with ⟨-, rfl⟩ | ⟨habsent, hunblocked, rfl, rfl⟩
  · exact .refl
  · exact (Change.reject plan now observation habsent hunblocked hpermits).changes

theorem changes_of_renew (hl : ledger.Bound) {request : Renewal} {now : Reading}
    {maximumSeconds : ℚ} (h : ledger.renew request now maximumSeconds = .ok (value, ledger'))
    (hpermits : ∀ found timing, ledger.fenced request.toFence = .ok found →
      permits (.move found (.renew request timing))) :
    Changes permits ledger ledger' := by
  obtain ⟨found, hfence, ⟨-, -, rfl⟩ | ⟨timing, -, hallowed, -, rfl⟩⟩ := renew_eq_ok hl h
  · exact .refl
  · exact (Change.of_fenced hfence hallowed (hpermits found timing hfence)).changes

theorem changes_of_reserve {plan : Plan} {slot : String} {binding : Binding} {now : ℚ}
    (h : ledger.reserve plan slot binding now = .ok (value, ledger'))
    (hpermits : permits (.reserve plan)) : Changes permits ledger ledger' := by
  rcases reserve_eq_ok h with ⟨-, -, rfl⟩ | ⟨habsent, ⟨offer, hadmits⟩, rfl, rfl⟩
  · exact .refl
  · exact (Change.reserve plan slot binding now offer habsent hadmits hpermits).changes

/-- An admission reserves the plan and then renews the reservation that it has made. -/
theorem changes_of_admitPlan (hl : ledger.Bound) {admission : Admission} {slot : String}
    {binding : Binding} {now : Reading} {maximumSeconds : ℚ} {fresh : Bool}
    (h : ledger.admitPlan admission slot binding now maximumSeconds = .ok ((value, fresh), ledger'))
    (hreserve : permits (.reserve admission.plan))
    (hrenew : ∀ found timing, found.fence = admission.lease.toFence →
      permits (.move found (.renew admission.lease timing))) :
    Changes permits ledger ledger' := by
  simp only [admitPlan, bind_eq_ok, Prod.exists] at h
  obtain ⟨reserved, ledger₁, hreserved, h⟩ := h
  have hfirst := changes_of_reserve hreserved hreserve
  split_ifs at h with hnew
  · simp only [bind_eq_ok, Prod.exists, Except.ok.injEq, Prod.mk.injEq] at h
    obtain ⟨renewed, ledger₂, hrenewed, -, rfl⟩ := h
    have hbound := hfirst.bound hl
    exact hfirst.trans (changes_of_renew hbound hrenewed fun found timing hfound =>
      hrenew found timing (hbound.fence_of_fenced hfound))
  · simp only [Except.ok.injEq, Prod.mk.injEq] at h
    obtain ⟨-, rfl⟩ := h
    exact hfirst

theorem changes_of_startRequested (hl : ledger.Bound) {now : Reading} {first : Bool}
    (h : ledger.startRequested fence now = .ok ((value, first), ledger'))
    (hpermits : ∀ found, ledger.fenced fence = .ok found → permits (.move found .start)) :
    Changes permits ledger ledger' := by
  obtain ⟨found, hfence, ⟨-, -, -, rfl⟩ | ⟨-, hallowed, -, -, rfl⟩⟩ := startRequested_eq_ok hl h
  · exact .refl
  · exact (Change.of_fenced hfence hallowed (hpermits found hfence)).changes

theorem changes_of_started (hl : ledger.Bound) {binding : String}
    (h : ledger.started fence binding = .ok ledger')
    (hpermits : ∀ found, permits (.move found (.started binding))) :
    Changes permits ledger ledger' := by
  obtain ⟨found, hfence, hallowed, rfl⟩ := started_eq_ok hl h
  exact (Change.of_fenced hfence hallowed (hpermits found)).changes

theorem changes_of_finish (hl : ledger.Bound) {result : AttemptResult}
    (h : ledger.finish result = .ok ledger')
    (hpermits : ∀ found, ledger.fenced result.toFence = .ok found →
      permits (.move found (.finish result))) :
    Changes permits ledger ledger' := by
  obtain ⟨found, hfence, hallowed, rfl⟩ := finish_eq_ok hl h
  exact (Change.of_fenced hfence hallowed (hpermits found hfence)).changes

theorem changes_of_release (hl : ledger.Bound) (h : ledger.release fence = .ok (value, ledger'))
    (hpermits : ∀ found, ledger.fenced fence = .ok found → permits (.move found .release)) :
    Changes permits ledger ledger' := by
  obtain ⟨found, hfence, ⟨-, -, rfl⟩ | ⟨hallowed, -, rfl⟩⟩ := release_eq_ok hl h
  · exact .refl
  · exact (Change.of_fenced hfence hallowed (hpermits found hfence)).changes

theorem changes_of_recoverStorage (hl : ledger.Bound) {before : Option Binding}
    {binding : Binding} {observedAt : ℚ}
    (h : ledger.recoverStorage fence before binding observedAt = .ok (value, ledger'))
    (hpermits : ∀ found, ledger.fenced fence = .ok found →
      permits (.move found (.recover before binding observedAt))) :
    Changes permits ledger ledger' := by
  obtain ⟨found, hfence, hallowed, -, rfl⟩ := recoverStorage_eq_ok hl h
  exact (Change.of_fenced hfence hallowed (hpermits found hfence)).changes

theorem changes_of_saveOffer {offer : Offer} {expected : ℕ}
    (h : ledger.saveOffer offer expected = .ok ledger') (hpermits : permits (.offer offer)) :
    Changes permits ledger ledger' := by
  obtain ⟨rfl, -⟩ := saveOffer_eq_ok h
  exact (Change.offer offer hpermits).changes

end Operations

end Ledger

end Ficc.Execution
