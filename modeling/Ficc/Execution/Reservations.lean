import Ficc.Execution.SupervisorSpec

/-!
# The reservations of an executor

Three representations say what an attempt holds: the slot in its record, the confirmation of its
cleanup, and the device table. This file proves that every run of the supervisor keeps them
consistent, and that what the attempts hold together stays within the local offer as far as the
offer itself does not shrink.
-/

namespace Ficc.Execution

/-- What a record of the supervisor satisfies. -/
structure Value.Sound (value : Value) : Prop where
  slot : value.slot ≠ none ↔ value.state ≠ .released ∧ value.admissionRejection = none
  terminal : value.state ∈ TERMINAL → value.cleanupConfirmed = true
  released : value.state = .released → value.cleanupConfirmed = true
  active : value.state.Active → value.cleanupConfirmed = false

/-- The event is one that the supervisor can cause. -/
def Careful : Event → Prop
  | .move value (.finish result) => Supervised value result
  | _ => True

theorem careful_of_permits [Hash Plan] {operation : Supervisor.Operation} {event : Event}
    (h : operation.Permits event) : Careful event := by
  match event, h with
  | .offer _, _ => trivial
  | .reserve _, _ => trivial
  | .reject _, _ => trivial
  | .move _ (.annotate _), _ => trivial
  | .move _ .start, _ => trivial
  | .move _ (.started _), _ => trivial
  | .move _ (.renew _ _), _ => trivial
  | .move _ (.finish _), h => exact h
  | .move _ .release, _ => trivial
  | .move _ (.recover _ _ _), _ => trivial

section Values

variable {value : Value} {move : Move}

/-- Every supervised move keeps a record sound. -/
theorem Value.Sound.apply (h : value.Sound) (hallowed : move.Allowed value)
    (hcareful : Careful (.move value move)) : (move.apply value).Sound := by
  cases move with
  | annotate fields =>
    obtain ⟨_, _, _, _, _, heq⟩ := AnnotatedField.foldl_apply fields value
    simp only [Move.apply, heq]
    exact ⟨h.slot, h.terminal, h.released, h.active⟩
  | start =>
    have hprepared : value.state = .prepared := hallowed
    exact {
      slot := by simpa [Move.apply, hprepared] using h.slot
      terminal := by simp [Move.apply, TERMINAL]
      released := by simp [Move.apply]
      active := fun _ => h.active (by rw [hprepared]; decide) }
  | started binding =>
    have hstarting : value.state = .starting := hallowed
    exact {
      slot := by simpa [Move.apply, hstarting] using h.slot
      terminal := by simp [Move.apply, TERMINAL]
      released := by simp [Move.apply]
      active := fun _ => h.active (by rw [hstarting]; decide) }
  | renew request timing => exact ⟨h.slot, h.terminal, h.released, h.active⟩
  | finish result =>
    obtain ⟨hunreleased, hfinal, hconfirmed, -⟩ := hallowed
    have hresult : result.state ≠ .released := by
      intro hreleased
      rw [hreleased] at hfinal
      revert hfinal
      decide
    refine ⟨?_, hconfirmed, fun hreleased => absurd hreleased hresult,
      fun hactive => absurd hfinal (State.Active.not_final hactive)⟩
    simpa [Move.apply, hunreleased, hresult] using h.slot
  | release =>
    exact {
      slot := by simp [Move.apply]
      terminal := by simp [Move.apply, TERMINAL]
      released := fun _ => hallowed.2
      active := by simp [Move.apply, State.Active] }
  | recover before binding observedAt =>
    have hstate := Move.apply_recover_state value before binding observedAt
    have hunreleased : ((Move.recover before binding observedAt).apply value).state ≠
        .released := by
      rw [hstate]
      split_ifs
      · exact hallowed.1
      · decide
    have hcleanup : ((Move.recover before binding observedAt).apply value).cleanupConfirmed =
        true := by
      simp only [Move.apply]
      split_ifs <;> rfl
    have hslot : ((Move.recover before binding observedAt).apply value).slot = value.slot := by
      simp only [Move.apply]
      split_ifs <;> rfl
    refine ⟨?_, fun _ => hcleanup, fun _ => hcleanup, fun hactive => ?_⟩
    · rw [hslot, Move.apply_admissionRejection]
      simpa [hunreleased, hallowed.1] using h.slot
    · rw [hstate] at hactive
      split_ifs at hactive with hterminal
      · exact absurd hterminal hactive.not_terminal
      · exact absurd hactive (by decide)

/-- No move gives an attempt a slot. -/
theorem Move.slot_apply : (move.apply value).slot = value.slot ∨
    (move.apply value).slot = none := by
  cases move with
  | annotate fields =>
    obtain ⟨_, _, _, _, _, heq⟩ := AnnotatedField.foldl_apply fields value
    simp only [apply, heq]
    exact .inl trivial
  | recover before binding observedAt =>
    simp only [apply]
    split_ifs <;> exact .inl rfl
  | release => exact .inr rfl
  | _ => exact .inl rfl

theorem Move.held_of_held_apply (h : (move.apply value).Held) : value.Held := by
  have hslot : (move.apply value).slot = value.slot ∨ (move.apply value).slot = none :=
    Move.slot_apply
  rcases hslot with hsame | hnone
  · rwa [Value.Held, ← hsame]
  · exact absurd hnone h

/-- After a supervised move an attempt runs exactly when it ran before and its devices were not
deleted. -/
theorem Value.Sound.running_apply (h : value.Sound)
    (hcareful : Careful (.move value move)) :
    (move.apply value).Running ↔ value.Running ∧ move.frees = false := by
  unfold Value.Running Value.Held
  cases move with
  | annotate fields =>
    obtain ⟨_, _, _, _, _, heq⟩ := AnnotatedField.foldl_apply fields value
    simp [Move.apply, heq, Move.frees]
  | start => simp [Move.apply, Move.frees]
  | started binding => simp [Move.apply, Move.frees]
  | renew request timing => simp [Move.apply, Move.frees]
  | finish result =>
    -- A supervised result is only recorded while the cleanup is unconfirmed.
    have hcleanup : value.cleanupConfirmed = false := by
      rcases hcareful with hactive | ⟨-, hunconfirmed, -⟩
      · exact h.active hactive
      · exact hunconfirmed
    simp [Move.apply, Move.frees, hcleanup]
  | release => simp [Move.apply, Move.frees]
  | recover before binding observedAt =>
    simp only [Move.apply]
    split_ifs <;> simp [Move.frees]

end Values

namespace Ledger

variable [Hash Plan] {permits : Event → Prop} {ledger ledger' : Ledger}

/-- What the attempts hold, in the three representations. -/
structure Reserved (ledger : Ledger) : Prop where
  sound : ∀ {id : Identity} {value : Value}, ledger.get id = some value → value.Sound
  slots : ∀ {id other : Identity} {value value' : Value}, ledger.get id = some value →
    ledger.get other = some value' → other ≠ id → value.slot ≠ none → value'.slot ≠ value.slot
  devices : ∀ {device : String} {id : Identity}, ledger.devices.lookup device = some id ↔
    ∃ value, ledger.get id = some value ∧ value.Running ∧ device ∈ value.limits.gpuDevices

theorem Inserted.sound {value : Value} (h : Inserted permits ledger value) : value.Sound := by
  cases h with
  | reserved plan slot binding now offer admits permitted =>
    exact {
      slot := by simp [reservation]
      terminal := by simp [reservation, TERMINAL]
      released := fun _ => by simp_all [reservation]
      active := fun _ => rfl }
  | rejected plan now observation unblocked permitted =>
    refine ⟨?_, fun _ => rfl, fun _ => rfl, fun hactive => ?_⟩
    · simp [Ledger.rejected]
    · cases observation with
      | none => exact absurd hactive (by decide : ¬State.failed.Active)
      | some observed => exact absurd hactive (by decide : ¬State.unknown.Active)

omit [Hash Plan] in
theorem Evolves.sound (hpermits : ∀ event, permits event → Careful event) {value value' : Value}
    (h : Evolves permits value value') (hsound : value.Sound) : value'.Sound := by
  rcases h with rfl | ⟨move, hallowed, hpermitted, rfl⟩
  · exact hsound
  · exact hsound.apply hallowed (hpermits _ hpermitted)

omit [Hash Plan] in
theorem Evolves.slot {value value' : Value} (h : Evolves permits value value')
    (hslot : value'.slot ≠ none) : value'.slot = value.slot := by
  rcases h with rfl | ⟨move, -, -, rfl⟩
  · rfl
  · exact Move.slot_apply.resolve_right hslot

/-- A new holder takes a slot that nobody holds, and nobody takes a slot later. -/
theorem Change.slots (hl : ledger.Bound) (hreserved : ledger.Reserved)
    (h : Change permits ledger ledger') {id other : Identity} {value value' : Value}
    (hget : ledger'.get id = some value) (hother : ledger'.get other = some value')
    (hne : other ≠ id) (hslot : value.slot ≠ none) : value'.slot ≠ value.slot := by
  intro hsame
  have hslot' : value'.slot ≠ none := hsame ▸ hslot
  rcases h.backward hl hget with ⟨old, hold, hevolves⟩ | ⟨-, hinserted, hunchanged⟩
  · rcases h.backward hl hother with ⟨old', hold', hevolves'⟩ | ⟨-, hinserted, hunchanged⟩
    · rw [hevolves.slot hslot, hevolves'.slot hslot'] at hsame
      exact hreserved.slots hold hold' hne (hevolves.slot hslot ▸ hslot) hsame
    · cases hinserted with
      | reserved plan slot binding now offer admits permitted =>
        rw [hunchanged id hne.symm] at hget
        exact admits.slot_free id value hget hsame.symm
      | rejected plan now observation unblocked permitted => exact hslot' rfl
  · cases hinserted with
    | reserved plan slot binding now offer admits permitted =>
      rw [hunchanged other hne] at hother
      exact admits.slot_free other value' hother hsame
    | rejected plan now observation unblocked permitted => exact hslot rfl

/-- The device table follows the attempts that run. -/
theorem Change.devices (hpermits : ∀ event, permits event → Careful event) (hl : ledger.Bound)
    (hreserved : ledger.Reserved) (h : Change permits ledger ledger') {device : String}
    {id : Identity} :
    ledger'.devices.lookup device = some id ↔
      ∃ value, ledger'.get id = some value ∧ value.Running ∧
        device ∈ value.limits.gpuDevices := by
  cases h with
  | offer offer permitted => exact hreserved.devices
  | reject plan now observation absent unblocked permitted =>
    refine Iff.trans hreserved.devices ?_
    simp only [get_put]
    constructor
    · rintro ⟨value, hget, hrunning, hdevice⟩
      have hne : id ≠ plan.attemptId := by
        rintro rfl
        rw [absent] at hget
        cases hget
      exact ⟨value, (if_neg hne).trans hget, hrunning, hdevice⟩
    · rintro ⟨value, hget, hrunning, hdevice⟩
      split_ifs at hget with hid
      · obtain rfl := Option.some.inj hget
        exact absurd rfl hrunning.1
      · exact ⟨value, hget, hrunning, hdevice⟩
  | reserve plan slot binding now offer absent admits permitted =>
    rw [lookup_holdDevices]
    simp only [get_holdDevices, get_put]
    split_ifs with hdevice hid hid
    · -- A device of the new attempt belongs to it.
      refine iff_of_true (by rw [hid]; rfl) ⟨_, rfl, ⟨by simp [Value.Held, reservation], rfl⟩, hdevice⟩
    · refine iff_of_false (fun hsame => hid (Option.some.inj hsame).symm) ?_
      rintro ⟨value, hget, hrunning, htaken⟩
      have hlookup := hreserved.devices.mpr ⟨value, hget, hrunning, htaken⟩
      rw [admits.devices_free device hdevice] at hlookup
      cases hlookup
    · refine iff_of_false (fun hlookup => ?_) ?_
      · obtain ⟨value, hget, -⟩ := hreserved.devices.mp hlookup
        have hknown : ledger.get plan.attemptId = some value := hid ▸ hget
        rw [absent] at hknown
        cases hknown
      · rintro ⟨value, hget, -, hmember⟩
        obtain rfl := Option.some.inj hget
        exact hdevice hmember
    · exact hreserved.devices
  | move moved old move found allowed permitted =>
    have hcareful := hpermits _ permitted
    have hrunning := (hreserved.sound found).running_apply hcareful
    obtain rfl := hl.key found
    rw [lookup_perform, Option.filter_eq_some_iff, hreserved.devices]
    simp only [get_perform]
    split_ifs with hid
    · subst hid
      constructor
      · rintro ⟨⟨value, hget, hruns, hdevice⟩, hkept⟩
        obtain rfl := Option.some.inj (found.symm.trans hget)
        refine ⟨_, rfl, hrunning.mpr ⟨hruns, by simpa using hkept⟩, ?_⟩
        simpa [Value.limits] using hdevice
      · rintro ⟨value, hget, hruns, hdevice⟩
        obtain rfl := Option.some.inj hget
        obtain ⟨hruns, hfrees⟩ := hrunning.mp hruns
        exact ⟨⟨old, found, hruns, by simpa [Value.limits] using hdevice⟩, by simp [hfrees]⟩
    · constructor
      · rintro ⟨hvalue, -⟩
        exact hvalue
      · intro hvalue
        exact ⟨hvalue, by simp [hid]⟩

/-- Every change of the supervisor keeps the reservations consistent. -/
theorem Changes.reserved (hpermits : ∀ event, permits event → Careful event)
    (hl : ledger.Bound) (hreserved : ledger.Reserved) (h : Changes permits ledger ledger') :
    ledger'.Reserved := by
  induction h with
  | refl => exact hreserved
  | tail hfirst hlast ih =>
    have hmiddle := Changes.bound hl hfirst
    refine ⟨?_, fun hget hother => hlast.slots hmiddle ih hget hother,
      hlast.devices hpermits hmiddle ih⟩
    intro id value hget
    rcases hlast.backward hmiddle hget with ⟨old, hold, hevolves⟩ | ⟨-, hinserted, -⟩
    · exact hevolves.sound hpermits (ih.sound hold)
    · exact hinserted.sound

section Amounts

/-- What one record contributes to the use of a resource. -/
def share (holds : Value → Prop) [DecidablePred holds] (amount : Limits → ℕ) (value : Value) : ℕ :=
  if holds value then amount value.limits else 0

variable {holds : Value → Prop} [DecidablePred holds] {amount : Limits → ℕ}

omit [Hash Plan] in
theorem used_eq_total (ledger : Ledger) :
    ledger.used holds amount =
      ledger.attempts.total fun row => share holds amount row.value := by
  simp only [used, all, Table.total, share]
  generalize ledger.attempts.values = rows
  induction rows with
  | nil => rfl
  | cons row rows ih =>
    by_cases hholds : holds row.value
    · simp [hholds, ← ih]
    · simp [hholds, ← ih]

variable (holds amount) in
omit [Hash Plan] in
/-- Writing a record replaces its contribution. -/
theorem used_put (ledger : Ledger) (value : Value) :
    (ledger.put value).used holds amount +
        (ledger.get value.plan.attemptId).elim 0 (share holds amount) =
      ledger.used holds amount + share holds amount value := by
  have htotal := Table.total_insert ledger.attempts value.plan.attemptId (Row.insert value)
    fun row => share holds amount row.value
  rw [used_eq_total, used_eq_total, get]
  cases hlookup : ledger.attempts.lookup value.plan.attemptId with
  | none => simpa [hlookup, put, Row.insert] using htotal
  | some row => simpa [hlookup, put, Row.insert] using htotal

omit [Hash Plan] in
theorem used_perform (ledger : Ledger) (value : Value) (move : Move) :
    (ledger.perform value move).used holds amount =
      (ledger.put (move.apply value)).used holds amount := by
  unfold perform
  split_ifs <;> rfl

/-- Without a new offer, a resource is used within the offer or no more than before. It needs
that rejected attempts hold nothing, that no move makes an attempt hold something, and that an
admission respects the offer. -/
theorem Change.used_le (hpermits : ∀ event, permits event → Careful event)
    (hoffer : ∀ offer, ¬permits (.offer offer)) (hl : ledger.Bound) (hreserved : ledger.Reserved)
    (hnone : ∀ value : Value, value.slot = none → ¬holds value)
    (hmove : ∀ (value : Value) (move : Move), value.Sound → Careful (.move value move) →
      holds (move.apply value) → holds value)
    (hadmits : ∀ plan slot now offer, ledger.Admits plan slot now offer →
      amount plan.job.limits + ledger.used holds amount ≤ amount offer.limits)
    (h : Change permits ledger ledger') {offer : Offer} (hcurrent : ledger.offer = some offer) :
    ledger'.offer = some offer ∧
      ledger'.used holds amount ≤ max (ledger.used holds amount) (amount offer.limits) := by
  cases h with
  | offer new permitted => exact absurd permitted (hoffer new)
  | reserve plan slot binding now admitted absent admits permitted =>
    refine ⟨hcurrent, le_max_of_le_right ?_⟩
    obtain rfl := Option.some.inj (hcurrent.symm.trans admits.offered)
    have hput := used_put holds amount ledger
      (reservation plan slot binding now)
    have habsent : ledger.get (reservation plan slot binding now).plan.attemptId = none := absent
    have hshare : share holds amount (reservation plan slot binding now) ≤
        amount plan.job.limits := by
      unfold share
      split_ifs
      · exact le_refl _
      · exact Nat.zero_le _
    have hadmitted := hadmits plan slot now offer admits
    rw [habsent] at hput
    calc ((ledger.put (reservation plan slot binding now)).holdDevices plan.attemptId
          plan.job.limits.gpuDevices).used holds amount
        = (ledger.put (reservation plan slot binding now)).used holds amount := rfl
      _ = ledger.used holds amount + share holds amount (reservation plan slot binding now) := hput
      _ ≤ amount offer.limits := by omega
  | reject plan now observation absent unblocked permitted =>
    refine ⟨hcurrent, le_max_of_le_left ?_⟩
    have hput := used_put holds amount ledger
      (ledger.rejected plan now observation)
    have habsent : ledger.get (ledger.rejected plan now observation).plan.attemptId = none := absent
    have hshare : share holds amount (ledger.rejected plan now observation) = 0 :=
      if_neg (hnone _ rfl)
    rw [habsent, hshare] at hput
    exact hput.le
  | move moved old move found allowed permitted =>
    refine ⟨by rw [offer_perform, hcurrent], le_max_of_le_left ?_⟩
    have hput := used_put holds amount ledger (move.apply old)
    rw [Move.apply_plan, hl.key found, found] at hput
    have hshare : share holds amount (move.apply old) ≤ share holds amount old := by
      unfold share
      by_cases hholds : holds (move.apply old)
      · have hbefore := hmove old move (hreserved.sound found) (hpermits _ permitted) hholds
        simp [hholds, hbefore, Value.limits]
      · simp [hholds]
    rw [used_perform]
    have hsum : (ledger.put (move.apply old)).used holds amount + share holds amount old =
        ledger.used holds amount + share holds amount (move.apply old) := hput
    omega

/-- The bounds that an offer sets, relative to what is used already. -/
def Within (before after : Ledger) (offer : Offer) : Prop :=
  (∀ amount ∈ executionAmounts, after.used Value.Running amount ≤
    max (before.used Value.Running amount) (amount offer.limits)) ∧
  ∀ amount ∈ storageAmounts, after.used Value.Held amount ≤
    max (before.used Value.Held amount) (amount offer.limits)

omit [Hash Plan] in
theorem Within.refl (ledger : Ledger) (offer : Offer) : Within ledger ledger offer :=
  ⟨fun _ _ => le_max_left _ _, fun _ _ => le_max_left _ _⟩

omit [Hash Plan] in
theorem Within.trans {first second third : Ledger} {offer : Offer} (h₁ : Within first second offer)
    (h₂ : Within second third offer) : Within first third offer := by
  refine ⟨fun amount hamount => ?_, fun amount hamount => ?_⟩
  · exact (h₂.1 amount hamount).trans (max_le (h₁.1 amount hamount) (le_max_right _ _))
  · exact (h₂.2 amount hamount).trans (max_le (h₁.2 amount hamount) (le_max_right _ _))

theorem Change.within (hpermits : ∀ event, permits event → Careful event)
    (hoffer : ∀ offer, ¬permits (.offer offer)) (hl : ledger.Bound) (hreserved : ledger.Reserved)
    (h : Change permits ledger ledger') {offer : Offer} (hcurrent : ledger.offer = some offer) :
    ledger'.offer = some offer ∧ Within ledger ledger' offer := by
  have hexecution : ∀ amount ∈ executionAmounts, ledger'.offer = some offer ∧
      ledger'.used Value.Running amount ≤
        max (ledger.used Value.Running amount) (amount offer.limits) := fun amount hamount =>
    h.used_le hpermits hoffer hl hreserved (fun _ hslot hrunning => hrunning.1 hslot)
      (fun _ _ hsound hcareful hrunning => ((hsound.running_apply hcareful).mp hrunning).1)
      (fun _ _ _ _ hadmits => hadmits.execution amount hamount) hcurrent
  have hstorage : ∀ amount ∈ storageAmounts, ledger'.offer = some offer ∧
      ledger'.used Value.Held amount ≤
        max (ledger.used Value.Held amount) (amount offer.limits) := fun amount hamount =>
    h.used_le hpermits hoffer hl hreserved (fun _ hslot hheld => hheld hslot)
      (fun _ _ _ _ hheld => Move.held_of_held_apply hheld)
      (fun _ _ _ _ hadmits => hadmits.storage amount hamount) hcurrent
  exact ⟨(hexecution Limits.cpuMillis (by simp [executionAmounts])).1,
    fun amount hamount => (hexecution amount hamount).2,
    fun amount hamount => (hstorage amount hamount).2⟩

theorem Changes.within (hpermits : ∀ event, permits event → Careful event)
    (hoffer : ∀ offer, ¬permits (.offer offer)) (hl : ledger.Bound) (hreserved : ledger.Reserved)
    (h : Changes permits ledger ledger') {offer : Offer} (hcurrent : ledger.offer = some offer) :
    ledger'.offer = some offer ∧ Within ledger ledger' offer := by
  induction h with
  | refl => exact ⟨hcurrent, Within.refl ledger offer⟩
  | tail hfirst hlast ih =>
    obtain ⟨hkept, hwithin⟩ := hlast.within hpermits hoffer (Changes.bound hl hfirst)
      (Changes.reserved hpermits hl hreserved hfirst) ih.1
    exact ⟨hkept, ih.2.trans hwithin⟩

end Amounts

end Ledger

namespace Supervisor

variable [Hash Plan] {s s' : Supervisor}

/-- The executor's invariant with its reservations. -/
structure Consistent (s : Supervisor) : Prop extends s.Invariant where
  reserved : s.ledger.Reserved

theorem consistent_install (settings : Settings) (identity : Identity) :
    (install settings identity).Consistent where
  toInvariant := invariant_install settings identity
  reserved := by
    refine ⟨fun hget => ?_, fun hget => ?_, ?_⟩
    · simp [install, opened, Ledger.create, Ledger.get] at hget
    · simp [install, opened, Ledger.create, Ledger.get] at hget
    · simp [install, opened, Ledger.create, Ledger.get]

theorem consistent_step (s : Supervisor) (operation : Operation) (h : s.Consistent) :
    (s.step operation).Consistent where
  toInvariant := invariant_step s operation h.toInvariant
  reserved := (advances_step h.toInvariant operation).changes.reserved
    (fun _ => careful_of_permits) h.ledger.bound h.reserved

/-- The action replaces the local offer. -/
def Operation.ChangesOffer : Operation → Prop
  | .setOffer _ _ _ => True
  | _ => False

theorem within_step {operation : Operation} (h : s.Consistent) (hkeeps : ¬operation.ChangesOffer)
    {offer : Offer} (hoffer : s.ledger.offer = some offer) :
    (s.step operation).ledger.offer = some offer ∧
      Ledger.Within s.ledger (s.step operation).ledger offer := by
  refine (advances_step h.toInvariant operation).changes.within (fun _ => careful_of_permits) ?_
    h.ledger.bound h.reserved hoffer
  intro new hpermitted
  cases operation with
  | setOffer settings control expected => exact hkeeps trivial
  | _ => exact hpermitted

/-- Between two changes of the offer the resources are used within it, or no more than at the
first of the two. -/
theorem within_run (h : s.Consistent) {later : List Operation}
    (hkeeps : ∀ operation ∈ later, ¬operation.ChangesOffer) {offer : Offer}
    (hoffer : s.ledger.offer = some offer) :
    Ledger.Within s.ledger (run step s later).ledger offer := by
  induction later generalizing s with
  | nil => exact .refl s.ledger offer
  | cons operation later ih =>
    obtain ⟨hkept, hwithin⟩ := within_step h (hkeeps operation List.mem_cons_self) hoffer
    exact hwithin.trans (ih (consistent_step s operation h)
      (fun other hother => hkeeps other (List.mem_cons_of_mem _ hother)) hkept)

/-- A preparation whose admission fails writes at most the rejection of its own attempt. -/
theorem prepare_of_refused {admission : Admission} {probe : Slot → Except Error Binding}
    {admitAt rejectAt : Reading} {e : Error}
    (h : s.tryAdmit admission probe admitAt = .error e) :
    (s.step (.prepare admission probe admitAt rejectAt)).ledger.devices = s.ledger.devices ∧
      ∀ id ≠ admission.plan.attemptId,
        (s.step (.prepare admission probe admitAt rejectAt)).ledger.attempts.lookup id =
          s.ledger.attempts.lookup id := by
  simp only [step, after]
  cases hprepare : s.prepare admission probe admitAt rejectAt with
  | error _ => exact ⟨rfl, fun _ _ => rfl⟩
  | ok returned =>
    obtain ⟨value, next⟩ := returned
    simp only [prepare, bind_eq_ok] at hprepare
    obtain ⟨-, -, hprepare⟩ := hprepare
    split_ifs at hprepare with hknown
    · simp only [bind_eq_ok, Except.ok.injEq, Prod.mk.injEq] at hprepare
      obtain ⟨_, -, -, rfl⟩ := hprepare
      exact ⟨rfl, fun _ _ => rfl⟩
    · rw [h] at hprepare
      simp only at hprepare
      split_ifs at hprepare with hcaught
      simp only [bind_eq_ok, Prod.exists, Except.ok.injEq, Prod.mk.injEq] at hprepare
      obtain ⟨rejected, ledger, hreject, rfl, rfl⟩ := hprepare
      rcases Ledger.reject_eq_ok hreject with ⟨-, rfl⟩ | ⟨-, -, rfl, rfl⟩
      · exact ⟨rfl, fun _ _ => rfl⟩
      · exact ⟨rfl, fun id hne => AList.lookup_insert_ne hne⟩

/-- In every run of the executor no two attempts hold one slot, an attempt holds a slot exactly
when it is neither released nor rejected, and the device table lists exactly the devices of the
attempts that hold a slot without confirmed cleanup. From any state until the next change of the
offer, each sum of resources stays at most the larger of its value in that state and the limit of
the offer. A preparation whose admission fails changes no other attempt and no device. -/
theorem reservations_of_run (settings : Settings) (identity : Identity)
    (operations : List Operation) :
    let s := run step (install settings identity) operations
    (∀ (id other : Identity) (row row' : Row), s.ledger.attempts.lookup id = some row →
      s.ledger.attempts.lookup other = some row' → other ≠ id → row.slot ≠ none →
      row'.slot ≠ row.slot) ∧
    (∀ (id : Identity) (row : Row), s.ledger.attempts.lookup id = some row →
      row.slot = row.value.slot ∧
      (row.slot ≠ none ↔ row.value.state ≠ .released ∧ row.value.admissionRejection = none)) ∧
    (∀ (device : String) (id : Identity), s.ledger.devices.lookup device = some id ↔
      ∃ value, s.ledger.get id = some value ∧ value.slot ≠ none ∧
        value.cleanupConfirmed = false ∧ device ∈ value.plan.job.limits.gpuDevices) ∧
    (∀ (later : List Operation) (offer : Offer), s.ledger.offer = some offer →
      (∀ operation ∈ later, ¬operation.ChangesOffer) →
      (∀ amount ∈ executionAmounts, (run step s later).ledger.used Value.Running amount ≤
        max (s.ledger.used Value.Running amount) (amount offer.limits)) ∧
      ∀ amount ∈ storageAmounts, (run step s later).ledger.used Value.Held amount ≤
        max (s.ledger.used Value.Held amount) (amount offer.limits)) ∧
    ∀ (admission : Admission) (probe : Slot → Except Error Binding) (admitAt rejectAt : Reading)
      (e : Error), s.tryAdmit admission probe admitAt = .error e →
      (s.step (.prepare admission probe admitAt rejectAt)).ledger.devices = s.ledger.devices ∧
      ∀ id ≠ admission.plan.attemptId,
        (s.step (.prepare admission probe admitAt rejectAt)).ledger.attempts.lookup id =
          s.ledger.attempts.lookup id := by
  intro s
  have h : s.Consistent := run_invariant consistent_step (consistent_install settings identity)
    operations
  have hget : ∀ {id row}, s.ledger.attempts.lookup id = some row →
      s.ledger.get id = some row.value ∧ row.slot = row.value.slot := by
    intro id row hrow
    refine ⟨by rw [Ledger.get, hrow, Option.map_some], ?_⟩
    rw [h.ledger.bound.row hrow]
    rfl
  refine ⟨?_, ?_, ?_, ?_, ?_⟩
  · intro id other row row' hrow hrow' hne hslot
    rw [(hget hrow).2] at hslot ⊢
    rw [(hget hrow').2]
    exact h.reserved.slots (hget hrow).1 (hget hrow').1 hne hslot
  · intro id row hrow
    refine ⟨(hget hrow).2, ?_⟩
    rw [(hget hrow).2]
    exact (h.reserved.sound (hget hrow).1).slot
  · intro device id
    rw [h.reserved.devices]
    simp only [Value.Running, Value.Held, Value.limits, and_assoc]
  · intro later offer hoffer hkeeps
    exact within_run h hkeeps hoffer
  · intro admission probe admitAt rejectAt e he
    exact prepare_of_refused he

end Supervisor

/-! ## A small installation

One slot, one provider and jobs that differ in their processor share. The digest of a plan is its
attempt identity, which tells the plans below apart as a real digest does. -/

namespace Sample

/-- The digest of a plan of the sample installation. -/
@[reducible]
def hash : Hash Plan := ⟨fun plan => plan.attemptId.setWidth 256⟩

/-- Limits with the given processor share. -/
def limits (cpuMillis : ℕ) : Limits :=
  { cpuMillis, memoryBytes := 1, swapBytes := 0, processes := 1, storageBytes := 1
    storageInodes := 1, gpuDevices := [], devices := List.nodup_nil }

/-- The installed runtime. -/
def runtime : Runtime := ⟨"engine", 1, 2, "unit", "none"⟩

/-- A job with the given processor share. -/
def job (cpuMillis : ℕ) : Job :=
  { name := "job", runtime, payload := ⟨["/bin/true"], ∅⟩, limits := limits cpuMillis
    inputs := [], outputs := [], sensitive := false, endpoint := none }

/-- The settings of an offer with the given processor share. -/
def offerSettings (cpuMillis : ℕ) : OfferSettings :=
  { projects := [1], runtimes := [runtime], limits := limits cpuMillis, scheduleUtc := []
    acceptSensitive := false }

/-- The installation. -/
def settings : Settings :=
  { installationId := 1, deploymentId := 1, nodeId := 1, mode := .managed
    maximumLeaseSeconds := 30, ceiling := offerSettings 4
    initialOffer := { offerSettings 4 with revision := 1, mode := .managed, control := .active }
    slots := [⟨"slot", 1, 1, 1⟩], providers := [⟨"engine", 1⟩]
    lease_pos := by decide, initial := ⟨rfl, rfl⟩, slots_distinct := by decide }

/-- The plan of an attempt. -/
def plan (attemptId jobId : Identity) (generation cpuMillis : ℕ) : Plan :=
  { version := 1, deploymentId := 1, nodeId := 1, projectId := 1, subjectId := 1, jobId, attemptId
    generation, offerRevision := 1, policyRevision := 0, job := job cpuMillis }

/-- The binding that the probe of the slot returns. -/
def binding (slot : Slot) : Binding := ⟨slot.id, slot.generation, "1", 1, 2, "uuid", 1, 1, 1000, 1000⟩

/-- A reading of the clock at a wall time. -/
def reading (wall : ℕ) : Reading := ⟨wall, wall * 1000000000, 1⟩

/-- A lease of a plan. -/
def lease (plan : Plan) (sequence expiresAt : ℕ) (hsequence : 1 ≤ sequence)
    (hexpires : 0 < expiresAt) : Renewal :=
  { @Plan.fence hash plan with
    sequence, expiresAt, sequence_pos := hsequence, expiresAt_pos := by exact_mod_cast hexpires }

theorem lease_pos : 0 < 110 := by decide

/-- A plan with its first lease. -/
def admission (plan : Plan) (expiresAt : ℕ) (hexpires : 0 < expiresAt) : @Admission hash :=
  letI := hash
  { plan, lease := lease plan 1 expiresAt Nat.one_pos hexpires, bound := rfl, first := rfl }

end Sample

/-- The sums can exceed an offer that was reduced while an attempt held its resources. -/
theorem Supervisor.not_used_le_reducedOffer :
    ¬∀ [Hash Plan] (settings : Settings) (identity : Identity)
      (operations : List Supervisor.Operation) (offer : Offer),
      (run Supervisor.step (Supervisor.install settings identity) operations).ledger.offer =
        some offer →
      ∀ amount ∈ executionAmounts,
        (run Supervisor.step (Supervisor.install settings identity) operations).ledger.used
          Value.Running amount ≤ amount offer.limits := by
  intro hclaim
  let _ := Sample.hash
  -- An attempt with three processors is admitted, and then the offer shrinks to two.
  have hsum := hclaim Sample.settings 7
    [.prepare (Sample.admission (Sample.plan 5 6 1 3) 110 (by decide))
      (fun slot => .ok (Sample.binding slot)) (Sample.reading 100) (Sample.reading 100),
      .setOffer (Sample.offerSettings 2) .active 1]
    { Sample.offerSettings 2 with revision := 2, mode := .managed, control := .active }
    (by decide +kernel) Limits.cpuMillis (by simp [executionAmounts])
  revert hsum
  decide +kernel

end Ficc.Execution
