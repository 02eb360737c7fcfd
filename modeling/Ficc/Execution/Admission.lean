import Ficc.Execution.Reservations
import Ficc.Execution.Snapshot

/-!
# When a plan is admitted

The converse of the specifications of `reserve` and `admit`: a plan that passes the guards of
`Admits` is reserved. With them `prepare` is described completely: it reserves a plan exactly
when the ledger does not know the attempt, the smallest slot that suits the job can be probed,
and the guards hold with that slot.
-/

namespace Ficc.Execution

namespace Ledger

variable [Hash Plan] {ledger : Ledger} {plan : Plan} {value : Value}

omit [Hash Plan] in
theorem insertDevices_ok {identity : Identity} {devices : List String} (hnodup : devices.Nodup)
    (hfree : ∀ device ∈ devices, ledger.devices.lookup device = none) :
    ledger.insertDevices identity devices = .ok (ledger.holdDevices identity devices) := by
  induction devices generalizing ledger with
  | nil => rfl
  | cons device devices ih =>
    obtain ⟨hfirst, hrest⟩ := List.nodup_cons.mp hnodup
    have hdevice : ledger.devices.lookup device = none := hfree device List.mem_cons_self
    have hothers : ∀ other ∈ devices,
        (ledger.devices.insert device identity).lookup other = none := by
      intro other hother
      have hne : other ≠ device := by
        rintro rfl
        exact hfirst hother
      rw [Table.lookup_insert_eq, if_neg hne]
      exact hfree other (List.mem_cons_of_mem device hother)
    simp only [insertDevices, bind_eq_ok, raiseIf_eq_ok, exists_const, not_not]
    exact ⟨hdevice, ih hrest hothers⟩

/-- The columns of a row are those of its record. -/
theorem Bound.get_of_mem_values (hl : ledger.Bound) {row : Row} (h : row ∈ ledger.attempts.values) :
    (∃ id, ledger.get id = some row.value) ∧ row = Row.insert row.value := by
  obtain ⟨id, hrow⟩ := Table.mem_values.mp h
  exact ⟨⟨id, by rw [get, hrow]; rfl⟩, hl.row hrow⟩

theorem insertRow_ok (hl : ledger.Bound) (hfresh : ledger.get value.plan.attemptId = none)
    (hslot : ∀ id item, ledger.get id = some item → item.slot ≠ value.slot)
    (hjob : ∀ id item, ledger.get id = some item → item.plan.jobId = value.plan.jobId →
      item.plan.generation ≠ value.plan.generation) :
    ledger.insertRow value = .ok (ledger.put value) := by
  simp only [insertRow, bind_eq_ok, raiseIf_eq_ok, exists_const, not_not]
  refine ⟨?_, ?_, ?_, rfl⟩
  · simpa [get] using hfresh
  · rintro ⟨-, row, hrow, hsame⟩
    obtain ⟨⟨id, hget⟩, hcolumns⟩ := hl.get_of_mem_values hrow
    rw [hcolumns] at hsame
    exact hslot id row.value hget hsame
  · rintro ⟨row, hrow, hjobId, hgeneration⟩
    obtain ⟨⟨id, hget⟩, hcolumns⟩ := hl.get_of_mem_values hrow
    rw [hcolumns] at hjobId hgeneration
    exact hjob id row.value hget hjobId hgeneration

/-- A plan that passes the guards is reserved. -/
theorem reserve_ok (hl : ledger.Bound) {slot : String} {binding : Binding} {now : ℚ}
    {offer : Offer} (hfresh : ledger.get plan.attemptId = none)
    (h : ledger.Admits plan slot now offer) :
    ledger.reserve plan slot binding now = .ok (reservation plan slot binding now,
      (ledger.put (reservation plan slot binding now)).holdDevices plan.attemptId
        plan.job.limits.gpuDevices) := by
  have hrow : ledger.insertRow (reservation plan slot binding now) =
      .ok (ledger.put (reservation plan slot binding now)) := by
    refine insertRow_ok hl hfresh h.slot_free fun id item hitem hjob => ?_
    exact (h.unblocked id item hitem hjob).2.ne
  have hdevices : (ledger.put (reservation plan slot binding now)).insertDevices plan.attemptId
      plan.job.limits.gpuDevices =
      .ok ((ledger.put (reservation plan slot binding now)).holdDevices plan.attemptId
        plan.job.limits.gpuDevices) :=
    insertDevices_ok plan.job.limits.devices h.devices_free
  simp only [reserve, hfresh, bind_eq_ok, raiseIf_eq_ok, orRaise_eq_ok, exists_const, not_not,
    unblocked_iff]
  refine ⟨offer, h.offered, h.revision, h.accepted, h.unblocked, ?_, ?_, ?_, ?_, _, hrow, _,
    hdevices, rfl⟩
  · rintro ⟨item, hitem, hsame⟩
    obtain ⟨id, hget⟩ := mem_all.mp hitem
    exact h.slot_free id item hget hsame
  · rintro ⟨amount, hamount, hover⟩
    exact absurd (h.execution amount hamount) (not_le.mpr hover)
  · rintro ⟨amount, hamount, hover⟩
    exact absurd (h.storage amount hamount) (not_le.mpr hover)
  · rintro ⟨device, hdevice, htaken⟩
    exact htaken (h.devices_free device hdevice)

theorem save_ok (hl : ledger.Bound) {value' : Value} {id : Identity}
    (hget : ledger.get id = some value) (hplan : value'.plan = value.plan)
    (hslot : ∀ other item, ledger.get other = some item → other ≠ id → item.slot ≠ value'.slot) :
    ∃ ledger', ledger.save value' = .ok ledger' := by
  obtain ⟨row, hrow, rfl⟩ := Option.map_eq_some_iff.mp hget
  have hlookup : ledger.attempts.lookup value'.plan.attemptId = some row := by
    rw [hplan, hl.key hget, hrow]
  refine ⟨{ ledger with
    attempts := ledger.attempts.insert value'.plan.attemptId (row.update value') }, ?_⟩
  simp only [save, hlookup, bind_eq_ok, raiseIf_eq_ok, exists_const, and_true]
  rintro ⟨-, other, hother, hne, hsame⟩
  rw [hplan, hl.key hget] at hne
  have hlookup := Table.mem_rows.mp hother
  have hcolumn : other.2.slot = other.2.value.slot := by
    rw [hl.row hlookup]
    rfl
  exact hslot other.1 other.2.value (by rw [get, hlookup]; rfl) hne (by rw [← hcolumn, hsame])

/-- A plan that passes the guards is admitted with a lease that gets a deadline. -/
theorem admitPlan_ok (hl : ledger.Bound) {admission : Admission} {slot : String} {binding : Binding}
    {now : Reading} {maximumSeconds : ℚ} {offer : Offer} {timing : Timing}
    (hfresh : ledger.get admission.plan.attemptId = none)
    (h : ledger.Admits admission.plan slot now.wall offer)
    (hdeadline : deadline admission.lease.expiresAt now maximumSeconds = .ok timing) :
    ∃ value ledger', ledger.admitPlan admission slot binding now maximumSeconds =
      .ok ((value, true), ledger') := by
  set reserved := reservation admission.plan slot binding now.wall with hreserved
  set middle := (ledger.put reserved).holdDevices admission.plan.attemptId
    admission.plan.job.limits.gpuDevices with hmiddle
  have hbound : middle.Bound := (hl.put rfl).of_attempts rfl
  have hget : middle.get admission.plan.attemptId = some reserved := by
    rw [hmiddle, get_holdDevices, get_put]
    exact if_pos rfl
  have hfence : middle.fenced admission.lease.toFence = .ok reserved := by
    rw [admission.bound]
    exact fenced_eq_ok.mpr ⟨hget, rfl, rfl⟩
  -- The sums with the new reservation are those that its guards computed.
  have hused : ∀ amount ∈ executionAmounts, middle.used Value.Running amount ≤ amount offer.limits := by
    intro amount hamount
    have hput : (ledger.put reserved).used Value.Running amount +
        (ledger.get reserved.plan.attemptId).elim 0 (share Value.Running amount) =
        ledger.used Value.Running amount + share Value.Running amount reserved :=
      used_put Value.Running amount ledger reserved
    have hnone : ledger.get reserved.plan.attemptId = none := hfresh
    have hshare : share Value.Running amount reserved ≤ amount admission.plan.job.limits := by
      unfold share
      split_ifs
      · exact le_refl _
      · exact Nat.zero_le _
    have hguard := h.execution amount hamount
    have hsame : middle.used Value.Running amount = (ledger.put reserved).used Value.Running amount :=
      rfl
    rw [hnone, Option.elim_none] at hput
    omega
  obtain ⟨saved, hsave⟩ : ∃ saved,
      middle.save ((Move.renew admission.lease timing).apply reserved) = .ok saved := by
    refine save_ok hbound hget rfl fun other item hitem hne => ?_
    rw [hmiddle, get_holdDevices, get_put] at hitem
    have hother : ledger.get other = some item := (if_neg hne).symm.trans hitem
    exact h.slot_free other item hother
  have hrenew : middle.renew admission.lease now maximumSeconds =
      .ok ((Move.renew admission.lease timing).apply reserved, saved) := by
    simp only [renew, bind_eq_ok, raiseIf_eq_ok, orRaise_eq_ok, exists_const, not_not]
    refine ⟨reserved, hfence, by simp [hreserved, reservation], by simp [hreserved, reservation],
      offer, h.offered, Offer.refusal_continuing h.accepted, ?_, ?_⟩
    · rintro ⟨amount, hamount, hover⟩
      exact absurd (hused amount hamount) (not_le.mpr hover)
    · have hlater : ¬admission.lease.sequence ≤ reserved.leaseSequence := by
        rw [admission.first]
        exact Nat.not_succ_le_zero 0
      rw [if_neg hlater, hdeadline]
      simp only [bind_eq_ok]
      exact ⟨saved, hsave, rfl⟩
  refine ⟨(Move.renew admission.lease timing).apply reserved, saved, ?_⟩
  simp only [admitPlan, bind_eq_ok, Prod.exists]
  refine ⟨reserved, middle, reserve_ok hl hfresh h, ?_⟩
  rw [hfresh]
  simp only [Option.isNone_none, if_true, bind_eq_ok, Prod.exists]
  exact ⟨_, saved, hrenew, rfl⟩

end Ledger

section Slots

theorem Slot.Precedes.trans {a b c : Slot} (h₁ : a.Precedes b) (h₂ : b.Precedes c) :
    a.Precedes c := by
  unfold Precedes at *
  rcases h₁ with h₁ | ⟨h₁, h₁' | ⟨h₁', h₁''⟩⟩ <;> rcases h₂ with h₂ | ⟨h₂, h₂' | ⟨h₂', h₂''⟩⟩
  · exact .inl (by omega)
  · exact .inl (by omega)
  · exact .inl (by omega)
  · exact .inl (by omega)
  · exact .inr ⟨by omega, .inl (by omega)⟩
  · exact .inr ⟨by omega, .inl (by omega)⟩
  · exact .inl (by omega)
  · exact .inr ⟨by omega, .inl (by omega)⟩
  · exact .inr ⟨by omega, .inr ⟨by omega, String.le_trans h₁'' h₂''⟩⟩

theorem Slot.Precedes.total (a b : Slot) : a.Precedes b ∨ b.Precedes a := by
  unfold Precedes
  rcases lt_trichotomy a.storageBytes b.storageBytes with h | h | h
  · exact .inl (.inl h)
  · rcases lt_trichotomy a.storageInodes b.storageInodes with h' | h' | h'
    · exact .inl (.inr ⟨h, .inl h'⟩)
    · rcases String.le_total a.id b.id with h'' | h''
      · exact .inl (.inr ⟨h, .inr ⟨h', h''⟩⟩)
      · exact .inr (.inr ⟨h.symm, .inr ⟨h'.symm, h''⟩⟩)
    · exact .inr (.inr ⟨h.symm, .inl h'⟩)
  · exact .inr (.inl h)

theorem Slot.Precedes.id_eq {a b : Slot} (h₁ : a.Precedes b) (h₂ : b.Precedes a) :
    a.id = b.id := by
  unfold Precedes at *
  rcases h₁ with h₁ | ⟨h₁, h₁' | ⟨h₁', h₁''⟩⟩ <;> rcases h₂ with h₂ | ⟨h₂, h₂' | ⟨h₂', h₂''⟩⟩
  all_goals first | omega | exact String.le_antisymm h₁'' h₂''

end Slots

namespace Supervisor

/-- The slot is free, bounded by what the job admits, and large enough for its inputs. -/
def Suits (s : Supervisor) (job : Job) (slot : Slot) : Prop :=
  some slot.id ∉ s.ledger.retained.map Value.slot ∧
    slot.storageBytes ≤ job.limits.storageBytes ∧ slot.storageInodes ≤ job.limits.storageInodes ∧
    job.inputBytes ≤ slot.storageBytes

/-- The slot is the smallest one that suits the job. -/
def Foremost (s : Supervisor) (job : Job) (slot : Slot) : Prop :=
  slot ∈ s.settings.slots ∧ s.Suits job slot ∧
    ∀ other ∈ s.settings.slots, s.Suits job other → slot.Precedes other

variable {s : Supervisor}

theorem mem_choices {job : Job} {slot : Slot} :
    slot ∈ s.choices job ↔ slot ∈ s.settings.slots ∧ s.Suits job slot := by
  simp [choices, Suits, List.mem_insertionSort]

/-- The slot that is tried is the smallest one that suits the job. -/
theorem head_choices {job : Job} {slot : Slot} :
    (s.choices job).head? = some slot ↔ s.Foremost job slot := by
  have : IsTrans Slot Slot.Precedes := ⟨fun _ _ _ => Slot.Precedes.trans⟩
  have : Std.Total Slot.Precedes := ⟨Slot.Precedes.total⟩
  have hsorted : (s.choices job).Pairwise Slot.Precedes := List.pairwise_insertionSort _ _
  cases hchoices : s.choices job with
  | nil =>
    simp only [List.head?_nil, reduceCtorEq, false_iff]
    rintro ⟨hslot, hsuits, -⟩
    have hmem := mem_choices.mpr ⟨hslot, hsuits⟩
    rw [hchoices] at hmem
    exact absurd hmem List.not_mem_nil
  | cons first rest =>
    rw [hchoices] at hsorted
    obtain ⟨hfirst, -⟩ := List.pairwise_cons.mp hsorted
    have hmem : first ∈ s.settings.slots ∧ s.Suits job first :=
      mem_choices.mp (by rw [hchoices]; exact List.mem_cons_self)
    have hleast : ∀ other ∈ s.settings.slots, s.Suits job other → first.Precedes other := by
      intro other hother hsuits
      have hin := mem_choices.mpr ⟨hother, hsuits⟩
      rw [hchoices, List.mem_cons] at hin
      obtain rfl | hin := hin
      · exact .inr ⟨rfl, .inr ⟨rfl, String.le_refl _⟩⟩
      · exact hfirst other hin
    simp only [List.head?_cons, Option.some.injEq]
    constructor
    · rintro rfl
      exact ⟨hmem.1, hmem.2, hleast⟩
    · rintro ⟨hslot, hsuits, hprecedes⟩
      -- Slots that precede each other have one identity, and identities are distinct.
      have hid := (hleast slot hslot hsuits).id_eq (hprecedes first hmem.1 hmem.2)
      exact List.inj_on_of_nodup_map s.settings.slots_distinct hmem.1 hslot hid

variable [Hash Plan]

/-- Preparing the plan creates a prepared reservation. -/
def Prepares (s : Supervisor) (admission : Admission) (probe : Slot → Except Error Binding)
    (admitAt rejectAt : Reading) : Prop :=
  s.ledger.get admission.plan.attemptId = none ∧
    ∃ value s', s.prepare admission probe admitAt rejectAt = .ok (value, s') ∧
      s'.ledger.get admission.plan.attemptId = some value ∧ value.state = .prepared ∧
      value.slot ≠ none ∧ value.admissionRejection = none

omit [Hash Plan] in
@[simp]
theorem ledger_queuePreparation (value : Value) : (s.queuePreparation value).ledger = s.ledger := by
  unfold queuePreparation
  split_ifs <;> rfl

/-- A plan is prepared exactly when its attempt is new, the smallest slot that suits the job can
be probed, the guards of the ledger hold with that slot, and the lease gets a deadline. -/
theorem prepares_iff (hl : s.ledger.Bound) {admission : Admission}
    {probe : Slot → Except Error Binding} {admitAt rejectAt : Reading}
    (hidentity : s.settings.checkIdentity admission.plan = .ok ()) :
    s.Prepares admission probe admitAt rejectAt ↔
      s.ledger.get admission.plan.attemptId = none ∧
      ∃ slot binding offer timing, s.Foremost admission.plan.job slot ∧ probe slot = .ok binding ∧
        s.ledger.Admits admission.plan slot.id admitAt.wall offer ∧
        deadline admission.lease.expiresAt admitAt s.settings.maximumLeaseSeconds = .ok timing := by
  constructor
  · rintro ⟨hfresh, value, s', hprepare, hget, hstate, hslot, hrejection⟩
    refine ⟨hfresh, ?_⟩
    simp only [prepare, hidentity, hfresh, Option.isSome_none, Bool.false_eq_true, if_false,
      bind_eq_ok] at hprepare
    obtain ⟨_, -, hprepare⟩ := hprepare
    cases htry : s.tryAdmit admission probe admitAt with
    | ok result =>
      obtain ⟨⟨admitted, fresh⟩, ledger⟩ := result
      simp only [tryAdmit, bind_eq_ok, orRaise_eq_ok] at htry
      obtain ⟨slot, hhead, binding, hprobe, hadmitted⟩ := htry
      obtain ⟨-, hknown, -⟩ | ⟨-, -, ⟨offer, hadmits⟩, timing, htiming, -, -⟩ :=
        Ledger.admitPlan_eq_ok hl hadmitted
      · rw [hfresh] at hknown
        exact absurd hknown (by simp)
      · exact ⟨slot, binding, offer, timing, head_choices.mp hhead, hprobe, hadmits, htiming⟩
    | error e =>
      rw [htry] at hprepare
      -- A refused plan is fenced by a record with a rejection.
      by_cases hrefused : Refused e
      · simp only [if_pos hrefused, bind_eq_ok, Prod.exists, Except.ok.injEq,
          Prod.mk.injEq] at hprepare
        obtain ⟨rejected, ledger, hreject, rfl, rfl⟩ := hprepare
        obtain ⟨hfenced, -⟩ | ⟨-, -, rfl, -⟩ := Ledger.reject_eq_ok hreject
        · have hknown := (Ledger.fenced_eq_ok.mp hfenced).1
          rw [Plan.fence_attemptId, hfresh] at hknown
          exact absurd hknown (by simp)
        · exact absurd hrejection (by simp [Ledger.rejected])
      · simp only [if_neg hrefused, reduceCtorEq] at hprepare
  · rintro ⟨hfresh, slot, binding, offer, timing, hforemost, hprobe, hadmits, htiming⟩
    obtain ⟨value, ledger, hadmitted⟩ :
        ∃ value ledger, s.ledger.admitPlan admission slot.id binding admitAt
          s.settings.maximumLeaseSeconds = .ok ((value, true), ledger) :=
      Ledger.admitPlan_ok hl hfresh hadmits htiming
    have htry : s.tryAdmit admission probe admitAt = .ok ((value, true), ledger) := by
      simp only [tryAdmit, bind_eq_ok, orRaise_eq_ok]
      exact ⟨slot, head_choices.mpr hforemost, binding, hprobe, hadmitted⟩
    have hprepare : s.prepare admission probe admitAt rejectAt =
        .ok (value, ({ s with ledger } : Supervisor).queuePreparation value) := by
      simp only [prepare, hidentity, hfresh, htry, Option.isSome_none, Bool.false_eq_true,
        if_false, if_true, bind_eq_ok]
      exact ⟨(), trivial, trivial⟩
    obtain ⟨hfalse, -⟩ | ⟨-, -, -, timing', -, rfl, rfl⟩ := Ledger.admitPlan_eq_ok hl hadmitted
    · exact absurd hfalse (by simp)
    · refine ⟨hfresh, _, _, hprepare, ?_, rfl, by simp [Move.apply, Ledger.reservation], rfl⟩
      rw [ledger_queuePreparation, Ledger.get_holdDevices, Ledger.get_put]
      exact if_pos rfl

end Supervisor

end Ficc.Execution
