import Ficc.Execution.Reservations
import Mathlib.Tactic.Linarith

/-!
# How long a lease lasts

An attempt runs only under a lease that the ledger has accepted for it. The lease is bound to the
boot time at which it was received, so setting the wall clock cannot prolong it: whatever the
readings of the clocks are, a record whose lease is active was given that lease in the same boot,
less than the permitted interval ago (`Ledger.active_within`).

A request that repeats the lease of a record is accepted too, while the lease is active, and
changes nothing. `Accepted` therefore tells the renewal that gave the lease from the renewals that
repeated it.
-/

namespace Ficc.Execution

/-- A deadline lies within the interval that was left until the wall expiry, which is within the
local limit. -/
theorem within_of_deadline {expiresAt maximumSeconds : ℚ} {now : Reading} {timing : Timing}
    (h : deadline expiresAt now maximumSeconds = .ok timing) :
    timing.leaseBootId = now.bootId ∧ timing.leaseReceivedNs = now.elapsedNs ∧
      (timing.leaseDeadlineNs : ℚ) ≤ now.elapsedNs + (expiresAt - now.wall) * 1000000000 ∧
      expiresAt ≤ now.wall + maximumSeconds := by
  simp only [deadline, bind_eq_ok, raiseIf_eq_ok, exists_const, Except.ok.injEq, not_or,
    not_not] at h
  obtain ⟨⟨-, -, hwithin⟩, hduration, rfl⟩ := h
  refine ⟨rfl, rfl, ?_, hwithin⟩
  -- The nanoseconds are rounded down, and there are some left before the expiry.
  have hcast : ((((expiresAt - now.wall) * 1000000000).floor.toNat : ℕ) : ℚ) =
      (((expiresAt - now.wall) * 1000000000).floor : ℚ) := by
    exact_mod_cast congrArg (fun n : ℤ => (n : ℚ)) (Int.toNat_of_nonneg (not_le.mp hduration).le)
  have hfloor := Rat.floor_le ((expiresAt - now.wall) * 1000000000)
  show ((now.elapsedNs + ((expiresAt - now.wall) * 1000000000).floor.toNat : ℕ) : ℚ) ≤ _
  rw [Nat.cast_add, hcast]
  exact add_le_add (le_refl _) hfloor

/-- A renewal that the ledger has accepted, with the clocks at its receipt. -/
structure Accepted where
  request : Renewal
  received : Reading
  maximumSeconds : ℚ

namespace Accepted

/-- The renewal gave the record its lease. -/
structure Gave (given : Accepted) (value : Value) : Prop where
  sequence : value.leaseSequence = given.request.sequence
  expiresAt : value.leaseExpiresAt = given.request.expiresAt
  timing : ∃ timing, value.timing = some timing ∧
    deadline given.request.expiresAt given.received given.maximumSeconds = .ok timing

/-- The renewal repeated the lease of the record. -/
structure Repeated (again : Accepted) (value : Value) : Prop where
  sequence : value.leaseSequence = again.request.sequence
  expiresAt : value.leaseExpiresAt = again.request.expiresAt
  active : value.Active again.received

end Accepted

/-- The last of the accepted renewals that changed the lease of the record gave it, and all later
ones repeated it. -/
def Supported (accepted : List Accepted) (value : Value) : Prop :=
  ∃ earlier given repeats, accepted = earlier ++ given :: repeats ∧ given.Gave value ∧
    ∀ again ∈ repeats, again.Repeated value

/-- The lease of a record. -/
def Value.lease (value : Value) : ℕ × ℚ × Option Timing :=
  (value.leaseSequence, value.leaseExpiresAt, value.timing)

section Lease

variable {value value' : Value} {accepted : List Accepted}

theorem Supported.of_lease (h : Supported accepted value) (hlease : value'.lease = value.lease) :
    Supported accepted value' := by
  simp only [Value.lease, Prod.mk.injEq] at hlease
  obtain ⟨hsequence, hexpires, htiming⟩ := hlease
  obtain ⟨earlier, given, repeats, haccepted, hgave, hrepeats⟩ := h
  refine ⟨earlier, given, repeats, haccepted, ?_, fun again hagain => ?_⟩
  · exact ⟨hsequence.trans hgave.sequence, hexpires.trans hgave.expiresAt, htiming ▸ hgave.timing⟩
  · obtain ⟨hseq, hexp, hactive⟩ := hrepeats again hagain
    refine ⟨hsequence.trans hseq, hexpires.trans hexp, ?_⟩
    rwa [Value.Active, hsequence, hexpires, htiming]

/-- A repetition of the lease supports it further. -/
theorem Supported.again {again : Accepted} (h : Supported accepted value)
    (hagain : again.Repeated value) : Supported (accepted ++ [again]) value := by
  obtain ⟨earlier, given, repeats, rfl, hgave, hrepeats⟩ := h
  refine ⟨earlier, given, repeats ++ [again], by simp, hgave, fun other hother => ?_⟩
  rcases List.mem_append.mp hother with hother | hother
  · exact hrepeats other hother
  · obtain rfl := List.mem_singleton.mp hother
    exact hagain

/-- A new lease needs no earlier ones. -/
theorem Supported.anew (accepted : List Accepted) {given : Accepted} (hgave : given.Gave value) :
    Supported (accepted ++ [given]) value :=
  ⟨accepted, given, [], rfl, hgave, fun _ h => nomatch h⟩

/-- A move that is no renewal leaves the lease alone. -/
theorem Move.lease_apply {move : Move} (h : ¬(Event.move value move).Renews) :
    (move.apply value).lease = value.lease := by
  cases move with
  | annotate fields =>
    obtain ⟨runtime, engine, payload, stop, progress, heq⟩ :=
      AnnotatedField.foldl_apply fields value
    rw [Move.apply, heq]
    rfl
  | start => rfl
  | started binding => rfl
  | renew request timing => exact absurd trivial h
  | finish result => rfl
  | release => rfl
  | recover before binding observedAt =>
    simp only [Move.apply]
    split <;> rfl

end Lease

namespace Ledger

variable [Hash Plan] {ledger ledger' : Ledger}

/-- The renewal that an operation has accepted, if it has. -/
def accepts (ledger : Ledger) : Operation → Option Accepted
  | .renew request now maximumSeconds =>
    match ledger.renew request now maximumSeconds with
    | .ok _ => some ⟨request, now, maximumSeconds⟩
    | .error _ => none
  | .admitPlan admission slot binding now maximumSeconds =>
    match ledger.admitPlan admission slot binding now maximumSeconds with
    | .ok ((_, true), _) => some ⟨admission.lease, now, maximumSeconds⟩
    | _ => none
  | _ => none

/-- The renewals accepted in a run, in order. -/
def acceptances (ledger : Ledger) : List Operation → List Accepted
  | [] => []
  | operation :: operations =>
    (ledger.accepts operation).toList ++ acceptances (ledger.step operation) operations

/-- The renewals of one attempt. -/
def ofAttempt (id : Identity) (accepted : List Accepted) : List Accepted :=
  accepted.filter fun renewal => renewal.request.attemptId = id

/-- Every lease is supported by the accepted renewals of its attempt. -/
def Backed (ledger : Ledger) (accepted : List Accepted) : Prop :=
  ∀ (id : Identity) (value : Value), ledger.get id = some value → value.leaseSequence ≠ 0 →
    Supported (ofAttempt id accepted) value

omit [Hash Plan] in
theorem ofAttempt_append (id : Identity) (first second : List Accepted) :
    ofAttempt id (first ++ second) = ofAttempt id first ++ ofAttempt id second :=
  List.filter_append first second

variable {value' value : Value} {maximumSeconds : ℚ} {now : Reading}

/-- Without a renewal, a record keeps its lease or has none. -/
theorem lease_of_changes (hl : ledger.Bound)
    (h : Changes (fun event => ¬event.Renews) ledger ledger') {id : Identity}
    (hget : ledger'.get id = some value') :
    (∃ value, ledger.get id = some value ∧ value'.lease = value.lease) ∨
      value'.leaseSequence = 0 := by
  induction h generalizing value' with
  | refl => exact .inl ⟨value', hget, rfl⟩
  | tail hfirst hlast ih =>
    rcases hlast.backward (Changes.bound hl hfirst) hget with
      ⟨middle, hmiddle, hevolves⟩ | ⟨-, hinserted, -⟩
    · have hlease : value'.lease = middle.lease := by
        obtain rfl | ⟨move, -, hother, rfl⟩ := hevolves
        · rfl
        · exact Move.lease_apply hother
      obtain ⟨value, hvalue, hsame⟩ | hzero := ih hmiddle
      · exact .inl ⟨value, hvalue, hlease.trans hsame⟩
      · exact .inr ((congrArg Prod.fst hlease).trans hzero)
    · -- A record that a reservation or a rejection inserts has no lease.
      cases hinserted <;> exact .inr rfl

variable {accepted : List Accepted}

/-- An operation that accepts nothing keeps every lease supported. -/
theorem Backed.of_changes (hl : ledger.Bound) (h : ledger.Backed accepted)
    (hchanges : Changes (fun event => ¬event.Renews) ledger ledger') :
    ledger'.Backed accepted := by
  intro id value' hget hleased
  obtain ⟨value, hvalue, hlease⟩ | hzero := lease_of_changes hl hchanges hget
  · have hsequence : value'.leaseSequence = value.leaseSequence := congrArg Prod.fst hlease
    exact Supported.of_lease (h id value hvalue (hsequence ▸ hleased)) hlease
  · exact absurd hzero hleased

omit [Hash Plan] in
/-- An accepted renewal supports the record that it returns, and the other records are those of
before. -/
theorem Backed.append (h : ledger.Backed accepted) (renewal : Accepted)
    (hvalue : value.leaseSequence ≠ 0 → Supported (ofAttempt renewal.request.attemptId accepted ++ [renewal]) value)
    (hget : ∀ id, ledger'.get id = if id = renewal.request.attemptId then some value else ledger.get id)
    :
    ledger'.Backed (accepted ++ [renewal]) := by
  intro id other hother hleased
  rw [hget] at hother
  rw [ofAttempt_append]
  by_cases hid : id = renewal.request.attemptId
  · subst hid
    rw [if_pos rfl] at hother
    obtain rfl := Option.some.inj hother
    simpa [ofAttempt] using hvalue hleased
  · rw [if_neg hid] at hother
    simpa [ofAttempt, Ne.symm hid] using h id other hother hleased

omit [Hash Plan] in
/-- A renewal that gives no new lease repeats that of the record. -/
theorem repeated_of_renew {request : Renewal} (hfence : ledger.fenced request.toFence = .ok value)
    (hsame : request.sequence = value.leaseSequence)
    (h : ledger.renew request now maximumSeconds = .ok (value', ledger')) :
    (⟨request, now, maximumSeconds⟩ : Accepted).Repeated value := by
  simp only [renew, hfence, bind_eq_ok, raiseIf_eq_ok, exists_const, orRaise_eq_ok, not_not,
    Except.ok.injEq, exists_eq_left', hsame.le, if_true, not_and, not_or] at h
  obtain ⟨-, hactive, -, -, -, -, ⟨-, hexpires⟩, -⟩ := h
  have hpositive : value.leaseSequence ≠ 0 := by
    have := request.sequence_pos
    omega
  exact ⟨hsame.symm, hexpires.symm, hactive hpositive⟩

/-- Each accepted renewal becomes the support of the lease of its record. -/
theorem backed_renew (hl : ledger.Bound) (h : ledger.Backed accepted) {request : Renewal}
    (hrenew : ledger.renew request now maximumSeconds = .ok (value', ledger')) :
    ledger'.Backed (accepted ++ [⟨request, now, maximumSeconds⟩]) := by
  obtain ⟨value, hfence, ⟨hsame, rfl, rfl⟩ | ⟨timing, htiming, -, rfl, rfl⟩⟩ :=
    renew_eq_ok hl hrenew
  · have hget := (fenced_eq_ok.mp hfence).1
    have hsupported (hleased : value'.leaseSequence ≠ 0) :=
      (h _ value' hget hleased).again (repeated_of_renew hfence hsame hrenew)
    refine h.append ⟨request, now, maximumSeconds⟩ hsupported fun id => ?_
    · split_ifs with hid
      · rw [hid]
        exact hget
      · rfl
  · have hgave : (⟨request, now, maximumSeconds⟩ : Accepted).Gave
        ((Move.renew request timing).apply value) := ⟨rfl, rfl, timing, rfl, htiming⟩
    refine h.append ⟨request, now, maximumSeconds⟩ (fun _ => Supported.anew _ hgave) fun id => ?_
    rw [get_perform, hl.fenced_attemptId hfence]

theorem backed_admitPlan (hl : ledger.Bound) (h : ledger.Backed accepted) {admission : Admission}
    {slot : String} {binding : Binding} {fresh : Bool}
    (hadmission : ledger.admitPlan admission slot binding now maximumSeconds = .ok ((value', fresh), ledger'))
    :
    ledger'.Backed (accepted ++
      if fresh then [⟨admission.lease, now, maximumSeconds⟩] else []) := by
  obtain ⟨rfl, -, rfl⟩ | ⟨rfl, -, -, timing, htiming, rfl, rfl⟩ := admitPlan_eq_ok hl hadmission
  · simpa using h
  · have hattempt : admission.lease.attemptId = admission.plan.attemptId :=
      congrArg Fence.attemptId admission.bound
    rw [if_pos rfl]
    have hgave : (⟨admission.lease, now, maximumSeconds⟩ : Accepted).Gave
        ((Move.renew admission.lease timing).apply
          (reservation admission.plan slot binding now.wall)) := ⟨rfl, rfl, timing, rfl, htiming⟩
    refine h.append ⟨admission.lease, now, maximumSeconds⟩ (fun _ => Supported.anew _ hgave)
      fun id => ?_
    rw [get_holdDevices, get_put, hattempt]
    rfl

/-- Every operation keeps the leases supported by the renewals that were accepted. -/
theorem backed_step (hl : ledger.Bound) (h : ledger.Backed accepted) (operation : Operation) :
    (ledger.step operation).Backed (accepted ++ (ledger.accepts operation).toList) := by
  by_cases hrenews : operation.Renews
  · cases operation with
    | renew request now maximumSeconds =>
      cases hrenew : ledger.renew request now maximumSeconds with
      | ok result => simpa [step, call, accepts, hrenew, Except.map] using backed_renew hl h hrenew
      | error e => simpa [step, call, accepts, hrenew, Except.map] using h
    | admitPlan admission slot binding now maximumSeconds =>
      cases hadmission : ledger.admitPlan admission slot binding now maximumSeconds with
      | ok result =>
        obtain ⟨⟨value, fresh⟩, next⟩ := result
        have hbacked := backed_admitPlan hl h hadmission
        cases fresh <;> simpa [step, call, accepts, hadmission, Except.map] using hbacked
      | error e => simpa [step, call, accepts, hadmission, Except.map] using h
    | _ => exact absurd hrenews id
  · have hnone : ledger.accepts operation = none := by
      cases operation with
      | renew request now maximumSeconds => exact absurd trivial hrenews
      | admitPlan admission slot binding now maximumSeconds => exact absurd trivial hrenews
      | _ => rfl
    rw [hnone, Option.toList_none, List.append_nil]
    unfold step
    cases hcall : ledger.call operation with
    | ok next =>
      exact h.of_changes hl (changes_of_call_of hl (fun _ himp hevent => hrenews (himp hevent)) hcall)
    | error e => exact h

/-- Every run keeps the leases supported by the renewals that were accepted in it. -/
theorem backed_run (hinv : ledger.Invariant) (h : ledger.Backed accepted)
    (operations : List Operation) :
    (run step ledger operations).Backed (accepted ++ ledger.acceptances operations) := by
  induction operations generalizing ledger accepted with
  | nil => simpa [acceptances, run] using h
  | cons operation operations ih =>
    have hlater := ih (invariant_step ledger operation hinv) (backed_step hinv.bound h operation)
    rwa [List.append_assoc] at hlater

/-- An active lease was given in the present boot, less than its interval ago, and it has not
reached its wall expiry. All renewals accepted since then have repeated it. -/
structure Covers (given last : Accepted) (value : Value) (now : Reading) : Prop where
  same : given.request.sequence = last.request.sequence ∧
    given.request.expiresAt = last.request.expiresAt
  boot : given.received.bootId = now.bootId ∧ last.received.bootId = now.bootId
  order : given.received.elapsedNs ≤ last.received.elapsedNs ∧
    given.received.elapsedNs ≤ now.elapsedNs
  expiry : value.leaseExpiresAt = last.request.expiresAt ∧ now.wall < last.request.expiresAt
  truncated : (now.elapsedNs : ℚ) < given.received.elapsedNs +
    (given.request.expiresAt - given.received.wall) * 1000000000
  limit : (now.elapsedNs : ℚ) < last.received.elapsedNs + given.maximumSeconds * 1000000000

omit [Hash Plan] in
theorem within_of_supported (h : Supported accepted value) (hactive : value.Active now) :
    ∃ given ∈ accepted, ∃ last, accepted.getLast? = some last ∧ Covers given last value now := by
  obtain ⟨earlier, given, repeats, rfl, hgave, hrepeats⟩ := h
  obtain ⟨timing, htiming, hdeadline⟩ := hgave.timing
  obtain ⟨hboot, hreceived, hinterval, hmaximum⟩ := within_of_deadline hdeadline
  obtain ⟨-, hwall, bound, hbound, hsame, hfrom, hbefore⟩ := hactive
  obtain rfl := Option.some.inj (htiming.symm.trans hbound)
  have hnow : (now.elapsedNs : ℚ) < timing.leaseDeadlineNs := by exact_mod_cast hbefore
  have hlimit : (given.request.expiresAt - given.received.wall) * 1000000000 ≤
      given.maximumSeconds * 1000000000 :=
    mul_le_mul_of_nonneg_right (by linarith) (by norm_num)
  -- The last renewal is the one that gave the lease, or it found the lease active.
  obtain ⟨last, hlast, hseq, hexp, hlastBoot, horder⟩ : ∃ last,
      (given :: repeats).getLast? = some last ∧
      value.leaseSequence = last.request.sequence ∧
      value.leaseExpiresAt = last.request.expiresAt ∧
      last.received.bootId = given.received.bootId ∧
      given.received.elapsedNs ≤ last.received.elapsedNs := by
    cases hlast : repeats.getLast? with
    | none =>
      obtain rfl := List.getLast?_eq_none_iff.mp hlast
      exact ⟨given, rfl, hgave.sequence, hgave.expiresAt, rfl, le_refl _⟩
    | some last =>
      obtain ⟨hseq, hexp, hagain⟩ := hrepeats last (List.mem_of_getLast? hlast)
      obtain ⟨-, -, bound, hbound, hsame, hfrom, -⟩ := hagain
      obtain rfl := Option.some.inj (htiming.symm.trans hbound)
      exact ⟨last, by rw [List.getLast?_cons, hlast]; rfl, hseq, hexp, hsame.symm.trans hboot,
        hreceived ▸ hfrom⟩
  have hordered : (given.received.elapsedNs : ℚ) ≤ last.received.elapsedNs := by
    exact_mod_cast horder
  refine ⟨given, by simp, last, ?_, ?_⟩
  · rw [List.getLast?_append, hlast]
    rfl
  · exact
      { same := ⟨hgave.sequence.symm.trans hseq, hgave.expiresAt.symm.trans hexp⟩
        boot := ⟨hboot.symm.trans hsame, hlastBoot.trans (hboot.symm.trans hsame)⟩
        order := ⟨horder, hreceived ▸ hfrom⟩
        expiry := ⟨hexp, hexp ▸ hwall⟩
        truncated := by linarith
        limit := by linarith }

/-- In every run of the ledger, with any readings of the clocks, a lease is active only in the boot
in which it was given, before its wall expiry and less than the permitted interval of boot time
after the last renewal that was accepted for the attempt. -/
theorem active_within (installation identity : Identity) (operations : List Operation)
    {id : Identity} {value : Value} {now : Reading}
    (hget : (run step (create installation identity) operations).get id = some value)
    (hactive : value.Active now) :
    ∃ given ∈ ofAttempt id ((create installation identity).acceptances operations),
      ∃ last, (ofAttempt id ((create installation identity).acceptances operations)).getLast? =
        some last ∧ Covers given last value now := by
  have hempty : (create installation identity).Backed [] := by
    intro id value hget
    simp [create, get] at hget
  have hbacked := backed_run (invariant_create installation identity) hempty operations
  exact within_of_supported (hbacked id value hget hactive.1) hactive

end Ledger

namespace Sample

/-- A run that admits an attempt, renews its lease and repeats the renewal. -/
def leasing : List (@Ledger.Operation hash) :=
  letI := hash
  let renewal := lease (plan 5 6 1 3) 2 130 Nat.two_pos (by decide)
  [.saveOffer settings.initialOffer 0,
    .admitPlan (admission (plan 5 6 1 3) 110 lease_pos) "slot" (binding ⟨"slot", 1, 1, 1⟩)
      (reading 100) 30,
    .renew renewal (reading 105) 30, .renew renewal (reading 108) 30]

end Sample

theorem Ledger.active_within_leasing :
    ∃ value, (@run _ _ (@Ledger.step Sample.hash) (Ledger.create 1 7) Sample.leasing).get 5 =
        some value ∧
      ∃ given last, Covers given last value ⟨50, 120000000000, 1⟩ := by
  let _ := Sample.hash
  have hactive : ∃ value ∈ (run Ledger.step (Ledger.create 1 7) Sample.leasing).get 5,
      value.Active ⟨50, 120000000000, 1⟩ := by decide +kernel
  obtain ⟨value, hget, hvalue⟩ := hactive
  obtain ⟨given, -, last, -, hwithin⟩ := Ledger.active_within 1 7 Sample.leasing hget hvalue
  exact ⟨value, hget, given, last, hwithin⟩

end Ficc.Execution
