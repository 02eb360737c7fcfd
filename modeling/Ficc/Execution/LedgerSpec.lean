import Ficc.Execution.Lifecycle

/-!
# What the ledger operations do

One lemma for each ledger operation: an operation that returned either left the ledger alone,
inserted one record, or made one `Move` on the record that its fence names. Later proofs use
these lemmas and never unfold an operation.
-/

namespace Ficc.Execution.Ledger

section Writing

/-- Writes the row of a record with all its columns. -/
def put (ledger : Ledger) (value : Value) : Ledger :=
  { ledger with attempts := ledger.attempts.insert value.plan.attemptId (Row.insert value) }

/-- Gives the devices to an attempt. -/
def holdDevices (ledger : Ledger) (identity : Identity) (devices : List String) : Ledger :=
  { ledger with
    devices := devices.foldl (fun table device => table.insert device identity) ledger.devices }

/-- Makes a move on the record of an attempt. -/
def perform (ledger : Ledger) (value : Value) (move : Move) : Ledger :=
  if move.frees then (ledger.put (move.apply value)).freeDevices value.plan.attemptId
  else ledger.put (move.apply value)

variable {ledger ledger' : Ledger} {value value' : Value} {move : Move}

@[simp]
theorem get_put (ledger : Ledger) (value : Value) (id : Identity) :
    (ledger.put value).get id = if id = value.plan.attemptId then some value else ledger.get id := by
  simp only [get, put, Table.lookup_insert_eq]
  split_ifs <;> rfl

@[simp]
theorem get_holdDevices (ledger : Ledger) (identity id : Identity) (devices : List String) :
    (ledger.holdDevices identity devices).get id = ledger.get id := rfl

@[simp]
theorem get_perform (ledger : Ledger) (value : Value) (move : Move) (id : Identity) :
    (ledger.perform value move).get id =
      if id = value.plan.attemptId then some (move.apply value) else ledger.get id := by
  unfold perform
  split_ifs with hfrees hid hid
  · exact (get_put ledger _ id).trans (if_pos (by simpa using hid))
  · exact (get_put ledger _ id).trans (if_neg (by simpa using hid))
  · exact (get_put ledger _ id).trans (if_pos (by simpa using hid))
  · exact (get_put ledger _ id).trans (if_neg (by simpa using hid))

@[simp]
theorem offer_perform (ledger : Ledger) (value : Value) (move : Move) :
    (ledger.perform value move).offer = ledger.offer := by
  unfold perform
  split_ifs <;> rfl

@[simp]
theorem identity_perform (ledger : Ledger) (value : Value) (move : Move) :
    (ledger.perform value move).identity = ledger.identity := by
  unfold perform
  split_ifs <;> rfl

/-- The owner of a device after devices have been given to an attempt. -/
theorem lookup_holdDevices (ledger : Ledger) (identity : Identity) (devices : List String)
    (device : String) :
    (ledger.holdDevices identity devices).devices.lookup device =
      if device ∈ devices then some identity else ledger.devices.lookup device := by
  simp only [holdDevices]
  -- The fold is over the growing table, so the table is generalized.
  induction devices generalizing ledger with
  | nil => simp
  | cons first devices ih =>
    have hrest := ih { ledger with devices := ledger.devices.insert first identity }
    simp only [List.foldl_cons, List.mem_cons] at hrest ⊢
    rw [hrest, Table.lookup_insert_eq]
    by_cases hdevice : device ∈ devices <;> by_cases hfirst : device = first <;>
      simp [hdevice, hfirst]

/-- The owner of a device after a move. -/
theorem lookup_perform (ledger : Ledger) (value : Value) (move : Move) (device : String) :
    (ledger.perform value move).devices.lookup device =
      (ledger.devices.lookup device).filter fun owner =>
        !(move.frees && decide (owner = value.plan.attemptId)) := by
  cases hfrees : move.frees with
  | false => cases hlookup : ledger.devices.lookup device <;> simp [perform, hfrees, put, hlookup, Option.filter]
  | true => simp [perform, hfrees, put, freeDevices, Table.lookup_discard]

theorem mem_all {ledger : Ledger} {value : Value} :
    value ∈ ledger.all ↔ ∃ id, ledger.get id = some value := by
  simp only [all, get, List.mem_map, Table.mem_values, Option.map_eq_some_iff]
  constructor
  · rintro ⟨row, ⟨id, hid⟩, hvalue⟩
    exact ⟨id, row, hid, hvalue⟩
  · rintro ⟨id, row, hid, hvalue⟩
    exact ⟨row, ⟨id, hid⟩, hvalue⟩

end Writing

section Binding

variable [Hash Plan]

/-- The columns of every row agree with its record, the record is stored under the identity of
its plan, and its digest is that of its plan. -/
structure Bound (ledger : Ledger) : Prop where
  row : ∀ {id : Identity} {row : Row}, ledger.attempts.lookup id = some row →
    row = Row.insert row.value
  key : ∀ {id : Identity} {value : Value}, ledger.get id = some value → value.plan.attemptId = id
  digest : ∀ {id : Identity} {value : Value}, ledger.get id = some value →
    value.planDigest = value.plan.digest

variable {ledger ledger' : Ledger} {value value' : Value} {move : Move}

theorem bound_create (installation identity : Identity) : (create installation identity).Bound where
  row h := by simp [create] at h
  key h := by simp [create, get] at h
  digest h := by simp [create, get] at h

theorem Bound.put (hl : ledger.Bound) (hdigest : value.planDigest = value.plan.digest) :
    (ledger.put value).Bound where
  row {id row} h := by
    simp only [Ledger.put, Table.lookup_insert_eq] at h
    split_ifs at h with hid
    · obtain rfl := Option.some.inj h
      rfl
    · exact hl.row h
  key {id other} h := by
    rw [get_put] at h
    split_ifs at h with hid
    · obtain rfl := Option.some.inj h
      exact hid.symm
    · exact hl.key h
  digest {id other} h := by
    rw [get_put] at h
    split_ifs at h with hid
    · obtain rfl := Option.some.inj h
      exact hdigest
    · exact hl.digest h

theorem Bound.of_attempts (hl : ledger.Bound) (h : ledger'.attempts = ledger.attempts) :
    ledger'.Bound := by
  have hget : ledger'.get = ledger.get := by
    funext id
    simp only [get, h]
  refine ⟨?_, ?_, ?_⟩
  · rw [h]
    exact hl.row
  · rw [hget]
    exact hl.key
  · rw [hget]
    exact hl.digest

theorem Bound.perform (hl : ledger.Bound) (hdigest : value.planDigest = value.plan.digest) :
    (ledger.perform value move).Bound := by
  have hput : (ledger.put (move.apply value)).Bound := hl.put (by simpa using hdigest)
  refine hput.of_attempts ?_
  unfold Ledger.perform
  split_ifs <;> rfl

omit [Hash Plan] in
/-- The record that a fence names. -/
theorem fenced_eq_ok {fence : Fence} :
    ledger.fenced fence = .ok value ↔
      ledger.get fence.attemptId = some value ∧ value.plan.generation = fence.generation ∧
        value.planDigest = fence.planDigest := by
  simp only [fenced, bind_eq_ok, orRaise_eq_ok, raiseIf_eq_ok, exists_const, Except.ok.injEq, not_or, not_not]
  constructor
  · rintro ⟨found, hget, ⟨hgeneration, hdigest⟩, rfl⟩
    exact ⟨hget, hgeneration, hdigest⟩
  · rintro ⟨hget, hgeneration, hdigest⟩
    exact ⟨value, hget, ⟨hgeneration, hdigest⟩, rfl⟩

theorem Bound.fenced_attemptId (hl : ledger.Bound) {fence : Fence}
    (h : ledger.fenced fence = .ok value) : value.plan.attemptId = fence.attemptId :=
  hl.key (fenced_eq_ok.mp h).1

/-- The fence under which a record was found is its own. -/
theorem Bound.fence_of_fenced (hl : ledger.Bound) {fence : Fence}
    (h : ledger.fenced fence = .ok value) : value.fence = fence := by
  obtain ⟨-, hgeneration, hdigest⟩ := fenced_eq_ok.mp h
  unfold Value.fence
  rw [hl.fenced_attemptId h, hgeneration, hdigest]

/-- A retained record is the one that is stored under its identity. -/
theorem Bound.get_of_mem_retained (hl : ledger.Bound) (h : value ∈ ledger.retained) :
    ledger.get value.plan.attemptId = some value ∧ value.slot ≠ none := by
  simp only [retained, List.mem_map, List.mem_filter, Table.mem_values] at h
  obtain ⟨row, ⟨⟨id, hrow⟩, hslot⟩, rfl⟩ := h
  have hget : ledger.get id = some row.value := by rw [get, hrow, Option.map_some]
  rw [hl.key hget]
  refine ⟨hget, ?_⟩
  have hcolumn : row.slot = row.value.slot := by
    rw [hl.row hrow]
    rfl
  rw [← hcolumn]
  exact Option.isSome_iff_ne_none.mp hslot

/-- No attempt is retained twice. -/
theorem Bound.nodup_retained (hl : ledger.Bound) :
    (ledger.retained.map fun value => value.plan.attemptId).Nodup := by
  have hkeys : ledger.retained.map (fun value => value.plan.attemptId) =
      (ledger.attempts.rows.filter fun row => row.2.slot.isSome).map Prod.fst := by
    rw [retained, Table.values_eq_map_rows, List.filter_map, List.map_map, List.map_map]
    refine List.map_congr_left fun row hrow => ?_
    have hlookup := Table.mem_rows.mp (List.mem_filter.mp hrow).1
    have hget : ledger.get row.1 = some row.2.value := by
      rw [get, hlookup]
      rfl
    exact hl.key hget
  rw [hkeys]
  exact (List.filter_sublist.map Prod.fst).nodup ledger.attempts.nodup_map_fst_rows

/-- Saving a changed record of a stored attempt writes its whole row. -/
theorem Bound.save_eq_ok (hl : ledger.Bound) {id : Identity} (hget : ledger.get id = some value)
    (hplan : value'.plan = value.plan) (hdigest : value'.planDigest = value.planDigest)
    (h : ledger.save value' = .ok ledger') : ledger' = ledger.put value' := by
  obtain ⟨row, hrow, rfl⟩ := Option.map_eq_some_iff.mp hget
  have hkey : value'.plan.attemptId = id := by rw [hplan, hl.key hget]
  have hlookup : ledger.attempts.lookup value'.plan.attemptId = some row := by rw [hkey, hrow]
  simp only [save, hlookup, bind_eq_ok, raiseIf_eq_ok, exists_const, Except.ok.injEq] at h
  rw [← h.2, Ledger.put]
  -- The columns that an update leaves alone are those of the unchanged plan.
  have hupdate : row.update value' = Row.insert value' := by
    rw [hl.row hrow]
    simp [Row.update, Row.insert, hplan, hdigest]
  rw [hupdate]

/-- Saving what a move writes, for a move that frees no devices. -/
theorem Bound.save_apply (hl : ledger.Bound) (move : Move) {fence : Fence}
    (hfence : ledger.fenced fence = .ok value)
    (hfrees : move.frees = false) (h : ledger.save (move.apply value) = .ok ledger') :
    ledger' = ledger.perform value move := by
  have hput := hl.save_eq_ok (fenced_eq_ok.mp hfence).1 (by simp) (by simp) h
  rw [hput, Ledger.perform, hfrees]
  rfl

/-- Saving what a move writes and freeing the devices of the attempt. -/
theorem Bound.save_apply_frees (hl : ledger.Bound) (move : Move) {fence : Fence}
    (hfence : ledger.fenced fence = .ok value) (hfrees : move.frees = true)
    (h : ledger.save (move.apply value) = .ok ledger') :
    ledger'.freeDevices fence.attemptId = ledger.perform value move := by
  have hput := hl.save_eq_ok (fenced_eq_ok.mp hfence).1 (by simp) (by simp) h
  rw [hput, Ledger.perform, hfrees, hl.fenced_attemptId hfence]
  rfl

end Binding

section Operations

variable [Hash Plan] {ledger ledger' : Ledger} {value value' : Value} {fence : Fence}

theorem annotate_eq_ok (hl : ledger.Bound) {fields : List AnnotatedField}
    (h : ledger.annotate fence fields = .ok (value', ledger')) :
    ∃ value, ledger.fenced fence = .ok value ∧ value' = (Move.annotate fields).apply value ∧
      ledger' = ledger.perform value (.annotate fields) := by
  simp only [annotate, bind_eq_ok, raiseIf_eq_ok, exists_const, Except.ok.injEq, Prod.mk.injEq] at h
  obtain ⟨value, hfence, -, saved, hsave, rfl, rfl⟩ := h
  exact ⟨value, hfence, rfl, hl.save_apply (.annotate fields) hfence rfl hsave⟩

theorem startRequested_eq_ok (hl : ledger.Bound) {now : Reading} {first : Bool}
    (h : ledger.startRequested fence now = .ok ((value', first), ledger')) :
    ∃ value, ledger.fenced fence = .ok value ∧
      ((first = false ∧ value.state ≠ .prepared ∧ value' = value ∧ ledger' = ledger) ∨
        (first = true ∧ Move.start.Allowed value ∧ value.Active now ∧
          value' = Move.start.apply value ∧ ledger' = ledger.perform value .start)) := by
  simp only [startRequested, bind_eq_ok] at h
  obtain ⟨value, hfence, h⟩ := h
  refine ⟨value, hfence, ?_⟩
  split_ifs at h with hprepared
  · simp only [Except.ok.injEq, Prod.mk.injEq] at h
    obtain ⟨⟨rfl, rfl⟩, rfl⟩ := h
    exact .inl ⟨rfl, hprepared, rfl, rfl⟩
  · simp only [bind_eq_ok, orRaise_eq_ok, raiseIf_eq_ok, exists_const, Except.ok.injEq,
      Prod.mk.injEq] at h
    obtain ⟨hactive, offer, -, -, -, saved, hsave, ⟨rfl, rfl⟩, rfl⟩ := h
    exact .inr ⟨rfl, not_not.mp hprepared, not_not.mp hactive, rfl,
      hl.save_apply .start hfence rfl hsave⟩

theorem started_eq_ok (hl : ledger.Bound) {binding : String}
    (h : ledger.started fence binding = .ok ledger') :
    ∃ value, ledger.fenced fence = .ok value ∧ (Move.started binding).Allowed value ∧
      ledger' = ledger.perform value (.started binding) := by
  simp only [started, bind_eq_ok, raiseIf_eq_ok, exists_const, not_not] at h
  obtain ⟨value, hfence, hstarting, hsave⟩ := h
  exact ⟨value, hfence, hstarting, hl.save_apply (.started binding) hfence rfl hsave⟩

/-- A result is written for a fenced attempt. -/
theorem finish_eq_ok (hl : ledger.Bound) {result : AttemptResult}
    (h : ledger.finish result = .ok ledger') :
    ∃ value, ledger.fenced result.toFence = .ok value ∧ (Move.finish result).Allowed value ∧
      ledger' = ledger.perform value (.finish result) := by
  simp only [finish, bind_eq_ok, raiseIf_eq_ok, exists_const, Except.ok.injEq] at h
  obtain ⟨value, hfence, hreleased, hfinal, hconfirmed, hreplaced, saved, hsave, rfl⟩ := h
  refine ⟨value, hfence, ⟨hreleased, ?_, ?_, ?_⟩, ?_⟩
  · by_contra hstate
    rw [State.Final, not_or] at hstate
    exact hfinal hstate
  · intro hterminal
    by_contra hcleanup
    exact hconfirmed ⟨hterminal, by simpa using hcleanup⟩
  · intro hterminal
    by_contra hstate
    exact hreplaced ⟨hterminal, hstate⟩
  · have happly : ledger.save ((Move.finish result).apply value) = .ok saved := hsave
    split_ifs with hcleanup
    · exact hl.save_apply_frees _ hfence hcleanup happly
    · exact hl.save_apply _ hfence (by simpa [Move.frees] using hcleanup) happly

/-- So is a release. -/
theorem release_eq_ok (hl : ledger.Bound) (h : ledger.release fence = .ok (value', ledger')) :
    ∃ value, ledger.fenced fence = .ok value ∧
      ((value.state = .released ∧ value' = value ∧ ledger' = ledger) ∨
        (Move.release.Allowed value ∧ value' = Move.release.apply value ∧
          ledger' = ledger.perform value .release)) := by
  simp only [release, bind_eq_ok] at h
  obtain ⟨value, hfence, h⟩ := h
  refine ⟨value, hfence, ?_⟩
  split_ifs at h with hreleased
  · simp only [Except.ok.injEq, Prod.mk.injEq] at h
    obtain ⟨rfl, rfl⟩ := h
    exact .inl ⟨hreleased, rfl, rfl⟩
  · simp only [bind_eq_ok, raiseIf_eq_ok, exists_const, Except.ok.injEq, Prod.mk.injEq, not_or] at h
    obtain ⟨⟨hfinal, hcleanup⟩, saved, hsave, rfl, rfl⟩ := h
    refine .inr ⟨⟨?_, by simpa using hcleanup⟩, rfl,
      hl.save_apply_frees .release hfence rfl hsave⟩
    by_contra hstate
    rw [State.Final, not_or] at hstate
    exact hfinal hstate

theorem recoverStorage_eq_ok (hl : ledger.Bound) {before : Option Binding} {binding : Binding}
    {observedAt : ℚ}
    (h : ledger.recoverStorage fence before binding observedAt = .ok (value', ledger')) :
    ∃ value, ledger.fenced fence = .ok value ∧
      (Move.recover before binding observedAt).Allowed value ∧
      value' = (Move.recover before binding observedAt).apply value ∧
      ledger' = ledger.perform value (.recover before binding observedAt) := by
  simp only [recoverStorage, bind_eq_ok, raiseIf_eq_ok, exists_const, Except.ok.injEq, Prod.mk.injEq,
    not_or, not_not] at h
  obtain ⟨value, hfence, hguard, -, saved, hsave, rfl, rfl⟩ := h
  exact ⟨value, hfence, hguard, rfl,
    hl.save_apply_frees (.recover before binding observedAt) hfence rfl hsave⟩

/-- So is a lease. -/
theorem renew_eq_ok (hl : ledger.Bound) {request : Renewal} {now : Reading} {maximumSeconds : ℚ}
    (h : ledger.renew request now maximumSeconds = .ok (value', ledger')) :
    ∃ value, ledger.fenced request.toFence = .ok value ∧
      ((request.sequence = value.leaseSequence ∧ value' = value ∧ ledger' = ledger) ∨
        ∃ timing, deadline request.expiresAt now maximumSeconds = .ok timing ∧
          (Move.renew request timing).Allowed value ∧
          value' = (Move.renew request timing).apply value ∧
          ledger' = ledger.perform value (.renew request timing)) := by
  simp only [renew, bind_eq_ok, raiseIf_eq_ok, exists_const, orRaise_eq_ok, not_not] at h
  obtain ⟨value, hfence, hactive, -, offer, -, -, -, h⟩ := h
  refine ⟨value, hfence, ?_⟩
  split_ifs at h with hsequence
  · simp only [bind_eq_ok, raiseIf_eq_ok, exists_const, not_or, not_not, Except.ok.injEq,
      Prod.mk.injEq] at h
    obtain ⟨⟨hsame, -⟩, rfl, rfl⟩ := h
    exact .inl ⟨hsame, rfl, rfl⟩
  · split at h
    · cases h
    · cases h
    · rename_i timing htiming
      simp only [bind_eq_ok, Except.ok.injEq, Prod.mk.injEq] at h
      obtain ⟨saved, hsave, rfl, rfl⟩ := h
      exact .inr ⟨timing, htiming, ⟨hactive, not_le.mp hsequence⟩, rfl,
        hl.save_apply (.renew request timing) hfence rfl hsave⟩

omit [Hash Plan] in
theorem saveOffer_eq_ok {offer : Offer} {expected : ℕ}
    (h : ledger.saveOffer offer expected = .ok ledger') :
    ledger' = { ledger with offer := some offer } ∧
      ledger.offer.elim 0 Offer.revision = expected ∧ offer.revision = expected + 1 ∧
      ∀ before ∈ ledger.offer, before.mode = offer.mode := by
  simp only [saveOffer, bind_eq_ok, raiseIf_eq_ok, exists_const, Except.ok.injEq, not_or, not_not, not_exists,
    not_and] at h
  obtain ⟨⟨hbefore, hafter⟩, hmode, rfl⟩ := h
  exact ⟨rfl, hbefore, hafter, hmode⟩

end Operations

section Insertion

variable [Hash Plan] {ledger ledger' : Ledger} {value value' : Value} {plan : Plan}

/-- No attempt of the job prevents the admission of the plan. -/
def Unblocked (ledger : Ledger) (plan : Plan) : Prop :=
  ∀ id item, ledger.get id = some item → item.plan.jobId = plan.jobId →
    item.state = .released ∧ item.plan.generation < plan.generation

omit [Hash Plan] in
/-- The search of the rows is the predicate. -/
theorem unblocked_iff :
    (¬∃ item ∈ ledger.all, item.plan.jobId = plan.jobId ∧ item.Blocks plan.generation) ↔
      ledger.Unblocked plan := by
  simp only [mem_all, Value.Blocks, Unblocked]
  constructor
  · intro h id item hitem hjob
    by_contra hblocks
    refine h ⟨item, ⟨id, hitem⟩, hjob, ?_⟩
    rw [← not_lt, ← not_and_or]
    exact hblocks
  · rintro h ⟨item, ⟨id, hitem⟩, hjob, hblocks⟩
    obtain ⟨hreleased, hgeneration⟩ := h id item hitem hjob
    rcases hblocks with hstate | hstale
    · exact hstate hreleased
    · exact absurd hgeneration (not_lt.mpr hstale)

/-- The guards of a reservation, besides the identity of the attempt. -/
structure Admits (ledger : Ledger) (plan : Plan) (slot : String) (now : ℚ) (offer : Offer) :
    Prop where
  offered : ledger.offer = some offer
  revision : offer.revision = plan.offerRevision
  accepted : offer.refusal plan.projectId plan.job now false = none
  unblocked : ledger.Unblocked plan
  slot_free : ∀ id item, ledger.get id = some item → item.slot ≠ some slot
  execution : ∀ amount ∈ executionAmounts,
    amount plan.job.limits + ledger.used Value.Running amount ≤ amount offer.limits
  storage : ∀ amount ∈ storageAmounts,
    amount plan.job.limits + ledger.used Value.Held amount ≤ amount offer.limits
  devices_free : ∀ device ∈ plan.job.limits.gpuDevices, ledger.devices.lookup device = none

omit [Hash Plan] in
theorem insertRow_eq_ok (h : ledger.insertRow value = .ok ledger') : ledger' = ledger.put value := by
  simp only [insertRow, bind_eq_ok, raiseIf_eq_ok, exists_const, Except.ok.injEq] at h
  exact h.2.2.2.symm

omit [Hash Plan] in
/-- All devices are held, or none. -/
theorem insertDevices_eq_ok {identity : Identity} {devices : List String}
    (h : ledger.insertDevices identity devices = .ok ledger') :
    ledger' = ledger.holdDevices identity devices := by
  induction devices generalizing ledger with
  | nil => exact (Except.ok.inj h).symm
  | cons device devices ih =>
    simp only [insertDevices, bind_eq_ok, raiseIf_eq_ok, exists_const] at h
    exact ih h.2

/-- A reservation of a plan that the ledger does not know. -/
theorem reserve_eq_ok {slot : String} {binding : Binding} {now : ℚ}
    (h : ledger.reserve plan slot binding now = .ok (value, ledger')) :
    (ledger.get plan.attemptId = some value ∧ value.planDigest = plan.digest ∧
        ledger' = ledger) ∨
      (ledger.get plan.attemptId = none ∧ (∃ offer, ledger.Admits plan slot now offer) ∧
        value = reservation plan slot binding now ∧
        ledger' = (ledger.put value).holdDevices plan.attemptId plan.job.limits.gpuDevices) := by
  unfold reserve at h
  cases hget : ledger.get plan.attemptId with
  | some before =>
    simp only [hget, bind_eq_ok, raiseIf_eq_ok, exists_const, not_not, Except.ok.injEq,
      Prod.mk.injEq] at h
    obtain ⟨hdigest, rfl, rfl⟩ := h
    exact .inl ⟨rfl, hdigest, rfl⟩
  | none =>
    simp only [hget, bind_eq_ok, raiseIf_eq_ok, orRaise_eq_ok, exists_const, not_not,
      unblocked_iff, Except.ok.injEq, Prod.mk.injEq] at h
    obtain ⟨offer, hoffer, hrevision, haccepted, hunblocked, hslot, hexecution, hstorage,
      hdevices, inserted, hinserted, held, hheld, rfl, rfl⟩ := h
    refine .inr ⟨rfl, ⟨offer, ?_⟩, rfl, ?_⟩
    · exact {
        offered := hoffer
        revision := hrevision
        accepted := haccepted
        unblocked := hunblocked
        slot_free := fun id item hitem hsame => hslot ⟨item, mem_all.mpr ⟨id, hitem⟩, hsame⟩
        execution := fun amount hamount => not_lt.mp fun hover => hexecution ⟨amount, hamount, hover⟩
        storage := fun amount hamount => not_lt.mp fun hover => hstorage ⟨amount, hamount, hover⟩
        devices_free := fun device hdevice => by
          by_contra htaken
          exact hdevices ⟨device, hdevice, htaken⟩ }
    · rw [insertDevices_eq_ok hheld, insertRow_eq_ok hinserted]

/-- A rejection leaves an existing record alone, and fences a plan that the ledger does not
know. -/
theorem reject_eq_ok {now : ℚ} {observation : Option (List (Binding × String))}
    (h : ledger.reject plan now observation = .ok (value, ledger')) :
    (ledger.fenced plan.fence = .ok value ∧ ledger' = ledger) ∨
      (ledger.get plan.attemptId = none ∧ ledger.Unblocked plan ∧
        value = ledger.rejected plan now observation ∧ ledger' = ledger.put value) := by
  unfold reject at h
  split_ifs at h with hbefore
  · simp only [bind_eq_ok, Except.ok.injEq, Prod.mk.injEq] at h
    obtain ⟨found, hfenced, rfl, rfl⟩ := h
    exact .inl ⟨hfenced, rfl⟩
  · simp only [bind_eq_ok, raiseIf_eq_ok, exists_const, unblocked_iff, Except.ok.injEq,
      Prod.mk.injEq] at h
    obtain ⟨hunblocked, inserted, hinserted, rfl, rfl⟩ := h
    exact .inr ⟨by simpa using hbefore, hunblocked, rfl, insertRow_eq_ok hinserted⟩

omit [Hash Plan] in
/-- A new reservation and its first lease are written as one row. -/
theorem perform_put_holdDevices (ledger : Ledger) (value : Value) (identity : Identity)
    (devices : List String) (move : Move) (hfrees : move.frees = false) :
    ((ledger.put value).holdDevices identity devices).perform value move =
      (ledger.put (move.apply value)).holdDevices identity devices := by
  simp [perform, hfrees, put, holdDevices, AList.insert_insert]

/-- An admission of a plan that the ledger does not know reserves it with its first lease. -/
theorem admitPlan_eq_ok (hl : ledger.Bound) {admission : Admission} {slot : String}
    {binding : Binding} {now : Reading} {maximumSeconds : ℚ} {fresh : Bool}
    (h : ledger.admitPlan admission slot binding now maximumSeconds = .ok ((value, fresh), ledger')) :
    (fresh = false ∧ ledger.get admission.plan.attemptId = some value ∧ ledger' = ledger) ∨
      (fresh = true ∧ ledger.get admission.plan.attemptId = none ∧
        (∃ offer, ledger.Admits admission.plan slot now.wall offer) ∧
        ∃ timing, deadline admission.lease.expiresAt now maximumSeconds = .ok timing ∧
          value = (Move.renew admission.lease timing).apply
            (reservation admission.plan slot binding now.wall) ∧
          ledger' = (ledger.put value).holdDevices admission.plan.attemptId
            admission.plan.job.limits.gpuDevices) := by
  simp only [admitPlan, bind_eq_ok, Prod.exists] at h
  obtain ⟨reserved, ledger₁, hreserve, h⟩ := h
  rcases reserve_eq_ok hreserve with ⟨hget, -, rfl⟩ | ⟨hget, hadmits, rfl, rfl⟩
  · simp only [hget, Option.isNone_some, Bool.false_eq_true, if_false, Except.ok.injEq,
      Prod.mk.injEq] at h
    obtain ⟨⟨rfl, rfl⟩, rfl⟩ := h
    exact .inl ⟨rfl, hget, rfl⟩
  · simp only [hget, Option.isNone_none, if_true, bind_eq_ok, Prod.exists, Except.ok.injEq,
      Prod.mk.injEq] at h
    obtain ⟨renewed, ledger₂, hrenew, ⟨rfl, rfl⟩, rfl⟩ := h
    refine .inr ⟨rfl, hget, hadmits, ?_⟩
    have hbound : ((ledger.put (reservation admission.plan slot binding now.wall)).holdDevices
        admission.plan.attemptId admission.plan.job.limits.gpuDevices).Bound :=
      (hl.put rfl).of_attempts rfl
    obtain ⟨found, hfound, hrenewed⟩ := renew_eq_ok hbound hrenew
    -- The first lease names the reservation that has just been made.
    have hreserved : found = reservation admission.plan slot binding now.wall := by
      have hfind := (fenced_eq_ok.mp hfound).1
      rw [admission.bound, get_holdDevices, get_put] at hfind
      exact (Option.some.inj ((if_pos rfl).symm.trans hfind)).symm
    subst hreserved
    rcases hrenewed with ⟨hsequence, -, -⟩ | ⟨timing, htiming, -, rfl, rfl⟩
    · have hzero : admission.lease.sequence = 0 := hsequence
      rw [admission.first] at hzero
      cases hzero
    · exact ⟨timing, htiming, rfl, perform_put_holdDevices _ _ _ _ _ rfl⟩

end Insertion

end Ficc.Execution.Ledger
