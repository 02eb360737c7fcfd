import Ficc.Foundations.Keyset
import Ficc.Execution.Supervisor

/-!
# Snapshots of an executor

What an executor tells the controller about itself: its identities, its offer, a page of its
attempts, and its capacity. The available resources are the limits of the offer without what the
retained attempts hold, clamped at zero.
-/

namespace Ficc.Execution

/-- A storage slot as a snapshot shows it. -/
structure SlotCapacity where
  id : String
  generation : ℕ
  storageBytes : ℕ
  storageInodes : ℕ
  available : Bool
  reason : Option String
deriving DecidableEq

/-- A runtime provider as a snapshot shows it. -/
structure ProviderCapacity where
  id : String
  packageDigest : Digest
  available : Bool
  reason : Option String
deriving DecidableEq

/-- The capacity of an executor. -/
structure Capacity where
  slots : List SlotCapacity
  providers : List ProviderCapacity
  available : Limits
deriving DecidableEq

/-- One page of what an executor reports. -/
structure Snapshot where
  installationId : Identity
  ledgerId : Option Identity
  admissionVersion : ℕ
  endpointVersion : ℕ
  inputChunkBytes : ℕ
  deploymentId : Identity
  nodeId : Identity
  maximumLeaseSeconds : ℕ
  offer : Offer
  capacity : Capacity
  attempts : List Report
  next : Option Identity
  /-- The validator `admission_binding`. -/
  admission_binding : admissionVersion = 1 ↔ ledgerId ≠ none
deriving DecidableEq

namespace Supervisor

/-- The attempts after a cursor in the order of their identities, at most `limit`, and whether
there are more. -/
def page (ledger : Ledger) (after : Option Identity) (limit : ℕ) : List Value × Bool :=
  let rows := (ledger.attempts.rows.filter fun row => Keyset.Beyond after row.1).insertionSort
    fun a b => a.1 ≤ b.1
  ((rows.take limit).map fun row => row.2.value, decide (limit < rows.length))

/-- A slot is available when no attempt retains it and it can be probed. -/
def slotCapacity (s : Supervisor) (probe : Slot → Except Error Binding) (slot : Slot) :
    SlotCapacity :=
  let reason : Option String :=
    if some slot.id ∈ s.ledger.retained.map Value.slot then some "reservation_retained"
    else match probe slot with
      | .ok _ => none
      | .error _ => some "slot_unavailable"
  ⟨slot.id, slot.generation, slot.storageBytes, slot.storageInodes, reason.isNone, reason⟩

/-- What retained attempts use of a resource. -/
def retainedUse (s : Supervisor) (holds : Value → Prop) [DecidablePred holds]
    (amount : Limits → ℕ) : ℕ :=
  ((s.ledger.retained.filter fun value => holds value).map fun value => amount value.limits).sum

/-- The devices of retained attempts without confirmed cleanup. -/
def occupied (s : Supervisor) : List String :=
  (s.ledger.retained.filter fun value => value.cleanupConfirmed = false).flatMap fun value =>
    value.limits.gpuDevices

/-- The limits of an offer without what the retained attempts hold. -/
def available (s : Supervisor) (offer : Offer) : Limits :=
  let running (amount : Limits → ℕ) : ℕ :=
    amount offer.limits - s.retainedUse (fun value => value.cleanupConfirmed = false) amount
  let held (amount : Limits → ℕ) : ℕ := amount offer.limits - s.retainedUse (fun _ => True) amount
  { cpuMillis := running Limits.cpuMillis, memoryBytes := running Limits.memoryBytes
    swapBytes := running Limits.swapBytes, processes := running Limits.processes
    storageBytes := held Limits.storageBytes, storageInodes := held Limits.storageInodes
    gpuDevices := offer.limits.gpuDevices.filter fun device => device ∉ s.occupied
    devices := offer.limits.devices.filter _ }

/-- The reports of a list of records. -/
def reports : List Value → Except Error (List Report)
  | [] => .ok []
  | value :: values => do
    let report ← value.publicReport
    let rest ← reports values
    .ok (report :: rest)

/-- A snapshot of the executor. -/
def snapshot (s : Supervisor) (after : Option Identity) (probe : Slot → Except Error Binding) :
    Except Error Snapshot := do
  let (attempts, more) := page s.ledger after 64
  let offer ← s.offer
  let shown ← reports attempts
  .ok {
    installationId := s.settings.installationId, ledgerId := some s.ledger.identity
    admissionVersion := 1, endpointVersion := 1, inputChunkBytes := 8 * 1024 * 1024
    deploymentId := s.settings.deploymentId, nodeId := s.settings.nodeId
    maximumLeaseSeconds := s.settings.maximumLeaseSeconds, offer
    capacity := {
      slots := s.settings.slots.map (s.slotCapacity probe)
      providers := s.settings.providers.map fun item => ⟨item.id, item.packageDigest, true, none⟩
      available := s.available offer }
    attempts := shown
    next := if more then attempts.getLast?.map fun value => value.plan.attemptId else none
    admission_binding := by simp }

end Supervisor

end Ficc.Execution
