import Mathlib.Tactic.Linarith
import Ficc.Execution.Admission
import Ficc.Workloads.Outcomes

/-!
# Placement of jobs

The runner places a queued job on a contributor when the last snapshot of its executor admits it.
The executor decides again when the plan arrives. This file compares the two decisions in one
state of the executor and at one time: a placed plan is prepared exactly when the attempt is new
to the ledger, no other attempt of the job blocks it, the smallest slot that is free, within the
limits of the job and large enough for its inputs can be probed, and no amount of which the job
asks nothing is overdrawn. Placement tests none of these four.
-/

namespace Ficc.Workloads

open Execution

namespace Runner

section Placement

/-- The tests of `placement` that read the snapshot of the executor. -/
def nodeTests (snapshot : Snapshot) (project : Identity) (job : Job) (now : ℚ) :
    Except Error Unit := do
  raiseIf (snapshot.admissionVersion ≠ 1 ∨ snapshot.ledgerId = none)
    (.failure "executor_upgrade_required"
      "The executor needs durable admission support before new jobs can start." 409)
  raiseIf (snapshot.offer.refusal project job now false ≠ none)
    (.failure ((snapshot.offer.refusal project job now false).getD "")
      "The local offer does not admit this workload." 409)
  raiseIf (¬∃ item ∈ snapshot.capacity.providers, item.id = job.runtime.provider ∧
      item.packageDigest = job.runtime.packageDigest ∧ item.available = true)
    (.failure "runtime_unavailable" "The admitted executor provider is not available." 409)
  raiseIf (¬job.limits.fits snapshot.capacity.available)
    (.failure "capacity" "The contributor has insufficient available execution capacity." 409)
  raiseIf (¬∃ item ∈ snapshot.capacity.slots, item.available = true ∧
      item.storageBytes ≤ job.limits.storageBytes ∧ item.storageInodes ≤ job.limits.storageInodes)
    (.failure "storage_slot_unavailable"
      "No independently bounded storage slot fits this workload." 409)

/-- The plan of the next attempt of a job. -/
def plan (snapshot : Snapshot) (job : Record) (nodeId attemptId : Identity)
    (policyRevision : ℕ) : Plan :=
  { version := 1, deploymentId := snapshot.deploymentId, nodeId, projectId := job.projectId
    subjectId := job.subjectId, jobId := job.id, attemptId, generation := job.generation + 1
    offerRevision := snapshot.offer.revision, policyRevision, job := job.request.job }

variable [Hash Plan]

/-- The first lease of a plan. -/
def lease (snapshot : Snapshot) (plan : Plan) (now : ℚ) : Except Error Renewal :=
  Store.validateRenewal plan.fence 1 (now + snapshot.maximumLeaseSeconds - 1 / 2)

/-- Places a job on a contributor, after the authority of the job has been checked under a policy
revision. -/
def placement (store : Store) (snapshot : Snapshot) (job : Record) (nodeId attemptId : Identity)
    (policyRevision : ℕ) (now : ℚ) : Except Error (Attempt × Store) := do
  nodeTests snapshot job.projectId job.request.job now
  let plan := plan snapshot job nodeId attemptId policyRevision
  let lease ← lease snapshot plan now
  store.reserve plan lease snapshot.installationId snapshot.offer.limits snapshot.ledgerId
    snapshot.admissionVersion now

/-- What the executor asks of a placed plan and placement does not. -/
structure Ready (s : Supervisor) (plan : Plan) (probe : Slot → Except Error Binding) : Prop where
  fresh : s.ledger.get plan.attemptId = none
  unblocked : s.ledger.Unblocked plan
  slot : ∃ slot binding, s.Foremost plan.job slot ∧ probe slot = .ok binding
  execution : ∀ amount ∈ executionAmounts, amount plan.job.limits = 0 →
    ∀ offer ∈ s.ledger.offer, s.ledger.used Value.Running amount ≤ amount offer.limits
  storage : ∀ amount ∈ storageAmounts, amount plan.job.limits = 0 →
    ∀ offer ∈ s.ledger.offer, s.ledger.used Value.Held amount ≤ amount offer.limits

variable {s : Supervisor}

/-- What the retained attempts use is what the ledger counts. -/
theorem retainedUse_eq_used (hl : s.ledger.Bound) {holds : Value → Prop} [DecidablePred holds]
    {counted : Value → Prop} [DecidablePred counted]
    (h : ∀ value : Value, counted value ↔ value.Held ∧ holds value) (amount : Limits → ℕ) :
    s.retainedUse holds amount = s.ledger.used counted amount := by
  have hcolumns : ∀ row ∈ s.ledger.attempts.values,
      (row.slot.isSome && decide (holds row.value)) = decide (counted row.value) := by
    intro row hrow
    obtain ⟨-, hcolumns⟩ := hl.get_of_mem_values hrow
    have hslot : row.slot = row.value.slot := congrArg Row.slot hcolumns
    rw [hslot, Bool.eq_iff_iff]
    simp [h, Value.Held, Option.isSome_iff_ne_none]
  simp only [Supervisor.retainedUse, Ledger.retained, Ledger.used, Ledger.all, List.filter_map,
    List.map_map, List.filter_filter]
  congr 2
  refine List.filter_congr fun row hrow => ?_
  rw [Bool.and_comm]
  exact hcolumns row hrow

theorem mem_retained (hl : s.ledger.Bound) {id : Identity} {value : Value}
    (hget : s.ledger.get id = some value) (hheld : value.Held) : value ∈ s.ledger.retained := by
  obtain ⟨row, hrow, rfl⟩ := Option.map_eq_some_iff.mp hget
  have hslot : row.slot = row.value.slot := congrArg Row.slot (hl.row hrow)
  refine List.mem_map.mpr ⟨row, List.mem_filter.mpr ⟨Table.mem_values.mpr ⟨id, hrow⟩, ?_⟩, rfl⟩
  rw [hslot]
  exact Option.isSome_iff_ne_none.mpr hheld

omit [Hash Plan] in
/-- What a snapshot tells placement. -/
theorem snapshot_eq_ok {after : Option Identity} {probe : Slot → Except Error Binding}
    {snapshot : Snapshot} (h : s.snapshot after probe = .ok snapshot) :
    s.ledger.offer = some snapshot.offer ∧
      snapshot.capacity.available = s.available snapshot.offer ∧
      snapshot.deploymentId = s.settings.deploymentId ∧ snapshot.nodeId = s.settings.nodeId ∧
      snapshot.maximumLeaseSeconds = s.settings.maximumLeaseSeconds := by
  simp only [Supervisor.snapshot, Supervisor.offer, bind_eq_ok, orRaise_eq_ok,
    Except.ok.injEq] at h
  obtain ⟨offer, hoffer, shown, -, rfl⟩ := h
  exact ⟨hoffer, rfl, rfl, rfl, rfl⟩

/-- A job that fits what is available fits beside what the ledger counts, except for the amounts
of which it asks nothing. -/
theorem amounts_of_fits (hl : s.ledger.Bound) {offer : Offer} {limits : Limits}
    (h : limits.fits (s.available offer)) :
    (∀ amount ∈ executionAmounts,
      amount limits ≤ amount offer.limits - s.ledger.used Value.Running amount) ∧
    ∀ amount ∈ storageAmounts,
      amount limits ≤ amount offer.limits - s.ledger.used Value.Held amount := by
  have hrunning : ∀ amount, s.retainedUse (fun value => value.cleanupConfirmed = false) amount =
      s.ledger.used Value.Running amount := retainedUse_eq_used hl fun _ => Iff.rfl
  have hheld : ∀ amount, s.retainedUse (fun _ => True) amount = s.ledger.used Value.Held amount :=
    retainedUse_eq_used hl fun value => (and_iff_left trivial).symm
  obtain ⟨hcpu, hmemory, hswap, hprocesses, hbytes, hinodes, -⟩ := h
  simp only [Supervisor.available, hrunning, hheld] at hcpu hmemory hswap hprocesses hbytes hinodes
  refine ⟨fun amount hamount => ?_, fun amount hamount => ?_⟩
  · simp only [executionAmounts, List.mem_cons, List.not_mem_nil, or_false] at hamount
    obtain rfl | rfl | rfl | rfl := hamount
    · exact hcpu
    · exact hmemory
    · exact hswap
    · exact hprocesses
  · simp only [storageAmounts, List.mem_cons, List.not_mem_nil, or_false] at hamount
    obtain rfl | rfl := hamount
    · exact hbytes
    · exact hinodes

/-- A device that is available is not held by an attempt. -/
theorem device_free (hs : s.Consistent) {offer : Offer} {device : String}
    (h : device ∈ (s.available offer).gpuDevices) : s.ledger.devices.lookup device = none := by
  have hfree : device ∉ s.occupied := by simpa using (List.mem_filter.mp h).2
  cases hlookup : s.ledger.devices.lookup device with
  | none => rfl
  | some id =>
    obtain ⟨value, hget, hrunning, hdevice⟩ := hs.reserved.devices.mp hlookup
    refine absurd (List.mem_flatMap.mpr ⟨value, List.mem_filter.mpr ⟨?_, ?_⟩, hdevice⟩) hfree
    · exact mem_retained hs.ledger.bound hget hrunning.1
    · simpa using hrunning.2

/-- The guards of the ledger for a plan that passed the tests. -/
theorem admits_iff (hs : s.Consistent) {snapshot : Snapshot} {plan : Plan} {slot : Slot} {now : ℚ}
    {after : Option Identity} {probe : Slot → Except Error Binding}
    (hsnapshot : s.snapshot after probe = .ok snapshot)
    (htests : nodeTests snapshot plan.projectId plan.job now = .ok ())
    (hrevision : plan.offerRevision = snapshot.offer.revision) (hsuits : s.Suits plan.job slot) :
    (∃ offer, s.ledger.Admits plan slot.id now offer) ↔
      s.ledger.Unblocked plan ∧
      (∀ amount ∈ executionAmounts, amount plan.job.limits = 0 →
        ∀ offer ∈ s.ledger.offer, s.ledger.used Value.Running amount ≤ amount offer.limits) ∧
      ∀ amount ∈ storageAmounts, amount plan.job.limits = 0 →
        ∀ offer ∈ s.ledger.offer, s.ledger.used Value.Held amount ≤ amount offer.limits := by
  obtain ⟨hoffer, havailable, -⟩ := snapshot_eq_ok hsnapshot
  simp only [nodeTests, bind_eq_ok, raiseIf_eq_ok, exists_const, not_not] at htests
  obtain ⟨-, haccepted, -, hfits, -⟩ := htests
  rw [havailable] at hfits
  obtain ⟨hexecution, hstorage⟩ := amounts_of_fits hs.ledger.bound hfits
  constructor
  · rintro ⟨offer, hadmits⟩
    refine ⟨hadmits.unblocked, fun amount hamount _ other hother => ?_,
      fun amount hamount _ other hother => ?_⟩
    · obtain rfl := Option.some.inj (hadmits.offered.symm.trans hother)
      have := hadmits.execution amount hamount
      omega
    · obtain rfl := Option.some.inj (hadmits.offered.symm.trans hother)
      have := hadmits.storage amount hamount
      omega
  · rintro ⟨hunblocked, hzero, hzero'⟩
    refine ⟨snapshot.offer, hoffer, hrevision.symm, haccepted, hunblocked, ?_, ?_, ?_, ?_⟩
    · intro id item hitem hsame
      refine hsuits.1 (List.mem_map.mpr ⟨item, mem_retained hs.ledger.bound hitem ?_, hsame⟩)
      rw [Value.Held, hsame]
      exact Option.some_ne_none slot.id
    · intro amount hamount
      have hleft := hexecution amount hamount
      have hnothing := fun h => hzero amount hamount h snapshot.offer hoffer
      -- Availability is clamped at zero, so a request for nothing says nothing.
      by_cases hasked : amount plan.job.limits = 0
      · have := hnothing hasked
        omega
      · omega
    · intro amount hamount
      have hleft := hstorage amount hamount
      have hnothing := fun h => hzero' amount hamount h snapshot.offer hoffer
      by_cases hasked : amount plan.job.limits = 0
      · have := hnothing hasked
        omega
      · omega
    · intro device hdevice
      exact device_free hs (hfits.2.2.2.2.2.2 hdevice)

/-- A plan that passed the tests of placement is prepared exactly when the executor's further
conditions hold. -/
theorem prepares_iff_ready (settings : Settings) (identity : Identity)
    (operations : List Supervisor.Operation) (probe : Slot → Except Error Binding)
    (snapshot : Snapshot) (job : Record) (attemptId : Identity) (policyRevision : ℕ)
    (now rejectAt : Reading) (admission : Admission) :
    let s := run Supervisor.step (Supervisor.install settings identity) operations
    s.snapshot none probe = .ok snapshot →
    nodeTests snapshot job.projectId job.request.job now.wall = .ok () →
    admission.plan = plan snapshot job snapshot.nodeId attemptId policyRevision →
    lease snapshot admission.plan now.wall = .ok admission.lease →
    (s.Prepares admission probe now rejectAt ↔ Ready s admission.plan probe) := by
  intro s hsnapshot htests hplan hlease
  have hs : s.Consistent := run_invariant Supervisor.consistent_step
    (Supervisor.consistent_install settings identity) operations
  obtain ⟨-, -, hdeployment, hnode, hmaximum⟩ := snapshot_eq_ok hsnapshot
  have hidentity : s.settings.checkIdentity admission.plan = .ok () := by
    rw [Settings.checkIdentity, raiseIf_eq_ok, not_not, hplan, ← hdeployment, ← hnode]
    rfl
  have htests' : nodeTests snapshot admission.plan.projectId admission.plan.job now.wall =
      .ok () := by
    rw [hplan]
    exact htests
  have hrevision : admission.plan.offerRevision = snapshot.offer.revision := by
    rw [hplan]
    rfl
  -- The first lease ends half a second before the longest one the executor accepts.
  have hexpires : admission.lease.expiresAt =
      now.wall + s.settings.maximumLeaseSeconds - 1 / 2 := by
    unfold lease Store.validateRenewal at hlease
    split_ifs at hlease
    rw [← hmaximum]
    exact (congrArg Renewal.expiresAt (Except.ok.inj hlease)).symm
  have hlong : (5 : ℚ) ≤ s.settings.maximumLeaseSeconds := by exact_mod_cast s.settings.lease_pos
  obtain ⟨timing, htiming⟩ : ∃ timing, deadline admission.lease.expiresAt now
      s.settings.maximumLeaseSeconds = .ok timing := by
    refine deadline_eq_ok (by linarith) (by linarith) (by linarith) ?_
    rw [← Int.add_one_le_iff, Rat.le_floor_iff]
    push_cast
    linarith
  rw [Supervisor.prepares_iff hs.ledger.bound hidentity]
  constructor
  · rintro ⟨hfresh, slot, binding, offer, -, hforemost, hprobe, hadmits, -⟩
    obtain ⟨hunblocked, hexecution, hstorage⟩ :=
      (admits_iff hs hsnapshot htests' hrevision hforemost.2.1).mp ⟨offer, hadmits⟩
    exact ⟨hfresh, hunblocked, ⟨slot, binding, hforemost, hprobe⟩, hexecution, hstorage⟩
  · rintro ⟨hfresh, hunblocked, ⟨slot, binding, hforemost, hprobe⟩, hexecution, hstorage⟩
    obtain ⟨offer, hadmits⟩ := (admits_iff hs hsnapshot htests' hrevision hforemost.2.1).mpr
      ⟨hunblocked, hexecution, hstorage⟩
    exact ⟨hfresh, slot, binding, offer, timing, hforemost, hprobe, hadmits, htiming⟩

end Placement

end Runner

namespace Sample

open Execution.Sample (hash settings)

/-- The probe of a storage slot that is mounted as configured. -/
def probe (slot : Slot) : Except Error Binding := .ok (Execution.Sample.binding slot)

/-- The executor of the contributor before its first attempt. -/
def executor : Supervisor :=
  letI := hash
  run Supervisor.step (Supervisor.install settings 7) []

/-- The snapshot of the executor. -/
def snapshot : Snapshot := (executor.snapshot none probe).toOption.get (by decide +kernel)

/-- A queued job with inputs of the given sizes. -/
def queued (sizes : List ℕ) : Record :=
  letI := submissionHash
  Store.submitted
    { submission 3 with
      job := { Execution.Sample.job 3 with
        inputs := sizes.map fun bytes => ⟨1, 1, bytes, "data", .stream⟩ } }
    "sixteen-letter-key" delegation 6 100

/-- The placed plan of a job with its first lease. -/
def placed (sizes : List ℕ) : @Admission hash :=
  letI := hash
  let plan := Runner.plan snapshot (queued sizes) 1 5 0
  { plan
    lease := { plan.fence with
      sequence := 1, expiresAt := 100 + 30 - 1 / 2
      sequence_pos := Nat.one_pos, expiresAt_pos := by norm_num }
    bound := rfl, first := rfl }

end Sample

/-- A job without inputs is prepared where it is placed. -/
theorem Runner.prepares_placed :
    letI := Execution.Sample.hash
    Sample.executor.Prepares (Sample.placed []) Sample.probe (Execution.Sample.reading 100)
      (Execution.Sample.reading 100) := by
  let _ := Execution.Sample.hash
  refine (Runner.prepares_iff_ready Execution.Sample.settings 7 [] Sample.probe Sample.snapshot
    (Sample.queued []) 5 0 (Execution.Sample.reading 100) (Execution.Sample.reading 100)
    (Sample.placed []) (by decide +kernel) (by decide +kernel) rfl (by decide +kernel)).mpr ?_
  -- The ledger is empty, and the installation has one slot.
  refine ⟨by decide +kernel, (fun id item hitem => nomatch hitem),
    ⟨⟨"slot", 1, 1, 1⟩, _, ⟨List.mem_cons_self, ?_, ?_⟩, rfl⟩, ?_, ?_⟩
  · exact ⟨List.not_mem_nil, by decide +kernel, by decide +kernel, by decide +kernel⟩
  · intro other hother hsuits
    rw [List.mem_singleton.mp hother]
    decide
  · intro amount hamount hzero offer hoffer
    exact Nat.zero_le _
  · intro amount hamount hzero offer hoffer
    exact Nat.zero_le _

/-- A job whose input is larger than the storage slot is placed and then rejected for good. -/
theorem Runner.not_prepares_placed :
    ¬∀ [Hash Plan] (settings : Settings) (identity : Identity)
      (operations : List Supervisor.Operation) (probe : Slot → Except Error Binding)
      (snapshot : Snapshot) (job : Record) (attemptId : Identity) (policyRevision : ℕ)
      (now rejectAt : Reading) (admission : Admission),
      let s := run Supervisor.step (Supervisor.install settings identity) operations
      s.snapshot none probe = .ok snapshot →
      Runner.nodeTests snapshot job.projectId job.request.job now.wall = .ok () →
      admission.plan = Runner.plan snapshot job snapshot.nodeId attemptId policyRevision →
      Runner.lease snapshot admission.plan now.wall = .ok admission.lease →
      s.ledger.get attemptId = none →
      s.Prepares admission probe now rejectAt := by
  intro hclaim
  let _ := Execution.Sample.hash
  obtain ⟨-, value, s', hprepare, -, hstate, -⟩ := hclaim Execution.Sample.settings 7 []
    Sample.probe Sample.snapshot (Sample.queued [2]) 5 0 (Execution.Sample.reading 100)
    (Execution.Sample.reading 100) (Sample.placed [2]) (by decide +kernel) (by decide +kernel) rfl
    (by decide +kernel) (by decide +kernel)
  have hfailed : (Sample.executor.prepare (Sample.placed [2]) Sample.probe
      (Execution.Sample.reading 100) (Execution.Sample.reading 100)).toOption.map
      (fun result => result.1.state) = some .failed := by decide +kernel
  have hvalue := congrArg (fun result => result.toOption.map fun result => result.1.state) hprepare
  have hstates : some value.state = some .failed := hvalue.symm.trans hfailed
  rw [hstate] at hstates
  exact absurd hstates (by decide)

end Ficc.Workloads
