import Ficc.Federation.Pairing

/-!
# Mutations under a grant

`mutate` runs an operation that changes something at the receiving cluster. It writes a receipt
with the state `uncertain`, starts the effect, and writes the outcome. It is cut where it waits for
the inference service: `begins` is what comes before the effect and `settle` what follows it. The
operations on models do not wait, so their two parts run without anything in between.
-/

namespace Ficc.Federation

open Execution (Identity Digest Hash)

/-- The list of a grant in which an operation records what it created. -/
def Operation.created : Operation → Option Kind
  | .inferenceCreate => some .services
  | .modelsCreate => some .models
  | .inferenceReplace | .inferenceControl | .modelsRemove => none

/-- The resources of a kind that were created under a grant. -/
def Grant.created (value : Grant) : Kind → List Identity
  | .services => value.createdServices
  | .models => value.createdModels
  | .nodes => []

namespace Operations

open Authority (Local check)

/-- The largest number of resources of a kind that a grant creates. -/
def maximumCreated : ℕ := 64

/-- The answers of the local services to a mutation before its effect. -/
structure Answers where
  /-- Whether the inference service accepts the deployment. -/
  preview : Except Error Unit
  /-- The models of the project that have the digest of the manifest. -/
  registered : List Identity

/-- A deployment stays within the models and the machines of the grant. -/
def deployment (spec : Deployment) (grant : Grant) : Except Error Unit :=
  raiseIf (spec.modelId ∉ grant.permitted .models ∨
      spec.nodes.any fun node => decide (node ∉ grant.spec.nodes))
    (.failure "federation_denied"
      "The deployment exceeds the granted model or machine selection." 403)

/-- The checks of a mutation's fields. -/
def validate (s : Manager) (request : Request) (peer : Peer) (grant : Grant) (env : Local)
    (answers : Answers) : Except Error Unit :=
  let permits (scope : Scope) (resource : Option (Kind × Identity)) : Except Error Unit := do
    let _ ← check s request.grant peer request.generation (some scope) resource env
    .ok ()
  match request.operation, request.body with
  | .inferenceCreate, .create spec => do
    permits .inferenceManage none
    deployment spec grant
    answers.preview
  | .inferenceReplace, .replace service spec _ => do
    permits .inferenceManage none
    deployment spec grant
    answers.preview
    permits .inferenceManage (some (.services, service))
  | .inferenceControl, .control service _ _ _ =>
    permits .inferenceManage (some (.services, service))
  | .modelsCreate, .register manifest => do
    permits .modelsManage none
    raiseIf (manifest.downloads = true) (.failure "federation_source"
      "Remote model registration cannot initiate upstream downloads." 403)
    answers.registered.forM fun model => permits .modelsManage (some (.models, model))
  | .modelsRemove, .remove model => permits .modelsManage (some (.models, model))
  | _, _ => .error (.failure "federation_request"
      "The remote operation has missing or unknown fields." 422)

/-- The record is a receipt of the operation under the grant with an unknown outcome. -/
def Pending (grant : Identity) (operation : Operation) (record : OperationRecord) : Prop :=
  record.grant = grant ∧ record.operation = operation ∧ record.state = .uncertain

instance (grant : Identity) (operation : Operation) :
    DecidablePred (Pending grant operation) :=
  fun _ => inferInstanceAs (Decidable (_ ∧ _))

/-- The receipts of a project for an operation under a grant with an unknown outcome. -/
def pending (s : Manager) (projectId grant : Identity) (operation : Operation) : ℕ :=
  (s.operations.values.filter fun record =>
    decide (record.projectId = projectId ∧ Pending grant operation record)).length

/-- A grant creates no more than a fixed number of resources of a kind, counting the operations
whose outcome is unknown. -/
def room (s : Manager) (grant : Grant) (operation : Operation) : Except Error Unit :=
  raiseIf (∃ kind ∈ operation.created, maximumCreated ≤
      (grant.created kind).length + pending s grant.projectId grant.id operation)
    (.failure "federation_capacity"
      "This grant has reached its 64 delegated resource limit; request a new grant." 409)

/-- How a mutation begins. -/
inductive Beginning
  /-- The operation was completed before, with this result. -/
  | repeated (result : Option Result)
  /-- The receipt is written, and the effect follows. -/
  | begun (s : Manager) (record : OperationRecord)

variable [Hash Arguments]

/-- The receipt of a request that begins. -/
def receipt (request : Request) (grant : Grant) (now : ℚ) : OperationRecord :=
  { id := request.id, projectId := grant.projectId, grant := request.grant
    digest := Hash.digest request.arguments, state := .uncertain, operation := request.operation
    result := none, error := none, createdAt := now }

/-- What `mutate` does before the effect. -/
def begins (s : Manager) (request : Request) (peer : Peer) (env : Local) (answers : Answers) :
    Except Error Beginning := do
  let grant ← check s request.grant peer request.generation none none env
  let fingerprint := Hash.digest request.arguments
  match s.operations.lookup request.id with
  | some existing =>
    raiseIf (existing.digest ≠ fingerprint ∨ existing.grant ≠ request.grant)
      (.failure "operation_conflict" "The retained operation ID belongs to different arguments."
        409)
    raiseIf (existing.state ≠ .complete) (.failure "operation_uncertain"
      "This mutation has a retained outcome; inspect it before taking another action." 409)
    .ok (.repeated existing.result)
  | none =>
    validate s request peer grant env answers
    room s grant request.operation
    let record := receipt request grant env.now
    let s ← s.saveOperation record
    .ok (.begun s record)

/-- The checks of `dispatch`, and the start of a mutation. -/
def dispatch (s : Manager) (request : Request) (peer : Peer) (env : Local) (answers : Answers) :
    Except Error Beginning := do
  let grant ← check s request.grant peer request.generation none none env
  raiseIf (grant.spec.requestBytes < request.bytes)
    (.failure "federation_limit" "The request exceeds this grant's allowance." 413)
  begins s request peer env answers

omit [Hash Arguments]

/-- Records in the grant what the operation created or removed. For the operations on models the
grant is still the one that was checked. -/
def register (s : Manager) (request : Request) (result : Result) : Except Error Manager :=
  match request.operation, request.body with
  | .inferenceCreate, _ => do
    let grant ← Records.get s.grants request.grant
    s.saveGrant { grant with createdServices := grant.createdServices ++ [result.id] }
  | .modelsCreate, _ => do
    let grant ← Records.get s.grants request.grant
    if result.id ∉ grant.permitted .models then
      s.saveGrant { grant with createdModels := grant.createdModels ++ [result.id] }
    else .ok s
  | .modelsRemove, .remove model => do
    let grant ← Records.get s.grants request.grant
    if model ∈ grant.createdModels then
      s.saveGrant { grant with createdModels := grant.createdModels.erase model }
    else .ok s
  | _, _ => .ok s

/-- Records a failure of the operation. -/
def failed (s : Manager) (record : OperationRecord) : Error → Manager
  | .failure code message _ =>
    match s.saveOperation { record with state := .failed, error := some (code, message) } with
    | .ok s => s
    | .error _ => s
  -- Other exceptions are not caught, and the outcome stays unknown.
  | _ => s

/-- What `mutate` does after the effect. -/
def settle (s : Manager) (request : Request) (record : OperationRecord)
    (effect : Except Error Result) : Manager :=
  match effect with
  | .error error => failed s record error
  | .ok result =>
    match register s request result with
    | .error error => failed s record error
    | .ok s =>
      let complete := { record with state := .complete, result := some result }
      match s.saveOperation complete with
      | .ok s => s
      | .error error => failed s complete error

/-- Whether the operation waits for the inference service. -/
def waits : Operation → Bool
  | .inferenceCreate | .inferenceReplace | .inferenceControl => true
  | .modelsCreate | .modelsRemove => false

/-! ### What the parts of a mutation do -/

section Dispatch

variable [Hash Arguments]

theorem dispatch_eq_repeated {s : Manager} {request : Request} {peer : Peer} {env : Local}
    {answers : Answers} {result : Option Result}
    (h : dispatch s request peer env answers = .ok (.repeated result)) :
    ∃ existing, s.operations.lookup request.id = some existing ∧
      existing.digest = Hash.digest request.arguments ∧ existing.grant = request.grant ∧
      existing.state = .complete ∧ existing.result = result := by
  simp only [dispatch, begins, bind_eq_ok] at h
  obtain ⟨-, -, -, -, grant, -, h⟩ := h
  cases hexisting : s.operations.lookup request.id with
  | none =>
    simp [hexisting, bind_eq_ok] at h
  | some existing =>
    simp only [hexisting, bind_eq_ok, raiseIf_eq_ok, not_or, not_not, Except.ok.injEq,
      Beginning.repeated.injEq] at h
    obtain ⟨-, ⟨hdigest, hgrant⟩, -, hstate, hresult⟩ := h
    exact ⟨existing, rfl, hdigest, hgrant, hstate, hresult⟩

theorem dispatch_eq_begun {s next : Manager} {request : Request} {peer : Peer} {env : Local}
    {answers : Answers} {record : OperationRecord}
    (h : dispatch s request peer env answers = .ok (.begun next record)) :
    ∃ grant, Authority.Authorised s request.grant peer grant ∧
      s.operations.lookup request.id = none ∧ record = receipt request grant env.now ∧
      (∀ kind, request.operation.created = some kind →
        (grant.created kind).length + pending s grant.projectId grant.id request.operation <
          maximumCreated) ∧
      next = { s with operations := s.operations.insert request.id record } := by
  simp only [dispatch, begins, bind_eq_ok] at h
  obtain ⟨-, -, -, -, grant, hgrant, h⟩ := h
  cases hexisting : s.operations.lookup request.id with
  | some existing =>
    simp [hexisting, bind_eq_ok] at h
  | none =>
    simp only [hexisting, bind_eq_ok, room, raiseIf_eq_ok, Except.ok.injEq,
      Beginning.begun.injEq] at h
    obtain ⟨-, -, -, hroom, saved, hsave, rfl, rfl⟩ := h
    refine ⟨grant, Authority.check_eq_ok hgrant, rfl, rfl, fun kind hkind => ?_,
      Manager.saveOperation_eq_ok hsave⟩
    by_contra hfull
    exact hroom ⟨kind, hkind, not_lt.mp hfull⟩

/-- A request under a retained identity is not begun. -/
theorem dispatch_of_retained {s : Manager} {request : Request} {existing : OperationRecord}
    (h : s.operations.lookup request.id = some existing) (peer : Peer) (env : Local)
    (answers : Answers) :
    (∃ error, dispatch s request peer env answers = .error error) ∨
      (existing.digest = Hash.digest request.arguments ∧ existing.grant = request.grant ∧
        existing.state = .complete ∧
        dispatch s request peer env answers = .ok (.repeated existing.result)) := by
  rcases hdispatch : dispatch s request peer env answers with error | beginning
  · exact .inl ⟨error, rfl⟩
  · cases beginning with
    | repeated result =>
      obtain ⟨found, hfound, hdigest, hgrant, hstate, hresult⟩ := dispatch_eq_repeated hdispatch
      obtain rfl : found = existing := Option.some.inj (hfound.symm.trans h)
      exact .inr ⟨hdigest, hgrant, hstate, by rw [hresult]⟩
    | begun next record =>
      obtain ⟨-, -, hnone, -⟩ := dispatch_eq_begun hdispatch
      rw [h] at hnone
      cases hnone

end Dispatch

/-- The grant before and after an operation has recorded what it created or removed. -/
structure Registers (operation : Operation) (value next : Grant) : Prop where
  id : next.id = value.id
  projectId : next.projectId = value.projectId
  peer : next.peer = value.peer
  spec : next.spec = value.spec
  state : next.state = value.state
  usedRequests : next.usedRequests = value.usedRequests
  usedBytes : next.usedBytes = value.usedBytes
  created : ∀ kind, (next.created kind).length ≤
    (value.created kind).length + if operation.created = some kind then 1 else 0

/-- What the write of the created resources can do to the grants. -/
def Registered (s : Manager) (request : Request) (grants : Table Identity Grant) : Prop :=
  ∀ k next, grants.lookup k = some next →
    ∃ value, s.grants.lookup k = some value ∧
      (next = value ∨ k = request.grant ∧ Registers request.operation value next)

theorem Registered.refl (s : Manager) (request : Request) : Registered s request s.grants :=
  fun _ next h => ⟨next, h, .inl rfl⟩

/-- Writing a changed grant back. -/
theorem Registered.insert {s : Manager} {request : Request} {value next : Grant}
    (hid : value.id = request.grant) (hvalue : s.grants.lookup request.grant = some value)
    (h : Registers request.operation value next) :
    Registered s request (s.grants.insert next.id next) := by
  intro k found hfound
  rw [Table.lookup_insert_eq, h.id, hid] at hfound
  split_ifs at hfound with hk
  · obtain rfl := Option.some.inj hfound
    exact ⟨value, hk ▸ hvalue, .inr ⟨hk, h⟩⟩
  · exact ⟨found, hfound, .inl rfl⟩

theorem register_eq_ok {s s' : Manager} {request : Request} {result : Result}
    (hid : ∀ value, s.grants.lookup request.grant = some value → value.id = request.grant)
    (h : register s request result = .ok s') :
    ∃ grants, Registered s request grants ∧ s' = { s with grants } := by
  unfold register at h
  split at h
  · rename_i hoperation
    simp only [bind_eq_ok, Records.get_eq_ok] at h
    obtain ⟨value, hvalue, hsave⟩ := h
    refine ⟨_, ?_, Manager.saveGrant_eq_ok hsave⟩
    refine .insert (hid value hvalue) hvalue ⟨rfl, rfl, rfl, rfl, rfl, rfl, rfl, fun kind => ?_⟩
    cases kind <;> simp [Grant.created, hoperation, Operation.created]
  · rename_i hoperation
    simp only [bind_eq_ok, Records.get_eq_ok] at h
    obtain ⟨value, hvalue, h⟩ := h
    split_ifs at h with hknown
    · obtain rfl := Except.ok.inj h
      exact ⟨_, .refl s request, rfl⟩
    · refine ⟨_, ?_, Manager.saveGrant_eq_ok h⟩
      refine .insert (hid value hvalue) hvalue ⟨rfl, rfl, rfl, rfl, rfl, rfl, rfl, fun kind => ?_⟩
      cases kind <;> simp [Grant.created, hoperation, Operation.created]
  · rename_i model hoperation _
    simp only [bind_eq_ok, Records.get_eq_ok] at h
    obtain ⟨value, hvalue, h⟩ := h
    split_ifs at h with hcreated
    · refine ⟨_, ?_, Manager.saveGrant_eq_ok h⟩
      refine .insert (hid value hvalue) hvalue ⟨rfl, rfl, rfl, rfl, rfl, rfl, rfl, fun kind => ?_⟩
      have hle := List.length_erase_le (a := model) (l := value.createdModels)
      cases kind <;> simp [Grant.created, hoperation, Operation.created, hle]
    · obtain rfl := Except.ok.inj h
      exact ⟨_, .refl s request, rfl⟩
  · obtain rfl := Except.ok.inj h
    exact ⟨_, .refl s request, rfl⟩

/-- The receipt before and after its outcome is known. -/
structure Settles (record next : OperationRecord) : Prop where
  id : next.id = record.id
  projectId : next.projectId = record.projectId
  grant : next.grant = record.grant
  digest : next.digest = record.digest
  operation : next.operation = record.operation
  known : next.state ≠ .uncertain

theorem failed_frame (s : Manager) (record : OperationRecord) (error : Error) :
    ∃ operations, failed s record error = { s with operations } := by
  cases error with
  | failure code message _ =>
    simp only [failed]
    rcases hsave : s.saveOperation
        { record with state := .failed, error := some (code, message) } with - | saved
    · exact ⟨s.operations, rfl⟩
    · exact ⟨_, Manager.saveOperation_eq_ok hsave⟩
  | conflict _ => exact ⟨s.operations, rfl⟩
  | value _ => exact ⟨s.operations, rfl⟩
  | os => exact ⟨s.operations, rfl⟩
  | integrity => exact ⟨s.operations, rfl⟩

/-- What follows the effect touches only the grants and the receipts. -/
theorem settle_frame {s : Manager} {request : Request}
    (hid : ∀ value, s.grants.lookup request.grant = some value → value.id = request.grant)
    (record : OperationRecord) (effect : Except Error Result) :
    ∃ grants operations, Registered s request grants ∧
      settle s request record effect = { s with grants, operations } := by
  have hfailed (error : Error) : ∃ grants operations, Registered s request grants ∧
      failed s record error = { s with grants, operations } := by
    obtain ⟨operations, h⟩ := failed_frame s record error
    exact ⟨s.grants, operations, .refl s request, h⟩
  cases effect with
  | error error => exact hfailed error
  | ok result =>
    simp only [settle]
    rcases hregister : register s request result with error | registered
    · exact hfailed error
    · obtain ⟨grants, hgrants, rfl⟩ := register_eq_ok hid hregister
      dsimp only
      rcases hsave : Manager.saveOperation { s with grants }
          { record with state := .complete, result := some result } with error | saved
      · obtain ⟨operations, h⟩ := failed_frame { s with grants }
          { record with state := .complete, result := some result } error
        exact ⟨grants, operations, hgrants, h⟩
      · exact ⟨grants, _, hgrants, Manager.saveOperation_eq_ok hsave⟩

/-- A failure changes only the receipt, which exists. -/
theorem failed_spec {s : Manager} {record old : OperationRecord}
    (hold : s.operations.lookup record.id = some old) (error : Error) :
    failed s record error = s ∨ ∃ next, Settles record next ∧
      failed s record error = { s with operations := s.operations.insert record.id next } := by
  cases error with
  | failure code message _ =>
    right
    refine ⟨{ record with state := .failed, error := some (code, message) },
      ⟨rfl, rfl, rfl, rfl, rfl, OperationState.noConfusion⟩, ?_⟩
    simp only [failed, Manager.saveOperation, Records.save_of_some hold, ok_bind]
  | conflict _ => exact .inl rfl
  | value _ => exact .inl rfl
  | os => exact .inl rfl
  | integrity => exact .inl rfl

/-- After the effect the outcome is written, together with what was created; or nothing is. -/
theorem settle_spec {s : Manager} {request : Request} {record old : OperationRecord}
    (hid : ∀ value, s.grants.lookup request.grant = some value → value.id = request.grant)
    (hold : s.operations.lookup record.id = some old) (effect : Except Error Result) :
    settle s request record effect = s ∨
      ∃ grants next, Registered s request grants ∧ Settles record next ∧
        settle s request record effect =
          { s with grants, operations := s.operations.insert record.id next } := by
  -- A failure that is recorded leaves the grants alone.
  have hfailed (error : Error) : failed s record error = s ∨
      ∃ grants next, Registered s request grants ∧ Settles record next ∧ failed s record error =
        { s with grants, operations := s.operations.insert record.id next } := by
    obtain h | ⟨next, hnext, h⟩ := failed_spec hold error
    · exact .inl h
    · exact .inr ⟨s.grants, next, .refl s request, hnext, h⟩
  cases effect with
  | error error => exact hfailed error
  | ok result =>
    simp only [settle]
    rcases hregister : register s request result with error | registered
    · exact hfailed error
    · obtain ⟨grants, hgrants, rfl⟩ := register_eq_ok hid hregister
      right
      refine ⟨grants, { record with state := .complete, result := some result }, hgrants,
        ⟨rfl, rfl, rfl, rfl, rfl, OperationState.noConfusion⟩, ?_⟩
      simp only [Manager.saveOperation, Records.save_of_some hold, ok_bind]

end Operations

end Ficc.Federation
