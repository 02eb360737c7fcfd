import Ficc.Execution.Spec
import Ficc.Foundations.Table
import Mathlib.Data.List.Sort

/-!
# Federation records

The clusters, offers, receipts and grants that two federated clusters exchange, and the four
tables in which a cluster keeps its peers, offers, grants and mutations. The tables are bounded;
the size limit of a single record is not part of the model.

A signed envelope is modelled by its payload and the key that signed it. Ed25519 signatures are
deterministic, so these two determine the envelope, and that nobody signs for a key that is not
theirs is a condition on the envelopes that reach a cluster.
-/

namespace Ficc.Federation

open Execution (Identity Digest Hash)

/-- A key, network or principal of 64 hexadecimal digits. -/
abbrev Key : Type := BitVec 256

/-- What a grant permits. -/
inductive Scope
  | discover | inferenceInvoke | inferenceManage | modelsRead | modelsTransfer | modelsManage
  | resourcesRead
deriving DecidableEq, Repr

/-- The identity of a cluster and of its transport. -/
structure Cluster where
  key : Key
  label : String
  network : Key
  incarnation : Key
  service : Key
  principal : Key
deriving DecidableEq

/-- A payload with the key that signed it, if the signature is one. -/
structure Signed (α : Type) where
  payload : α
  signer : Option Key
deriving DecidableEq

/-- The message with which one cluster asks another to pair. -/
structure Offer where
  id : Identity
  nonce : Digest
  source : Cluster
  destination : Cluster
  expires : ℕ
  requested : List Scope
deriving DecidableEq

/-- The resources and the allowances of a grant. -/
structure GrantSpec where
  scopes : List Scope
  services : List Identity
  models : List Identity
  nodes : List Identity
  lifetime : ℕ
  concurrent : ℕ
  requests : ℕ
  transferBytes : ℕ
  requestBytes : ℕ
  responseBytes : ℕ
  stopOnRevoke : Bool
  /-- The validator `unique` has accepted the selections. -/
  distinct : scopes.Nodup ∧ services.Nodup ∧ models.Nodup ∧ nodes.Nodup
  /-- A grant to transfer models has a byte allowance. -/
  allowance : Scope.modelsTransfer ∈ scopes → transferBytes ≠ 0
deriving DecidableEq

/-- The receipt with which the receiving cluster accepts an offer. -/
structure Acceptance where
  /-- The digest of the signed offer. -/
  offer : Digest
  source : Cluster
  destination : Cluster
  grant : Identity
  generation : ℕ
  spec : GrantSpec
  expires : ℚ
deriving DecidableEq

/-- A signed receipt. -/
abbrev Receipt : Type := Signed Acceptance

inductive PeerState
  | awaitingConfirmation | confirming | paired | removed | suspended
deriving DecidableEq, Repr

inductive OfferState
  | pending | accepted | confirming | paired | suspended
deriving DecidableEq, Repr

inductive GrantState
  | active | revoked | suspended
deriving DecidableEq, Repr

inductive OperationState
  | uncertain | complete | failed
deriving DecidableEq, Repr

/-- Whether an offer was received or made. -/
inductive Direction
  | incoming | outgoing
deriving DecidableEq, Repr

/-- The grant of the other cluster that a cluster uses. -/
structure RemoteGrant where
  id : Identity
  generation : ℕ
  spec : GrantSpec
  expires : ℚ
deriving DecidableEq

/-- A row of `federation_peers`. -/
structure Peer where
  id : Identity
  projectId : Identity
  cluster : Cluster
  state : PeerState
  receipt : Receipt
  remoteGrant : Option RemoteGrant
  lastVerified : ℚ
deriving DecidableEq

/-- A row of `federation_offers`. -/
structure OfferRecord where
  id : Identity
  projectId : Identity
  direction : Direction
  state : OfferState
  revision : ℕ
  offer : Signed Offer
  /-- The time at which the offer was received or made. -/
  at_ : ℚ
  peer : Option Identity
  receipt : Option Receipt
deriving DecidableEq

/-- A row of `federation_grants`. -/
structure Grant where
  id : Identity
  projectId : Identity
  subjectId : Identity
  peer : Identity
  credential : Identity
  spec : GrantSpec
  generation : ℕ
  state : GrantState
  expires : ℚ
  usedRequests : ℕ
  usedBytes : ℕ
  createdServices : List Identity
  createdModels : List Identity
deriving DecidableEq

/-- The operations that change something at the receiving cluster. -/
inductive Operation
  | inferenceCreate | inferenceReplace | inferenceControl | modelsCreate | modelsRemove
deriving DecidableEq, Repr

/-- The result of an operation: the identity of the record it returns, and its text. -/
structure Result where
  id : Identity
  text : String
deriving DecidableEq

/-- A row of `federation_operations`. -/
structure OperationRecord where
  id : Identity
  projectId : Identity
  grant : Identity
  digest : Digest
  state : OperationState
  operation : Operation
  result : Option Result
  /-- The code and the message of the failure. -/
  error : Option (String × String)
  createdAt : ℚ
deriving DecidableEq

/-- The bounds of the tables. -/
structure Capacity where
  peers : ℕ
  offers : ℕ
  grants : ℕ
  operations : ℕ

/-- The number of rows that each table holds at most. -/
def TABLES : Capacity := { peers := 128, offers := 256, grants := 256, operations := 2048 }

namespace Records

variable {α : Type}

/-- The record under an identity. -/
def get (t : Table Identity α) (identity : Identity) : Except Error α :=
  orRaise (t.lookup identity) (.failure "not_found" "The federation record was not found." 404)

/-- Writes a record. A new one needs room in its table. -/
def save (t : Table Identity α) (capacity : ℕ) (identity : Identity) (value : α) :
    Except Error (Table Identity α) := do
  raiseIf ((t.lookup identity).isNone ∧ capacity ≤ t.entries.length)
    (.failure "federation_capacity" "Remove completed federation records before adding more." 409)
  .ok (t.insert identity value)

variable {identity : Identity} {t : Table Identity α} {value : α}

@[simp]
theorem get_eq_ok :
    get t identity = .ok value ↔ t.lookup identity = some value := by
  simp [get]

theorem save_eq_ok {t' : Table Identity α} {capacity : ℕ}
    (h : save t capacity identity value = .ok t') : t' = t.insert identity value := by
  simp only [save, bind_eq_ok, Except.ok.injEq] at h
  obtain ⟨-, -, rfl⟩ := h
  rfl

/-- A record that exists can always be written again. -/
theorem save_of_some {capacity : ℕ} {old : α} (h : t.lookup identity = some old) :
    save t capacity identity value = .ok (t.insert identity value) := by
  simp [save, raiseIf, h]

end Records

end Ficc.Federation
