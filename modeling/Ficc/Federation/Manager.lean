import Ficc.Federation.Records

/-!
# The federation manager

The state of one cluster's federation: its tables, the credentials that its grants use, the
operations that other clusters run here, and the requests of its operators that are waiting.

A request of an operator that waits is a list of what it has still to do, cut at every place where
the source waits: `remove` revokes one grant after the other and then records the peer as removed,
`forget` revokes and retires every grant, and `finish` calls the other cluster twice. What the
local identity store, the inference service and the model library answer is an input of a step.
-/

namespace Ficc.Federation

open Execution (Identity Digest Hash)

/-- An operator, as the identity store knows it. -/
structure Actor where
  id : Identity
  subjectId : Identity
  projectId : Identity
  localOwner : Bool
deriving DecidableEq

/-- The operator may see the records of a project. -/
def Actor.requireRecord (actor : Actor) (projectId : Identity) : Except Error Unit :=
  raiseIf (projectId ≠ actor.projectId)
    (.failure "not_found" "The operation was not found." 404)

/-- The specification of a deployment: the model, the machines, and the rest of its text. -/
structure Deployment where
  modelId : Identity
  nodes : List Identity
  text : String
deriving DecidableEq

/-- A model manifest: whether one of its files names a download, and the rest of its text. -/
structure Manifest where
  downloads : Bool
  text : String
deriving DecidableEq

/-- The fields of a request. -/
inductive Body
  | create (spec : Deployment)
  | replace (service : Identity) (spec : Deployment) (revision : ℕ)
  | control (service : Identity) (operation : String) (revision : ℕ) (acknowledgeUnknown : Bool)
  | register (manifest : Manifest)
  | remove (model : Identity)
  /-- Fields that no operation takes. -/
  | other (text : String)
deriving DecidableEq

/-- A request under a grant. -/
structure Request where
  id : Identity
  source : Key
  grant : Identity
  generation : ℕ
  operation : Operation
  body : Body
  /-- The length of the encoded fields. -/
  bytes : ℕ
deriving DecidableEq

/-- What the digest of a request covers. -/
abbrev Arguments : Type := Operation × Body × Identity × ℕ

/-- The arguments of a request. -/
def Request.arguments (request : Request) : Arguments :=
  (request.operation, request.body, request.grant, request.generation)

/-- How far the operation of a connection has come. -/
inductive Phase
  /-- The request is admitted. -/
  | admitted
  /-- A mutation waits for the inference service. -/
  | mutating (record : OperationRecord)
  /-- The operation has returned or raised. -/
  | done
deriving DecidableEq

/-- A connection whose request was admitted. -/
structure Session where
  request : Request
  /-- The peer as it was when the request arrived. -/
  peer : Peer
  phase : Phase
deriving DecidableEq

/-- What an operator's request has still to do. -/
inductive Todo
  /-- `revoke` of a grant. -/
  | revoke (grant : Identity)
  /-- The checks of `retire`, and its `revoke`. -/
  | retire (grant : Identity)
  /-- The end of `retire`. -/
  | purge (grant : Identity)
  /-- The end of `remove`, with the peer as it was at the start. -/
  | removePeer (peer : Peer)
  /-- The end of `forget`. -/
  | forgetPeer (peer : Identity)
  /-- `finish` waits for the reply to `pair.status`. -/
  | status (offer : OfferRecord)
  /-- `finish` waits for the reply to `pair.confirm`. -/
  | confirm (offer : OfferRecord) (peer : Peer)
deriving DecidableEq

/-- An operator's request that waits. -/
structure Task where
  actor : Actor
  todo : List Todo
  /-- The connections whose end the request waits for. -/
  waiting : Finset ℕ
deriving DecidableEq

/-- A call to another cluster. -/
inductive Call
  | offer (destination : Key) (signed : Signed Offer)
  | status (destination : Key) (offer : Identity)
  | confirm (destination : Key) (offer : Identity) (receipt : Digest)
deriving DecidableEq

/-- What happened at a cluster. -/
inductive Event
  /-- A grant was used by an admitted request. -/
  | admitted (grant : Identity)
  /-- Bytes were charged to a grant. -/
  | charged (grant : Identity) (count : ℕ)
  /-- The local effect of a mutation was started. -/
  | effect (request : Request)
  /-- An offer was approved with a receipt. -/
  | approved (offer : Signed Offer) (receipt : Receipt)
  /-- The receipt for an offer was stored by `finish`. -/
  | stored (offer : Signed Offer) (receipt : Receipt)
  /-- A peer was recorded as removed. -/
  | removed (peer : Identity) (receipt : Receipt)
  /-- A call was made. -/
  | called (call : Call)
deriving DecidableEq

/-- The federation of one cluster. The history is not read by any operation. -/
structure Manager where
  key : Key
  /-- The identity that the local owner configured. -/
  cluster : Option Cluster
  /-- The credentials that have been issued for grants and not revoked. -/
  credentials : Finset Identity
  peers : Table Identity Peer
  offers : Table Identity OfferRecord
  grants : Table Identity Grant
  operations : Table Identity OperationRecord
  /-- The connections that count against a grant. -/
  active : Identity → Finset ℕ
  sessions : Table ℕ Session
  tasks : Table ℕ Task
  /-- The identities that have been drawn at random. -/
  drawn : Finset Identity
  history : List Event

namespace Manager

/-- A cluster without federation records. -/
def initial (key : Key) : Manager :=
  { key, cluster := none, credentials := ∅, peers := ∅, offers := ∅, grants := ∅, operations := ∅
    active := fun _ => ∅, sessions := ∅, tasks := ∅, drawn := ∅, history := [] }

/-- The records of a project, in the order of their identities. -/
def grantsOf (s : Manager) (projectId : Identity) : List Grant :=
  (s.grants.values.filter fun grant => grant.projectId == projectId).insertionSort
    fun a b => a.id ≤ b.id

variable {s s' : Manager}

theorem mem_grantsOf {projectId : Identity} {grant : Grant} :
    grant ∈ s.grantsOf projectId ↔
      (∃ identity, s.grants.lookup identity = some grant) ∧ grant.projectId = projectId := by
  simp [grantsOf, List.mem_insertionSort, Table.mem_values]

/-- The configured cluster. -/
def requireCluster (s : Manager) : Except Error Cluster :=
  orRaise s.cluster (.failure "federation_unconfigured"
    "Configure the dedicated HyperNet companion before pairing clusters." 409)

def saveGrant (s : Manager) (value : Grant) : Except Error Manager := do
  let grants ← Records.save s.grants TABLES.grants value.id value
  .ok { s with grants }

def savePeer (s : Manager) (value : Peer) : Except Error Manager := do
  let peers ← Records.save s.peers TABLES.peers value.id value
  .ok { s with peers }

def saveOffer (s : Manager) (value : OfferRecord) : Except Error Manager := do
  let offers ← Records.save s.offers TABLES.offers value.id value
  .ok { s with offers }

def saveOperation (s : Manager) (value : OperationRecord) : Except Error Manager := do
  let operations ← Records.save s.operations TABLES.operations value.id value
  .ok { s with operations }

def note (s : Manager) (event : Event) : Manager := { s with history := event :: s.history }

theorem saveGrant_eq_ok {value : Grant} (h : s.saveGrant value = .ok s') :
    s' = { s with grants := s.grants.insert value.id value } := by
  simp only [saveGrant, bind_eq_ok, Except.ok.injEq] at h
  obtain ⟨grants, hsave, rfl⟩ := h
  rw [Records.save_eq_ok hsave]

theorem savePeer_eq_ok {value : Peer} (h : s.savePeer value = .ok s') :
    s' = { s with peers := s.peers.insert value.id value } := by
  simp only [savePeer, bind_eq_ok, Except.ok.injEq] at h
  obtain ⟨peers, hsave, rfl⟩ := h
  rw [Records.save_eq_ok hsave]

theorem saveOffer_eq_ok {value : OfferRecord} (h : s.saveOffer value = .ok s') :
    s' = { s with offers := s.offers.insert value.id value } := by
  simp only [saveOffer, bind_eq_ok, Except.ok.injEq] at h
  obtain ⟨offers, hsave, rfl⟩ := h
  rw [Records.save_eq_ok hsave]

theorem saveOperation_eq_ok {value : OperationRecord} (h : s.saveOperation value = .ok s') :
    s' = { s with operations := s.operations.insert value.id value } := by
  simp only [saveOperation, bind_eq_ok, Except.ok.injEq] at h
  obtain ⟨operations, hsave, rfl⟩ := h
  rw [Records.save_eq_ok hsave]

end Manager

end Ficc.Federation
