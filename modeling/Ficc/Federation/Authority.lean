import Ficc.Federation.Manager

/-!
# Grants and their use

`check` decides whether a grant authorises a request, and every use of a grant goes through it.
Its two remaining inputs are the time and `access`, the answer of the identity store about the
grant's credential; a credential that has been revoked is refused whatever the answer.
-/

namespace Ficc.Federation

open Execution (Identity Digest Hash)

/-- The kinds of resources that a grant selects. -/
inductive Kind
  | services | models | nodes
deriving DecidableEq

/-- The resources of a kind that a grant permits, with those that were created under it. -/
def Grant.permitted (value : Grant) : Kind → List Identity
  | .services => value.spec.services ++ value.createdServices
  | .models => value.spec.models ++ value.createdModels
  | .nodes => value.spec.nodes

namespace Authority

/-- What a step learns from outside: the time, and the answer of the identity store about the
credential that it asks about. -/
structure Local where
  now : ℚ
  access : Except Error Unit

/-- Creates a grant for a peer. `issued` is the answer of the identity store to the checks of the
selected resources and to the request for a credential, and gives the time at which it expires. -/
def create (s : Manager) (peerId : Identity) (spec : GrantSpec) (actor : Actor)
    (issued : Except Error ℚ) (credential identity : Identity) : Except Error (Manager × Grant) := do
  let expires ← issued
  let value : Grant :=
    { id := identity, projectId := actor.projectId, subjectId := actor.subjectId, peer := peerId
      credential, spec, generation := 1, state := .active, expires, usedRequests := 0
      usedBytes := 0, createdServices := [], createdModels := [] }
  let s ← s.saveGrant value
  .ok ({ s with
    credentials := insert credential s.credentials
    drawn := insert credential (insert identity s.drawn) }, value)

/-- The grant, if it authorises a request of the peer. -/
def check (s : Manager) (identity : Identity) (peer : Peer) (generation : ℕ)
    (scope : Option Scope) (resource : Option (Kind × Identity)) (env : Local) :
    Except Error Grant := do
  let value ← Records.get s.grants identity
  let currentPeer ← Records.get s.peers peer.id
  raiseIf (currentPeer.state ≠ .paired ∨ currentPeer.cluster ≠ peer.cluster ∨
      value.peer ≠ peer.id ∨ value.state ≠ .active ∨ value.generation ≠ generation ∨
      value.expires ≤ env.now)
    (.failure "federation_grant" "The peer grant is inactive, expired or has changed." 403)
  raiseIf (∃ s ∈ scope, s ∉ value.spec.scopes)
    (.failure "federation_denied" "This peer grant does not permit the operation." 403)
  raiseIf (∃ r ∈ resource, r.2 ∉ value.permitted r.1)
    (.failure "federation_denied" "This resource is not published in the peer grant." 403)
  raiseIf (value.credential ∉ s.credentials)
    (.failure "unauthenticated" "Sign in to continue." 401)
  env.access
  .ok value

/-- Admits a request of a connection, and counts it. -/
def admitRequest (s : Manager) (number : ℕ) (request : Request) (peer : Peer) (env : Local) :
    Except Error Manager := do
  let value ← check s request.grant peer request.generation none none env
  raiseIf (value.spec.concurrent ≤ (s.active value.id).card ∨
      value.spec.requests ≤ value.usedRequests)
    (.failure "federation_quota" "The peer's concurrent or request allowance is exhausted." 429)
  let s ← s.saveGrant { value with usedRequests := value.usedRequests + 1 }
  .ok ({ s with
    active := Function.update s.active value.id (insert number (s.active value.id)) }.note
      (.admitted value.id))

/-- The end of a connection. -/
def release (s : Manager) (number : ℕ) (identity : Identity) : Manager :=
  { s with active := Function.update s.active identity ((s.active identity).erase number) }

/-- Charges the bytes of a transfer to a grant. -/
def charge (s : Manager) (identity : Identity) (peer : Peer) (generation count : ℕ)
    (env : Local) : Except Error Manager := do
  let value ← check s identity peer generation (some .modelsTransfer) none env
  raiseIf (value.spec.transferBytes < value.usedBytes + count)
    (.failure "federation_quota" "The peer's model transfer allowance is exhausted." 429)
  let s ← s.saveGrant { value with usedBytes := value.usedBytes + count }
  .ok (s.note (.charged value.id count))

/-- Writes a grant as revoked, unless it is. -/
def saveRevoked (s : Manager) (value : Grant) : Except Error Manager :=
  if value.state ≠ .revoked then
    s.saveGrant { value with state := .revoked, generation := value.generation + 1 }
  else .ok s

/-- Revokes a grant and cancels its connections, up to the point at which it waits for them. What
follows that point concerns only the services that the grant created. -/
def revoke (s : Manager) (identity : Identity) (actor : Actor) : Except Error Manager := do
  let value ← Records.get s.grants identity
  actor.requireRecord value.projectId
  let s ← saveRevoked s value
  .ok { s with credentials := s.credentials.erase value.credential }

/-- What it means that a grant authorises a request of a peer. -/
structure Authorised (s : Manager) (identity : Identity) (peer : Peer) (value : Grant) :
    Prop where
  grant : s.grants.lookup identity = some value
  active : value.state = .active
  of_peer : value.peer = peer.id
  paired : ∃ current, s.peers.lookup peer.id = some current ∧ current.state = .paired

variable {env : Local} {identity : Identity} {peer : Peer} {s s' : Manager}

theorem check_eq_ok {generation : ℕ} {scope : Option Scope} {resource : Option (Kind × Identity)}
    {value : Grant} (h : check s identity peer generation scope resource env = .ok value) :
    Authorised s identity peer value := by
  simp only [check, bind_eq_ok, Records.get_eq_ok, raiseIf_eq_ok, not_or, not_not,
    Except.ok.injEq] at h
  obtain ⟨found, hgrant, current, hpeer, -, ⟨hpaired, -, hof, hactive, -⟩, -, -, -, -, -, -, -,
    -, rfl⟩ := h
  exact ⟨hgrant, hactive, hof, current, hpeer, hpaired⟩

/-- The grant of a creation. -/
theorem create_eq_ok {peerId : Identity} {spec : GrantSpec} {actor : Actor}
    {issued : Except Error ℚ} {credential : Identity} {value : Grant}
    (h : create s peerId spec actor issued credential identity = .ok (s', value)) :
    value.id = identity ∧ value.projectId = actor.projectId ∧ value.peer = peerId ∧
      value.state = .active ∧ value.usedRequests = 0 ∧ value.usedBytes = 0 ∧
      value.createdServices = [] ∧ value.createdModels = [] ∧
      s' = { s with
        grants := s.grants.insert identity value
        credentials := insert credential s.credentials
        drawn := insert credential (insert identity s.drawn) } := by
  simp only [create, bind_eq_ok, Except.ok.injEq, Prod.mk.injEq] at h
  obtain ⟨expires, -, saved, hsave, rfl, rfl⟩ := h
  rw [Manager.saveGrant_eq_ok hsave]
  exact ⟨rfl, rfl, rfl, rfl, rfl, rfl, rfl, rfl, rfl⟩

theorem admitRequest_eq_ok {number : ℕ} {request : Request}
    (h : admitRequest s number request peer env = .ok s') :
    ∃ value, Authorised s request.grant peer value ∧
      (s.active value.id).card < value.spec.concurrent ∧
      value.usedRequests < value.spec.requests ∧
      s' = { s with
        grants := s.grants.insert value.id { value with usedRequests := value.usedRequests + 1 }
        active := Function.update s.active value.id (insert number (s.active value.id))
        history := .admitted value.id :: s.history } := by
  simp only [admitRequest, bind_eq_ok, raiseIf_eq_ok, not_or, not_le, Except.ok.injEq] at h
  obtain ⟨value, hcheck, -, ⟨hconcurrent, hrequests⟩, saved, hsave, rfl⟩ := h
  rw [Manager.saveGrant_eq_ok hsave]
  exact ⟨value, check_eq_ok hcheck, hconcurrent, hrequests, rfl⟩

theorem charge_eq_ok {generation count : ℕ}
    (h : charge s identity peer generation count env = .ok s') :
    ∃ value, Authorised s identity peer value ∧
      value.usedBytes + count ≤ value.spec.transferBytes ∧
      s' = { s with
        grants := s.grants.insert value.id { value with usedBytes := value.usedBytes + count }
        history := .charged value.id count :: s.history } := by
  simp only [charge, bind_eq_ok, raiseIf_eq_ok, not_lt, Except.ok.injEq] at h
  obtain ⟨value, hcheck, -, hbytes, saved, hsave, rfl⟩ := h
  rw [Manager.saveGrant_eq_ok hsave]
  exact ⟨value, check_eq_ok hcheck, hbytes, rfl⟩

/-- The grant is the one before, after it has been revoked. -/
structure Revoked (value next : Grant) : Prop where
  id : next.id = value.id
  projectId : next.projectId = value.projectId
  peer : next.peer = value.peer
  spec : next.spec = value.spec
  state : next.state = .revoked
  usedRequests : next.usedRequests = value.usedRequests
  usedBytes : next.usedBytes = value.usedBytes
  createdServices : next.createdServices = value.createdServices
  createdModels : next.createdModels = value.createdModels

theorem revoke_eq_ok {actor : Actor}
    (hid : ∀ value, s.grants.lookup identity = some value → value.id = identity)
    (h : revoke s identity actor = .ok s') :
    ∃ value next grants credentials, s.grants.lookup identity = some value ∧
      Revoked value next ∧
      (∀ k, grants.lookup k = if k = identity then some next else s.grants.lookup k) ∧
      s' = { s with grants, credentials } := by
  simp only [revoke, bind_eq_ok, Records.get_eq_ok, Except.ok.injEq] at h
  obtain ⟨value, hvalue, -, -, saved, hsave, rfl⟩ := h
  by_cases hstate : value.state = .revoked
  · simp only [saveRevoked, hstate, ne_eq, not_true_eq_false, if_false, Except.ok.injEq] at hsave
    subst hsave
    refine ⟨value, value, s.grants, _, hvalue, ⟨rfl, rfl, rfl, rfl, hstate, rfl, rfl, rfl, rfl⟩,
      fun k => ?_, rfl⟩
    by_cases hk : k = identity
    · rw [if_pos hk, hk, hvalue]
    · rw [if_neg hk]
  · rw [saveRevoked, if_pos hstate] at hsave
    rw [Manager.saveGrant_eq_ok hsave]
    have hrevoked : Revoked value
        { value with state := .revoked, generation := value.generation + 1 } :=
      ⟨rfl, rfl, rfl, rfl, rfl, rfl, rfl, rfl, rfl⟩
    refine ⟨value, _, _, _, hvalue, hrevoked, fun k => ?_, rfl⟩
    rw [Table.lookup_insert_eq, hid value hvalue]

end Authority

end Ficc.Federation
