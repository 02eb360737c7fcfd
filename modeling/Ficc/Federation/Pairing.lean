import Ficc.Federation.Authority
import Mathlib.Data.Rat.Floor

/-!
# Pairing two clusters

The initiating cluster makes an offer with `start`, and the operator of the receiving cluster
approves it. `finish` asks for the receipt, stores it, and confirms it; `confirm` at the receiving
cluster completes the pairing there. `finish` is cut where it waits for the other cluster, and its
parts are named after the reply that they handle. Between the two records that such a part writes
the controller may stop.
-/

namespace Ficc.Federation

open Execution (Identity Digest Hash)

/-- The project of the local owner. -/
def LOCAL_PROJECT : Identity := 2

/-- The reply to `pair.status`. A receipt that does not decode is absent. -/
structure StatusReply where
  state : OfferState
  receipt : Option Receipt
deriving DecidableEq

/-- What the operator selects when approving an offer. -/
structure Approval where
  revision : ℕ
  grant : GrantSpec

/-- The payload of an envelope that the key has signed. -/
def Signed.verify {α : Type} (envelope : Signed α) (key : Key) : Except Error α := do
  raiseIf (envelope.signer ≠ some key)
    (.failure "federation_signature" "The FICC identity signature is invalid." 403)
  .ok envelope.payload

namespace Pairing

section PeerId

variable [Hash (Key × Identity)]

/-- The identity of a remote cluster in a project. It depends on nothing else, so a cluster that
is paired again has the same identity. -/
def peerId (cluster : Cluster) (projectId : Identity) : Identity :=
  (Hash.digest (cluster.key, projectId)).extractLsb' 128 128

end PeerId

/-- Receives an offer. The check of the caller's key is made by `serve`. -/
def incoming (s : Manager) (signed : Signed Offer) (caller principal : Key) (now : ℚ) :
    Except Error (Manager × OfferState) := do
  let offer := signed.payload
  raiseIf (offer.source.key ≠ caller)
    (.failure "pairing_context" "The offer and request use different cluster keys." 403)
  let _ ← signed.verify offer.source.key
  let own ← s.requireCluster
  raiseIf (offer.destination ≠ own ∨ offer.source.network ≠ own.network ∨
      offer.source.incarnation ≠ own.incarnation ∨ offer.source.principal ≠ principal ∨
      offer.expires ≤ now ∨ now + 600 < offer.expires)
    (.failure "pairing_context"
      "The offer does not bind this cluster, caller and current pairing window." 403)
  match s.offers.lookup offer.id with
  | some previous =>
    raiseIf (previous.offer ≠ signed ∨ previous.direction ≠ .incoming)
      (.failure "pairing_replay" "This offer identifier was already bound to another request." 409)
    .ok (s, previous.state)
  | none =>
    let s ← s.saveOffer
      { id := offer.id, projectId := LOCAL_PROJECT, direction := .incoming, state := .pending
        revision := 1, offer := signed, at_ := now, peer := none, receipt := none }
    .ok (s, .pending)

/-- The state of an offer, for the cluster that made it. -/
def status (s : Manager) (offerId : Identity) (caller principal : Key) :
    Except Error StatusReply := do
  let value ← Records.get s.offers offerId
  let offer := value.offer.payload
  raiseIf (value.direction ≠ .incoming ∨ offer.source.key ≠ caller ∨
      offer.source.principal ≠ principal)
    (.failure "pairing_context" "This caller does not own the pairing offer." 403)
  .ok { state := value.state, receipt := value.receipt }

variable [Hash (Key × Identity)] [Hash (Signed Offer)] [Hash Receipt]

/-- The receipt for an offer. -/
def receiptFor (s : Manager) (value : OfferRecord) (own : Cluster) (grant : Grant) : Receipt :=
  { payload :=
      { offer := Hash.digest value.offer, source := value.offer.payload.source
        destination := own, grant := grant.id, generation := 1, spec := grant.spec
        expires := grant.expires }
    signer := some s.key }

/-- The peer that `approve` records for a receipt. -/
def awaitingPeer (value : OfferRecord) (receipt : Receipt) (actor : Actor) (now : ℚ) : Peer :=
  let source := value.offer.payload.source
  { id := peerId source actor.projectId, projectId := actor.projectId, cluster := source
    state := .awaitingConfirmation, receipt, remoteGrant := none, lastVerified := now }

/-- The offer that `approve` records for a receipt. -/
def acceptedOffer (value : OfferRecord) (receipt : Receipt) (actor : Actor) : OfferRecord :=
  { value with
    projectId := actor.projectId, state := .accepted, revision := value.revision + 1
    peer := some (peerId value.offer.payload.source actor.projectId), receipt := some receipt }

/-- Approves an offer: creates a grant, signs the receipt, and waits for its confirmation. -/
def approve (s : Manager) (offerId : Identity) (body : Approval) (actor : Actor) (now : ℚ)
    (issued : Except Error ℚ) (credential grantId : Identity) : Except Error Manager := do
  let value ← Records.get s.offers offerId
  raiseIf (¬actor.localOwner ∧ value.projectId ≠ actor.projectId)
    (.failure "not_found" "The operation was not found." 404)
  let offer := value.offer.payload
  raiseIf (value.direction ≠ .incoming ∨ value.state ≠ .pending ∨
      value.revision ≠ body.revision ∨ offer.expires ≤ now)
    (.failure "pairing_changed" "The pairing offer expired or changed; reload before approval."
      409)
  let identity := peerId offer.source actor.projectId
  raiseIf (∃ existing ∈ s.peers.lookup identity,
      existing.state ≠ .removed ∧ existing.state ≠ .suspended)
    (.failure "pairing_exists"
      "This cluster is already paired or awaiting confirmation in the project." 409)
  let (s, grant) ← Authority.create s identity body.grant actor issued credential grantId
  let own ← s.requireCluster
  let receipt := receiptFor s value own grant
  let s ← s.savePeer (awaitingPeer value receipt actor now)
  let s ← s.saveOffer (acceptedOffer value receipt actor)
  .ok (s.note (.approved value.offer receipt))

/-- Confirms the receipt of an approved offer. -/
def confirm (s : Manager) (offerId : Identity) (receiptDigest : Digest) (caller principal : Key)
    (now : ℚ) : Except Error Manager := do
  let value ← Records.get s.offers offerId
  let current ← status s offerId caller principal
  raiseIf ((current.state ≠ .accepted ∧ current.state ≠ .paired) ∨
      current.receipt.map Hash.digest ≠ some receiptDigest)
    (.failure "pairing_receipt" "Confirm the exact operator-approved pairing receipt." 403)
  let identity ← orRaise value.peer (.value "peer")
  let peer ← Records.get s.peers identity
  raiseIf ((peer.state ≠ .awaitingConfirmation ∧ peer.state ≠ .paired) ∨
      some peer.receipt ≠ current.receipt)
    (.failure "pairing_removed" "This peer was removed or suspended." 403)
  let s ← s.savePeer { peer with state := .paired, lastVerified := now }
  s.saveOffer { value with state := .paired }

/-- The offer of a cluster to another one. -/
def offerFor (s : Manager) (own destination : Cluster) (requested : List Scope)
    (identity : Identity) (nonce : Digest) (now : ℚ) : Signed Offer :=
  { payload :=
      { id := identity, nonce, source := own, destination, expires := ⌊now⌋.toNat + 600
        requested }
    signer := some s.key }

/-- Makes an offer to the cluster behind a service, which has proved its key. -/
def start (s : Manager) (destination : Cluster) (requested : List Scope) (actor : Actor)
    (identity : Identity) (nonce : Digest) (now : ℚ) : Except Error Manager := do
  let own ← s.requireCluster
  let signed := offerFor s own destination requested identity nonce now
  let s ← s.saveOffer
    { id := identity, projectId := actor.projectId, direction := .outgoing, state := .pending
      revision := 1, offer := signed, at_ := now, peer := none, receipt := none }
  .ok ({ s with drawn := insert identity s.drawn }.note
    (.called (.offer destination.key signed)))

/-- The checks of `finish` before it asks for the state of the offer. -/
def finish (s : Manager) (offerId : Identity) (actor : Actor) : Except Error OfferRecord := do
  let value ← Records.get s.offers offerId
  actor.requireRecord value.projectId
  raiseIf (value.direction ≠ .outgoing ∨
      (value.state ≠ .pending ∧ value.state ≠ .confirming ∧ value.state ≠ .paired))
    (.failure "pairing_changed" "The outgoing pairing offer is unavailable." 409)
  .ok value

/-- The peer that `finish` records for a receipt. -/
def confirmingPeer (value : OfferRecord) (receipt : Receipt) (actor : Actor) (now : ℚ) : Peer :=
  let destination := value.offer.payload.destination
  let accepted := receipt.payload
  { id := peerId destination actor.projectId, projectId := actor.projectId
    cluster := destination, state := .confirming, receipt
    remoteGrant := some
      { id := accepted.grant, generation := accepted.generation, spec := accepted.spec
        expires := accepted.expires }
    lastVerified := now }

/-- The receipt of a reply, if it binds the offer and no other receipt stands against it. The
result is absent when the offer is not yet accepted. -/
def acceptance (s : Manager) (value : OfferRecord) (reply : StatusReply) (actor : Actor)
    (now : ℚ) : Except Error (Option Receipt) := do
  if reply.state ≠ .accepted ∧ reply.state ≠ .paired then
    .ok none
  else
    let offer := value.offer.payload
    let destination := offer.destination
    let receipt ← orRaise reply.receipt (.failure "federation_signature"
      "The FICC identity signature is invalid." 403)
    let accepted ← receipt.verify destination.key
    raiseIf (accepted.offer ≠ Hash.digest value.offer ∨ accepted.source ≠ offer.source ∨
        accepted.destination ≠ destination ∨ accepted.expires ≤ now)
      (.failure "pairing_receipt"
        "The remote acceptance does not bind this exact pairing offer." 403)
    let previous := s.peers.lookup (peerId destination actor.projectId)
    raiseIf (∃ p ∈ previous, p.state = .removed ∧ p.receipt = receipt)
      (.failure "pairing_removed" "A removed peer needs a new pairing offer." 409)
    raiseIf (∃ p ∈ previous, (p.state ≠ .removed ∧ p.state ≠ .suspended) ∧ p.receipt ≠ receipt)
      (.failure "pairing_changed"
        "A different pairing receipt is already active for this peer." 409)
    .ok (some receipt)

/-- The offer that `finish` records for a receipt. -/
def confirmingOffer (value : OfferRecord) (receipt : Receipt) (actor : Actor) : OfferRecord :=
  { value with
    state := .confirming
    peer := some (peerId value.offer.payload.destination actor.projectId)
    receipt := some receipt }

/-- Whether the relationship is still the one that was confirmed. -/
def unchanged (s : Manager) (peer : Peer) : Except Error Unit := do
  let current ← Records.get s.peers peer.id
  raiseIf ((current.state ≠ .confirming ∧ current.state ≠ .paired) ∨
      current.receipt ≠ peer.receipt)
    (.failure "pairing_changed" "The peer relationship changed during confirmation." 409)

/-! ### What the operations do when they return -/

variable {now : ℚ} {s s' : Manager} {actor : Actor} {offerId : Identity}

omit [Hash (Key × Identity)] [Hash (Signed Offer)] [Hash Receipt] in
/-- An offer that is taken in is signed by its caller and its own source. -/
theorem incoming_eq_ok {signed : Signed Offer} {caller principal : Key} {state : OfferState}
    (h : incoming s signed caller principal now = .ok (s', state)) :
    signed.signer = some caller ∧ signed.payload.source.key = caller ∧
      (s' = s ∨ s.offers.lookup signed.payload.id = none ∧
        s' = { s with
          offers := s.offers.insert signed.payload.id
            { id := signed.payload.id, projectId := LOCAL_PROJECT, direction := .incoming
              state := .pending, revision := 1, offer := signed, at_ := now, peer := none
              receipt := none } }) := by
  simp only [incoming, Signed.verify, bind_eq_ok, raiseIf_eq_ok, not_not, Except.ok.injEq] at h
  obtain ⟨-, hcaller, -, ⟨-, hsigner, -⟩, own, -, -, -, h⟩ := h
  refine ⟨hsigner.trans (congrArg some hcaller), hcaller, ?_⟩
  cases hprevious : s.offers.lookup signed.payload.id with
  | some previous =>
    simp only [hprevious, bind_eq_ok, Except.ok.injEq, Prod.mk.injEq] at h
    obtain ⟨-, -, rfl, -⟩ := h
    exact .inl rfl
  | none =>
    simp only [hprevious, bind_eq_ok, Except.ok.injEq, Prod.mk.injEq] at h
    obtain ⟨saved, hsave, rfl, -⟩ := h
    exact .inr ⟨rfl, Manager.saveOffer_eq_ok hsave⟩

omit [Hash Receipt] in
/-- An approval answers a pending offer with a receipt and gives the first grant. -/
theorem approve_eq_ok {body : Approval} {issued : Except Error ℚ} {credential grantId : Identity}
    (h : approve s offerId body actor now issued credential grantId = .ok s') :
    ∃ value created grant own, s.offers.lookup offerId = some value ∧
      value.direction = .incoming ∧ value.state = .pending ∧
      (∀ existing, s.peers.lookup (peerId value.offer.payload.source actor.projectId) =
        some existing → existing.state = .removed ∨ existing.state = .suspended) ∧
      Authority.create s (peerId value.offer.payload.source actor.projectId) body.grant actor
        issued credential grantId = .ok (created, grant) ∧
      let receipt := receiptFor s value own grant
      s' = { created with
        peers := s.peers.insert (awaitingPeer value receipt actor now).id
          (awaitingPeer value receipt actor now)
        offers := s.offers.insert value.id (acceptedOffer value receipt actor)
        history := .approved value.offer receipt :: s.history } := by
  simp only [approve, bind_eq_ok, Records.get_eq_ok, raiseIf_eq_ok, not_or, not_not, Prod.exists,
    Except.ok.injEq] at h
  obtain ⟨value, hvalue, -, -, -, ⟨hdirection, hpending, -⟩, -, hexisting, created, grant,
    hcreate, own, -, saved, hpeer, saved', hoffer, rfl⟩ := h
  obtain ⟨-, -, -, -, -, -, -, -, hcreated⟩ := Authority.create_eq_ok hcreate
  refine ⟨value, created, grant, own, hvalue, hdirection, hpending, fun existing hfound => ?_,
    hcreate, ?_⟩
  · by_contra hstate
    exact hexisting ⟨existing, hfound, not_or.mp hstate⟩
  · rw [Manager.saveOffer_eq_ok hoffer, Manager.savePeer_eq_ok hpeer, hcreated]
    rfl

omit [Hash (Key × Identity)] [Hash (Signed Offer)] in
/-- A confirmation is of the accepted receipt, by the offer's own caller. -/
theorem confirm_eq_ok {receiptDigest : Digest} {caller principal : Key}
    (h : confirm s offerId receiptDigest caller principal now = .ok s') :
    ∃ value peer identity, s.offers.lookup offerId = some value ∧ value.direction = .incoming ∧
      (value.state = .accepted ∨ value.state = .paired) ∧
      value.offer.payload.source.key = caller ∧
      value.receipt = some peer.receipt ∧ Hash.digest peer.receipt = receiptDigest ∧
      value.peer = some identity ∧ s.peers.lookup identity = some peer ∧
      (peer.state = .awaitingConfirmation ∨ peer.state = .paired) ∧
      s' = { s with
        peers := s.peers.insert peer.id { peer with state := .paired, lastVerified := now }
        offers := s.offers.insert value.id { value with state := .paired } } := by
  simp only [confirm, status, bind_eq_ok, Records.get_eq_ok, raiseIf_eq_ok, orRaise_eq_ok, not_or,
    not_and, not_not, Except.ok.injEq] at h
  obtain ⟨value, hvalue, reply, ⟨found, hfound, -, ⟨hdirection, hcaller, -⟩, rfl⟩, -,
    ⟨hstate, hdigest⟩, identity, hidentity, peer, hpeer, -, ⟨hpeerState, hreceipt⟩, saved, hsave,
    hoffer⟩ := h
  obtain rfl : found = value := Option.some.inj (hfound.symm.trans hvalue)
  refine ⟨found, peer, identity, hvalue, hdirection, ?_, hcaller, hreceipt.symm, ?_, hidentity,
    hpeer, ?_, ?_⟩
  · by_cases hof : found.state = .accepted
    · exact .inl hof
    · exact .inr (hstate hof)
  · rw [← hreceipt] at hdigest
    exact Option.some.inj hdigest
  · by_cases hof : peer.state = .awaitingConfirmation
    · exact .inl hof
    · exact .inr (hpeerState hof)
  · rw [Manager.saveOffer_eq_ok hoffer, Manager.savePeer_eq_ok hsave]

omit [Hash (Key × Identity)] [Hash (Signed Offer)] [Hash Receipt] in
/-- A new offer is stored, and then it is sent. -/
theorem start_eq_ok {destination : Cluster} {requested : List Scope} {identity : Identity}
    {nonce : Digest} (h : start s destination requested actor identity nonce now = .ok s') :
    ∃ own, s.cluster = some own ∧
      let signed := offerFor s own destination requested identity nonce now
      s' = { s with
        offers := s.offers.insert identity
          { id := identity, projectId := actor.projectId, direction := .outgoing
            state := .pending, revision := 1, offer := signed, at_ := now, peer := none
            receipt := none }
        drawn := insert identity s.drawn
        history := .called (.offer destination.key signed) :: s.history } := by
  simp only [start, Manager.requireCluster, bind_eq_ok, orRaise_eq_ok, Except.ok.injEq] at h
  obtain ⟨own, hown, saved, hsave, rfl⟩ := h
  refine ⟨own, hown, ?_⟩
  rw [Manager.saveOffer_eq_ok hsave]
  rfl

omit [Hash (Key × Identity)] [Hash (Signed Offer)] [Hash Receipt] in
/-- The offer that is asked about is an own one. -/
theorem finish_eq_ok {value : OfferRecord} (h : finish s offerId actor = .ok value) :
    s.offers.lookup offerId = some value ∧ value.direction = .outgoing ∧
      value.projectId = actor.projectId := by
  simp only [finish, Actor.requireRecord, bind_eq_ok, Records.get_eq_ok, raiseIf_eq_ok, not_or,
    not_not, Except.ok.injEq] at h
  obtain ⟨found, hfound, -, hproject, -, ⟨hdirection, -⟩, rfl⟩ := h
  exact ⟨hfound, hdirection, hproject⟩

omit [Hash (Key × Identity)] [Hash (Signed Offer)] [Hash Receipt] in
/-- The peer still has the same receipt. -/
theorem unchanged_eq_ok {peer : Peer} {u : Unit} (h : unchanged s peer = .ok u) :
    ∃ current, s.peers.lookup peer.id = some current ∧
      (current.state = .confirming ∨ current.state = .paired) ∧
      current.receipt = peer.receipt := by
  simp only [unchanged, bind_eq_ok, Records.get_eq_ok, raiseIf_eq_ok, not_or, not_and,
    not_not] at h
  obtain ⟨current, hcurrent, hstate, hreceipt⟩ := h
  refine ⟨current, hcurrent, ?_, hreceipt⟩
  by_cases hconfirming : current.state = .confirming
  · exact .inl hconfirming
  · exact .inr (hstate hconfirming)

end Pairing

end Ficc.Federation
