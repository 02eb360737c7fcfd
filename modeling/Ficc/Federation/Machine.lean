import Ficc.Federation.Operations
import Ficc.Foundations.Transition

/-!
# The federation of one cluster

Every request of the cluster's operators and of other clusters as a step on the manager. A step
that is refused leaves the state as it is. Requests are numbered, and identities that are drawn at
random are assumed to be new.

The controller may stop at any time, which is `restart`, and also between two writes of one step,
which the steps with `Stop` in their name say.
-/

namespace Ficc.Federation

open Execution (Identity Digest Hash)
open Authority (Local)
open Operations (Answers)

namespace Manager

/-- Where the controller stops while it runs an operation on models. -/
inductive Stop
  /-- The receipt is written. -/
  | receipt
  /-- The effect is done. -/
  | effect
  /-- The grant is written. -/
  | grant
deriving DecidableEq

/-- A step of the manager. `caller` is the operator that the identity store finds behind a
request, and `access` what it says when it is asked again. -/
inductive Step
  | configure (cluster : Cluster) (caller : Except Error Actor)
  | incoming (signed : Signed Offer) (caller principal : Key) (now : ℚ)
  | approve (offerId : Identity) (body : Approval) (caller : Except Error Actor) (now : ℚ)
    (issued : Except Error ℚ) (credential grantId : Identity)
  | confirm (offerId : Identity) (receipt : Digest) (caller principal : Key) (now : ℚ)
  | start (destination : Cluster) (requested : List Scope) (caller : Except Error Actor)
    (offerId : Identity) (nonce : Digest) (now : ℚ)
  | finish (number : ℕ) (offerId : Identity) (caller : Except Error Actor)
  /-- `finish` gets the reply to `pair.status`. -/
  | status (number : ℕ) (reply : Except Error StatusReply) (now : ℚ)
  /-- The same, and the controller stops before the offer is written. -/
  | statusStop (number : ℕ) (reply : Except Error StatusReply) (now : ℚ)
  /-- `finish` gets the reply to `pair.confirm`. -/
  | confirmed (number : ℕ) (reply access : Except Error Unit) (now : ℚ)
  /-- The same, and the controller stops before the offer is written. -/
  | confirmedStop (number : ℕ) (reply access : Except Error Unit) (now : ℚ)
  | discard (offerId : Identity) (caller : Except Error Actor)
  | grant (peerId : Identity) (spec : GrantSpec) (caller : Except Error Actor)
    (issued : Except Error ℚ) (credential grantId : Identity)
  | revoke (grantId : Identity) (caller : Except Error Actor)
  | remove (number : ℕ) (peerId : Identity) (caller : Except Error Actor)
  | retire (number : ℕ) (grantId : Identity) (caller : Except Error Actor)
  | forget (number : ℕ) (peerId : Identity) (caller : Except Error Actor)
  /-- A request of an operator goes on. -/
  | proceed (number : ℕ) (access : Except Error Unit)
  /-- A request of an operator is cancelled. -/
  | abandon (number : ℕ)
  /-- A reply of a peer is recorded, with the remote grant that was selected. -/
  | verified (peerId : Identity) (selected : Option RemoteGrant) (now : ℚ)
  | serve (number : ℕ) (request : Request) (principal : Key) (env : Local)
  /-- A mutation begins. -/
  | dispatch (number : ℕ) (env : Local) (answers : Answers) (effect : Except Error Result)
  /-- The same, and the controller stops. -/
  | dispatchStop (number : ℕ) (env : Local) (answers : Answers) (result : Result) (stop : Stop)
  /-- The inference service answers a mutation. -/
  | settle (number : ℕ) (effect : Except Error Result)
  /-- The same, and the controller stops before the outcome is written. -/
  | settleStop (number : ℕ) (result : Result)
  | charge (number : ℕ) (count : ℕ) (env : Local)
  /-- A connection ends. -/
  | close (number : ℕ)
  | restart
  /-- The records are restored from a backup, which suspends them. -/
  | suspend (key : Key)

/-- The controller stops and starts again. -/
def restarted (s : Manager) : Manager :=
  { s with active := fun _ => ∅, sessions := ∅, tasks := ∅ }

/-- The identity of the cluster changes only while nobody relies on it. -/
def configure (s : Manager) (cluster : Cluster) (actor : Actor) : Except Error Manager := do
  raiseIf (actor.localOwner = false)
    (.failure "denied" "The local owner configures the host's HyperNet companion." 403)
  raiseIf (cluster.key ≠ s.key) (.value "key")
  raiseIf (s.cluster ≠ none ∧ s.cluster ≠ some cluster ∧
      ∃ peer ∈ s.peers.values, peer.state ≠ .removed ∧ peer.state ≠ .suspended)
    (.failure "federation_identity_changed"
      "Remove current pairings before changing the cluster or transport identity." 409)
  .ok { s with cluster := some cluster }

/-- Deletes an offer that nobody accepted. -/
def discard (s : Manager) (offerId : Identity) (actor : Actor) : Except Error Manager := do
  let value ← Records.get s.offers offerId
  actor.requireRecord value.projectId
  raiseIf (value.state ≠ .pending ∧ value.state ≠ .suspended)
    (.failure "pairing_active"
      "Remove the peer relationship before discarding an accepted offer." 409)
  .ok { s with offers := s.offers.erase offerId }

/-- Identities that are drawn are new. -/
def requireNew (s : Manager) (identities : List Identity) : Except Error Unit :=
  raiseIf (¬identities.Nodup ∨ identities.any fun identity => decide (identity ∈ s.drawn))
    (.value "random")

/-- Gives a peer another grant. -/
def grant (s : Manager) (peerId : Identity) (spec : GrantSpec) (actor : Actor)
    (issued : Except Error ℚ) (credential grantId : Identity) : Except Error Manager := do
  let peer ← Records.get s.peers peerId
  actor.requireRecord peer.projectId
  raiseIf (peer.state ≠ .paired)
    (.failure "pairing_inactive" "Complete pairing before issuing another grant." 409)
  let (s, _) ← Authority.create s peer.id spec actor issued credential grantId
  .ok s

/-- Adds a request of an operator that waits. -/
def enqueue (s : Manager) (number : ℕ) (task : Task) : Except Error Manager := do
  raiseIf ((s.tasks.lookup number).isSome) (.value "number")
  .ok { s with tasks := s.tasks.insert number task }

/-- The start of `remove`: the grants of the peer that are active now. -/
def remove (s : Manager) (number : ℕ) (peerId : Identity) (actor : Actor) :
    Except Error Manager := do
  let peer ← Records.get s.peers peerId
  actor.requireRecord peer.projectId
  let grants := (s.grantsOf actor.projectId).filter fun grant =>
    decide (grant.peer = peerId ∧ grant.state = .active)
  s.enqueue number
    { actor, waiting := ∅
      todo := grants.map (fun grant => .revoke grant.id) ++ [.removePeer peer] }

/-- `retire`, from its start. -/
def retire (s : Manager) (number : ℕ) (grantId : Identity) (actor : Actor) :
    Except Error Manager :=
  s.enqueue number { actor, waiting := ∅, todo := [.retire grantId, .purge grantId] }

/-- The start of `forget`: all grants of the peer. -/
def forget (s : Manager) (number : ℕ) (peerId : Identity) (actor : Actor) :
    Except Error Manager := do
  let peer ← Records.get s.peers peerId
  actor.requireRecord peer.projectId
  raiseIf (peer.state ≠ .removed ∧ peer.state ≠ .suspended)
    (.failure "federation_active" "Remove the peer before forgetting its receipts." 409)
  let grants := (s.grantsOf actor.projectId).filter fun grant => decide (grant.peer = peerId)
  s.enqueue number
    { actor, waiting := ∅
      todo := grants.flatMap (fun grant =>
        [.revoke grant.id, .retire grant.id, .purge grant.id]) ++ [.forgetPeer peerId] }

/-- Performs one part of a request, and gives the connections that it then waits for. -/
def perform (s : Manager) (actor : Actor) (access : Except Error Unit) :
    Todo → Except Error (Manager × Finset ℕ)
  | .revoke grant => do
    access
    let next ← Authority.revoke s grant actor
    .ok (next, s.active grant)
  | .retire grant => do
    access
    let value ← Records.get s.grants grant
    actor.requireRecord value.projectId
    raiseIf (value.state ≠ .revoked ∧ value.state ≠ .suspended)
      (.failure "federation_active" "Revoke the grant before retiring its receipts." 409)
    let next ← Authority.revoke s grant actor
    .ok (next, s.active grant)
  | .purge grant =>
    .ok ({ s with
      operations := s.operations.discard fun _ record =>
        decide (record.projectId = actor.projectId ∧ record.grant = grant)
      grants := s.grants.erase grant }, ∅)
  | .removePeer peer => do
    let next ← s.savePeer { peer with state := .removed, remoteGrant := none }
    .ok (next.note (.removed peer.id peer.receipt), ∅)
  | .forgetPeer peerId =>
    .ok ({ s with
      offers := s.offers.discard fun _ record =>
        decide (record.projectId = actor.projectId ∧ record.peer = some peerId)
      peers := s.peers.erase peerId }, ∅)
  | .status _ | .confirm _ _ => .error (.value "reply")

/-- Ends a request of an operator. -/
def finished (s : Manager) (number : ℕ) : Manager := { s with tasks := s.tasks.erase number }

/-- The next part of a request whose connections have ended. A part that raises ends it. -/
def proceed (s : Manager) (number : ℕ) (access : Except Error Unit) : Manager :=
  match s.tasks.lookup number with
  | none => s
  | some task =>
    match task.todo with
    | [] => s.finished number
    | .status _ :: _ | .confirm _ _ :: _ => s
    | todo :: rest =>
      if ∃ session ∈ task.waiting, (s.sessions.lookup session).isSome then s
      else
        match perform s task.actor access todo with
        | .error _ => s.finished number
        | .ok (next, waiting) =>
          { next with tasks := next.tasks.insert number { task with todo := rest, waiting } }

section Finish

variable [Hash (Key × Identity)] [Hash (Signed Offer)] [Hash Receipt]

/-- `finish` handles the reply to `pair.status` by writing the peer. -/
def statusPeer (s : Manager) (value : OfferRecord) (reply : Except Error StatusReply)
    (actor : Actor) (now : ℚ) : Except Error (Option (Manager × Receipt)) := do
  let reply ← reply
  match ← Pairing.acceptance s value reply actor now with
  | none => .ok none
  | some receipt =>
    let s ← s.savePeer (Pairing.confirmingPeer value receipt actor now)
    .ok (some (s, receipt))

/-- `finish` handles the reply to `pair.status`: it writes the peer and the offer, and confirms
the receipt. -/
def status (s : Manager) (number : ℕ) (reply : Except Error StatusReply) (now : ℚ) : Manager :=
  match s.tasks.lookup number with
  | some { actor, todo := [.status value], .. } =>
    match statusPeer s value reply actor now with
    | .error _ | .ok none => s.finished number
    | .ok (some (next, receipt)) =>
      let offer := Pairing.confirmingOffer value receipt actor
      match next.saveOffer offer with
      | .error _ => next.finished number
      | .ok next =>
        let peer := Pairing.confirmingPeer value receipt actor now
        let call := .confirm peer.cluster.key offer.id (Hash.digest receipt)
        ({ next with
          tasks := next.tasks.insert number
            { actor, todo := [.confirm offer peer], waiting := ∅ } }.note
          (.stored value.offer receipt)).note (.called call)
  | _ => s

/-- The same, when the controller stops before the offer is written. -/
def statusStop (s : Manager) (number : ℕ) (reply : Except Error StatusReply) (now : ℚ) :
    Manager :=
  match s.tasks.lookup number with
  | some { actor, todo := [.status value], .. } =>
    match statusPeer s value reply actor now with
    | .error _ | .ok none => s
    | .ok (some (next, _)) => next.restarted
  | _ => s

omit [Hash (Key × Identity)] [Hash (Signed Offer)] [Hash Receipt]

/-- `finish` handles the reply to `pair.confirm` by writing the peer. -/
def confirmedPeer (s : Manager) (peer : Peer) (reply access : Except Error Unit) (now : ℚ) :
    Except Error Manager := do
  reply
  access
  Pairing.unchanged s peer
  s.savePeer { peer with state := .paired, lastVerified := now }

/-- `finish` handles the reply to `pair.confirm`: it writes the peer and the offer. -/
def confirmed (s : Manager) (number : ℕ) (reply access : Except Error Unit) (now : ℚ) : Manager :=
  match s.tasks.lookup number with
  | some { todo := [.confirm offer peer], .. } =>
    match confirmedPeer s peer reply access now with
    | .error _ => s.finished number
    | .ok next =>
      match next.saveOffer { offer with state := .paired } with
      | .error _ => next.finished number
      | .ok next => next.finished number
  | _ => s

/-- The same, when the controller stops before the offer is written. -/
def confirmedStop (s : Manager) (number : ℕ) (reply access : Except Error Unit) (now : ℚ) :
    Manager :=
  match s.tasks.lookup number with
  | some { todo := [.confirm _ peer], .. } =>
    match confirmedPeer s peer reply access now with
    | .error _ => s
    | .ok next => next.restarted
  | _ => s

end Finish

/-- The reply of a peer shows that it is there, and may give a new remote grant. -/
def verified (s : Manager) (peerId : Identity) (selected : Option RemoteGrant) (now : ℚ) :
    Except Error Manager := do
  let current ← Records.get s.peers peerId
  raiseIf (current.state ≠ .paired)
    (.failure "pairing_changed" "The peer relationship changed during the request." 409)
  s.savePeer { current with
    lastVerified := now
    remoteGrant := if selected.isSome then selected else current.remoteGrant }

/-- Admits the request of a connection. -/
def serve (s : Manager) (number : ℕ) (request : Request) (principal : Key) (env : Local) :
    Except Error Manager := do
  raiseIf ((s.sessions.lookup number).isSome) (.value "number")
  let grant ← Records.get s.grants request.grant
  let peer ← Records.get s.peers grant.peer
  raiseIf (peer.cluster.key ≠ request.source ∨ peer.cluster.principal ≠ principal)
    (.failure "federation_identity"
      "The FICC key and HyperNet principal do not match this peer grant." 403)
  let s ← Authority.admitRequest s number request peer env
  .ok { s with sessions := s.sessions.insert number { request, peer, phase := .admitted } }

/-- Moves a connection to another phase. -/
def enter (s : Manager) (number : ℕ) (session : Session) (phase : Phase) : Manager :=
  { s with sessions := s.sessions.insert number { session with phase } }

section Dispatch

variable [Hash Arguments]

/-- A mutation begins. One that does not wait is also settled. -/
def dispatch (s : Manager) (number : ℕ) (env : Local) (answers : Answers)
    (effect : Except Error Result) : Manager :=
  match s.sessions.lookup number with
  | some session@{ request, peer, phase := .admitted } =>
    match Operations.dispatch s request peer env answers with
    | .error _ | .ok (.repeated _) => s.enter number session .done
    | .ok (.begun next record) =>
      let next := next.note (.effect request)
      if Operations.waits request.operation then next.enter number session (.mutating record)
      else (Operations.settle next request record effect).enter number session .done
  | _ => s

/-- A mutation begins, and the controller stops. -/
def dispatchStop (s : Manager) (number : ℕ) (env : Local) (answers : Answers) (result : Result)
    (stop : Stop) : Manager :=
  match s.sessions.lookup number with
  | some { request, peer, phase := .admitted } =>
    match Operations.dispatch s request peer env answers with
    | .error _ | .ok (.repeated _) => s
    | .ok (.begun next _) =>
      match stop with
      | .receipt => next.restarted
      | .effect => (next.note (.effect request)).restarted
      | .grant =>
        if Operations.waits request.operation then s
        else
          match Operations.register (next.note (.effect request)) request result with
          | .error _ => s
          | .ok next => next.restarted
  | _ => s

end Dispatch

/-- The inference service answers a mutation. -/
def settle (s : Manager) (number : ℕ) (effect : Except Error Result) : Manager :=
  match s.sessions.lookup number with
  | some session@{ request, phase := .mutating record, .. } =>
    (Operations.settle s request record effect).enter number session .done
  | _ => s

/-- The inference service answers a mutation, and the controller stops between the write of the
grant and the write of the outcome. -/
def settleStop (s : Manager) (number : ℕ) (result : Result) : Manager :=
  match s.sessions.lookup number with
  | some { request, phase := .mutating _, .. } =>
    match Operations.register s request result with
    | .error _ => s
    | .ok next => next.restarted
  | _ => s

/-- A transfer of a connection sends some bytes. -/
def charge (s : Manager) (number count : ℕ) (env : Local) : Except Error Manager := do
  let session ← orRaise (s.sessions.lookup number) (.value "number")
  Authority.charge s session.request.grant session.peer session.request.generation count env

/-- A connection ends. -/
def close (s : Manager) (number : ℕ) : Manager :=
  match s.sessions.lookup number with
  | none => s
  | some session =>
    let s := Authority.release s number session.request.grant
    { s with sessions := s.sessions.erase number }

/-- Restores the records from a backup: nothing stays in force. A backup has no cluster key, so
the controller draws a new one. -/
def suspended (s : Manager) (key : Key) : Manager :=
  { s.restarted with
    key, cluster := none
    peers := s.peers.mapRows fun peer => { peer with state := .suspended }
    offers := s.offers.mapRows fun offer => { offer with state := .suspended }
    grants := s.grants.mapRows fun grant => { grant with state := .suspended } }

/-- The state after an operation, which changes nothing when it raises. -/
def after (s : Manager) : Except Error Manager → Manager
  | .ok next => next
  | .error _ => s

variable [Hash (Key × Identity)] [Hash (Signed Offer)] [Hash Receipt] [Hash Arguments]

/-- Performs a step. -/
def step (s : Manager) : Step → Manager
  | .configure cluster caller => s.after (caller >>= s.configure cluster)
  | .incoming signed caller principal now =>
    s.after ((Pairing.incoming s signed caller principal now).map Prod.fst)
  | .approve offerId body caller now issued credential grantId => s.after do
    s.requireNew [credential, grantId]
    let actor ← caller
    Pairing.approve s offerId body actor now issued credential grantId
  | .confirm offerId receipt caller principal now =>
    s.after (Pairing.confirm s offerId receipt caller principal now)
  | .start destination requested caller offerId nonce now => s.after do
    s.requireNew [offerId]
    let actor ← caller
    Pairing.start s destination requested actor offerId nonce now
  | .finish number offerId caller => s.after do
    let actor ← caller
    let value ← Pairing.finish s offerId actor
    let next ← s.enqueue number { actor, todo := [.status value], waiting := ∅ }
    .ok (next.note (.called (.status value.offer.payload.destination.key offerId)))
  | .status number reply now => s.status number reply now
  | .statusStop number reply now => s.statusStop number reply now
  | .confirmed number reply access now => s.confirmed number reply access now
  | .confirmedStop number reply access now => s.confirmedStop number reply access now
  | .discard offerId caller => s.after (caller >>= s.discard offerId)
  | .grant peerId spec caller issued credential grantId => s.after do
    s.requireNew [credential, grantId]
    let actor ← caller
    s.grant peerId spec actor issued credential grantId
  | .revoke grantId caller => s.after (caller >>= Authority.revoke s grantId)
  | .remove number peerId caller => s.after (caller >>= s.remove number peerId)
  | .retire number grantId caller => s.after (caller >>= s.retire number grantId)
  | .forget number peerId caller => s.after (caller >>= s.forget number peerId)
  | .proceed number access => s.proceed number access
  | .abandon number => s.finished number
  | .verified peerId selected now => s.after (s.verified peerId selected now)
  | .serve number request principal env => s.after (s.serve number request principal env)
  | .dispatch number env answers effect => s.dispatch number env answers effect
  | .dispatchStop number env answers result stop => s.dispatchStop number env answers result stop
  | .settle number effect => s.settle number effect
  | .settleStop number result => s.settleStop number result
  | .charge number count env => s.after (s.charge number count env)
  | .close number => s.close number
  | .restart => s.restarted
  | .suspend key => s.suspended key

end Manager

end Ficc.Federation
