import Ficc.Federation.Machine

/-!
# What a step of the federation can do

`Change s a s'` lists everything that the step `a` can do to the manager, with the facts that the
step has checked, and `change_step` says that every step is in the list. The invariants of the
federation are proved from this list and do not look at the operations again.
-/

namespace Ficc.Federation

open Execution (Identity Digest Hash)
open Authority (Local Authorised Revoked)
open Operations (Answers Registered Settles)

namespace Manager

/-- The records of the tables are under their own identities, and grants have drawn ones. -/
structure Keyed (s : Manager) : Prop where
  grants : s.grants.KeyedBy Grant.id
  peers : s.peers.KeyedBy Peer.id
  offers : s.offers.KeyedBy OfferRecord.id
  drawn : ∀ {k value}, s.grants.lookup k = some value → k ∈ s.drawn

/-- A task waits for nobody that is still connected. -/
def Ready (s : Manager) (task : Task) : Prop :=
  ∀ session ∈ task.waiting, s.sessions.lookup session = none

variable [Hash (Key × Identity)] [Hash (Signed Offer)] [Hash Receipt] [Hash Arguments]

/-- What a step can do. -/
inductive Change (s : Manager) : Step → Manager → Prop
  /-- The step is refused, or finds nothing to do. -/
  | refused (a : Step) : Change s a s
  | configure {cluster : Cluster} {caller : Except Error Actor} (hkey : cluster.key = s.key) :
    Change s (.configure cluster caller) { s with cluster := some cluster }
  | incoming {signed : Signed Offer} {caller principal : Key} {now : ℚ}
    (hsigner : signed.signer = some caller) (hsource : signed.payload.source.key = caller)
    (hnew : s.offers.lookup signed.payload.id = none) :
    Change s (.incoming signed caller principal now)
      { s with
        offers := s.offers.insert signed.payload.id
          { id := signed.payload.id, projectId := LOCAL_PROJECT, direction := .incoming
            state := .pending, revision := 1, offer := signed, at_ := now, peer := none
            receipt := none } }
  | approve {offerId : Identity} {body : Approval} {actor : Actor} {now : ℚ}
    {issued : Except Error ℚ} {credential grantId : Identity} {value : OfferRecord}
    {grant : Grant} {own : Cluster} {credentials : Finset Identity} {receipt : Receipt}
    (hnew : grantId ∉ s.drawn) (hvalue : s.offers.lookup offerId = some value)
    (hdirection : value.direction = .incoming) (hstate : value.state = .pending)
    (hexisting : ∀ existing,
      s.peers.lookup (Pairing.peerId value.offer.payload.source actor.projectId) =
        some existing → existing.state = .removed ∨ existing.state = .suspended)
    (hid : grant.id = grantId) (hproject : grant.projectId = actor.projectId)
    (hpeer : grant.peer = Pairing.peerId value.offer.payload.source actor.projectId)
    (hactive : grant.state = .active) (hrequests : grant.usedRequests = 0)
    (hbytes : grant.usedBytes = 0) (hservices : grant.createdServices = [])
    (hmodels : grant.createdModels = [])
    (hreceipt : receipt = Pairing.receiptFor s value own grant) :
    Change s (.approve offerId body (.ok actor) now issued credential grantId)
      { s with
        credentials
        peers := s.peers.insert (Pairing.peerId value.offer.payload.source actor.projectId)
          (Pairing.awaitingPeer value receipt actor now)
        offers := s.offers.insert value.id (Pairing.acceptedOffer value receipt actor)
        grants := s.grants.insert grantId grant
        drawn := insert credential (insert grantId s.drawn)
        history := .approved value.offer receipt :: s.history }
  | confirm {offerId : Identity} {receiptDigest : Digest} {caller principal : Key} {now : ℚ}
    {value : OfferRecord} {peer : Peer} {identity : Identity}
    (hvalue : s.offers.lookup offerId = some value) (hdirection : value.direction = .incoming)
    (hstate : value.state = .accepted ∨ value.state = .paired)
    (hcaller : value.offer.payload.source.key = caller)
    (hreceipt : value.receipt = some peer.receipt)
    (hdigest : Hash.digest peer.receipt = receiptDigest) (hidentity : value.peer = some identity)
    (hpeer : s.peers.lookup identity = some peer)
    (hpeerState : peer.state = .awaitingConfirmation ∨ peer.state = .paired) :
    Change s (.confirm offerId receiptDigest caller principal now)
      { s with
        peers := s.peers.insert peer.id { peer with state := .paired, lastVerified := now }
        offers := s.offers.insert value.id { value with state := .paired } }
  | start {destination own : Cluster} {requested : List Scope} {actor : Actor}
    {offerId : Identity} {nonce : Digest} {now : ℚ} (hnew : offerId ∉ s.drawn)
    (hown : s.cluster = some own) :
    Change s (.start destination requested (.ok actor) offerId nonce now)
      { s with
        offers := s.offers.insert offerId
          { id := offerId, projectId := actor.projectId, direction := .outgoing
            state := .pending, revision := 1
            offer := Pairing.offerFor s own destination requested offerId nonce now
            at_ := now, peer := none, receipt := none }
        drawn := insert offerId s.drawn
        history := .called (.offer destination.key
          (Pairing.offerFor s own destination requested offerId nonce now)) :: s.history }
  | finish {number : ℕ} {offerId : Identity} {actor : Actor} {value : OfferRecord}
    (hfree : s.tasks.lookup number = none) (hvalue : s.offers.lookup offerId = some value)
    (hdirection : value.direction = .outgoing) (hproject : value.projectId = actor.projectId) :
    Change s (.finish number offerId (.ok actor))
      { s with
        tasks := s.tasks.insert number { actor, todo := [.status value], waiting := ∅ }
        history :=
          .called (.status value.offer.payload.destination.key offerId) :: s.history }
  /-- `finish` stores the receipt of the reply. -/
  | status {number : ℕ} {reply : StatusReply} {now : ℚ} {actor : Actor} {value : OfferRecord}
    {receipt : Receipt} {waiting : Finset ℕ}
    (htask : s.tasks.lookup number = some { actor, todo := [.status value], waiting })
    (haccepted : Pairing.acceptance s value reply actor now = .ok (some receipt)) :
    Change s (.status number (.ok reply) now)
      { s with
        peers := s.peers.insert (Pairing.peerId value.offer.payload.destination actor.projectId)
          (Pairing.confirmingPeer value receipt actor now)
        offers := s.offers.insert value.id (Pairing.confirmingOffer value receipt actor)
        tasks := s.tasks.insert number
          { actor
            todo := [.confirm (Pairing.confirmingOffer value receipt actor)
              (Pairing.confirmingPeer value receipt actor now)]
            waiting := ∅ }
        history :=
          .called (.confirm value.offer.payload.destination.key value.id (Hash.digest receipt)) ::
            .stored value.offer receipt :: s.history }
  /-- `finish` writes only the peer, and ends or is lost. -/
  | statusHalf {a : Step} {number : ℕ} {reply : StatusReply} {now : ℚ} {actor : Actor}
    {value : OfferRecord} {receipt : Receipt} {waiting : Finset ℕ} {next s' : Manager}
    (ha : a = .status number (.ok reply) now ∨ a = .statusStop number (.ok reply) now)
    (htask : s.tasks.lookup number = some { actor, todo := [.status value], waiting })
    (haccepted : Pairing.acceptance s value reply actor now = .ok (some receipt))
    (hnext : next = { s with
      peers := s.peers.insert (Pairing.peerId value.offer.payload.destination actor.projectId)
        (Pairing.confirmingPeer value receipt actor now) })
    (hs' : s' = next.finished number ∨ s' = next.restarted) : Change s a s'
  | confirmed {number : ℕ} {access : Except Error Unit} {now : ℚ} {actor : Actor}
    {offer : OfferRecord} {peer current : Peer} {waiting : Finset ℕ}
    (htask : s.tasks.lookup number = some { actor, todo := [.confirm offer peer], waiting })
    (hcurrent : s.peers.lookup peer.id = some current)
    (hstate : current.state = .confirming ∨ current.state = .paired)
    (hreceipt : current.receipt = peer.receipt) :
    Change s (.confirmed number (.ok ()) access now)
      { s with
        peers := s.peers.insert peer.id { peer with state := .paired, lastVerified := now }
        offers := s.offers.insert offer.id { offer with state := .paired }
        tasks := s.tasks.erase number }
  /-- `finish` writes only the peer, and ends or is lost. -/
  | confirmedHalf {a : Step} {number : ℕ} {access : Except Error Unit} {now : ℚ} {actor : Actor}
    {offer : OfferRecord} {peer current : Peer} {waiting : Finset ℕ} {next s' : Manager}
    (ha : a = .confirmed number (.ok ()) access now ∨
      a = .confirmedStop number (.ok ()) access now)
    (htask : s.tasks.lookup number = some { actor, todo := [.confirm offer peer], waiting })
    (hcurrent : s.peers.lookup peer.id = some current)
    (hstate : current.state = .confirming ∨ current.state = .paired)
    (hreceipt : current.receipt = peer.receipt)
    (hnext : next = { s with
      peers := s.peers.insert peer.id { peer with state := .paired, lastVerified := now } })
    (hs' : s' = next.finished number ∨ s' = next.restarted) : Change s a s'
  | discard {offerId : Identity} {caller : Except Error Actor} :
    Change s (.discard offerId caller) { s with offers := s.offers.erase offerId }
  | grant {peerId : Identity} {spec : GrantSpec} {actor : Actor} {issued : Except Error ℚ}
    {credential grantId : Identity} {peer : Peer} {value : Grant} {credentials : Finset Identity}
    (hnew : grantId ∉ s.drawn) (hpeer : s.peers.lookup peerId = some peer)
    (hpaired : peer.state = .paired) (hproject : peer.projectId = actor.projectId)
    (hid : value.id = grantId) (hof : value.projectId = actor.projectId)
    (hto : value.peer = peer.id) (hactive : value.state = .active)
    (hrequests : value.usedRequests = 0) (hbytes : value.usedBytes = 0)
    (hservices : value.createdServices = []) (hmodels : value.createdModels = []) :
    Change s (.grant peerId spec (.ok actor) issued credential grantId)
      { s with
        credentials
        grants := s.grants.insert grantId value
        drawn := insert credential (insert grantId s.drawn) }
  | revoke {grantId : Identity} {caller : Except Error Actor} {value next : Grant}
    {grants : Table Identity Grant} {credentials : Finset Identity}
    (hvalue : s.grants.lookup grantId = some value) (hnext : Revoked value next)
    (hgrants : ∀ k, grants.lookup k = if k = grantId then some next else s.grants.lookup k) :
    Change s (.revoke grantId caller) { s with grants, credentials }
  | remove {number : ℕ} {peerId : Identity} {actor : Actor} {peer : Peer}
    (hfree : s.tasks.lookup number = none) (hpeer : s.peers.lookup peerId = some peer)
    (hproject : peer.projectId = actor.projectId) :
    Change s (.remove number peerId (.ok actor))
      { s with
        tasks := s.tasks.insert number
          { actor, waiting := ∅
            todo := ((s.grantsOf actor.projectId).filter fun grant =>
                decide (grant.peer = peerId ∧ grant.state = .active)).map
                  (fun grant => .revoke grant.id) ++ [.removePeer peer] } }
  | retire {number : ℕ} {grantId : Identity} {actor : Actor}
    (hfree : s.tasks.lookup number = none) :
    Change s (.retire number grantId (.ok actor))
      { s with
        tasks := s.tasks.insert number
          { actor, waiting := ∅, todo := [.retire grantId, .purge grantId] } }
  | forget {number : ℕ} {peerId : Identity} {actor : Actor} {peer : Peer}
    (hfree : s.tasks.lookup number = none) (hpeer : s.peers.lookup peerId = some peer)
    (hproject : peer.projectId = actor.projectId)
    (hstate : peer.state = .removed ∨ peer.state = .suspended) :
    Change s (.forget number peerId (.ok actor))
      { s with
        tasks := s.tasks.insert number
          { actor, waiting := ∅
            todo := ((s.grantsOf actor.projectId).filter fun grant =>
                decide (grant.peer = peerId)).flatMap (fun grant =>
                  [.revoke grant.id, .retire grant.id, .purge grant.id]) ++
              [.forgetPeer peerId] } }
  /-- A request of an operator ends. -/
  | ends (a : Step) (number : ℕ) : Change s a (s.finished number)
  /-- A request of an operator revokes a grant. -/
  | revokes {number : ℕ} {access : Except Error Unit} {task : Task} {todo : Todo}
    {rest : List Todo} {grantId : Identity} {value next : Grant} {grants : Table Identity Grant}
    {credentials : Finset Identity} (htask : s.tasks.lookup number = some task)
    (htodo : task.todo = todo :: rest) (hready : s.Ready task)
    (hkind : todo = .revoke grantId ∨ todo = .retire grantId)
    (hvalue : s.grants.lookup grantId = some value) (hnext : Revoked value next)
    (hgrants : ∀ k, grants.lookup k = if k = grantId then some next else s.grants.lookup k) :
    Change s (.proceed number access)
      { s with
        grants, credentials
        tasks := s.tasks.insert number
          { task with todo := rest, waiting := s.active grantId } }
  | purges {number : ℕ} {access : Except Error Unit} {task : Task} {rest : List Todo}
    {grantId : Identity} (htask : s.tasks.lookup number = some task)
    (htodo : task.todo = .purge grantId :: rest) (hready : s.Ready task) :
    Change s (.proceed number access)
      { s with
        operations := s.operations.discard fun _ record =>
          decide (record.projectId = task.actor.projectId ∧ record.grant = grantId)
        grants := s.grants.erase grantId
        tasks := s.tasks.insert number { task with todo := rest, waiting := ∅ } }
  | removesPeer {number : ℕ} {access : Except Error Unit} {task : Task} {rest : List Todo}
    {peer : Peer} (htask : s.tasks.lookup number = some task)
    (htodo : task.todo = .removePeer peer :: rest) (hready : s.Ready task) :
    Change s (.proceed number access)
      { s with
        peers := s.peers.insert peer.id { peer with state := .removed, remoteGrant := none }
        tasks := s.tasks.insert number { task with todo := rest, waiting := ∅ }
        history := .removed peer.id peer.receipt :: s.history }
  | forgetsPeer {number : ℕ} {access : Except Error Unit} {task : Task} {rest : List Todo}
    {peerId : Identity} (htask : s.tasks.lookup number = some task)
    (htodo : task.todo = .forgetPeer peerId :: rest) (hready : s.Ready task) :
    Change s (.proceed number access)
      { s with
        offers := s.offers.discard fun _ record =>
          decide (record.projectId = task.actor.projectId ∧ record.peer = some peerId)
        peers := s.peers.erase peerId
        tasks := s.tasks.insert number { task with todo := rest, waiting := ∅ } }
  | verified {peerId : Identity} {selected remoteGrant : Option RemoteGrant} {now : ℚ}
    {current : Peer} (hcurrent : s.peers.lookup peerId = some current)
    (hpaired : current.state = .paired) :
    Change s (.verified peerId selected now)
      { s with
        peers := s.peers.insert current.id { current with lastVerified := now, remoteGrant } }
  | serve {number : ℕ} {request : Request} {principal : Key} {env : Local} {peer : Peer}
    {value : Grant} (hfree : s.sessions.lookup number = none)
    (hauthorised : Authorised s request.grant peer value)
    (hconcurrent : (s.active value.id).card < value.spec.concurrent)
    (hrequests : value.usedRequests < value.spec.requests) :
    Change s (.serve number request principal env)
      { s with
        grants := s.grants.insert value.id { value with usedRequests := value.usedRequests + 1 }
        active := Function.update s.active value.id (insert number (s.active value.id))
        sessions := s.sessions.insert number { request, peer, phase := .admitted }
        history := .admitted value.id :: s.history }
  /-- An operation returns or raises without an effect. -/
  | returns {a : Step} {number : ℕ} {session : Session}
    (hsession : s.sessions.lookup number = some session) (hphase : session.phase = .admitted) :
    Change s a (s.enter number session .done)
  /-- A mutation begins and waits. -/
  | begins {number : ℕ} {env : Local} {answers : Answers} {effect : Except Error Result}
    {session : Session} {grant : Grant} {record : OperationRecord}
    (hsession : s.sessions.lookup number = some session) (hphase : session.phase = .admitted)
    (hbegun : Operations.dispatch s session.request session.peer env answers =
      .ok (.begun { s with operations := s.operations.insert session.request.id record } record))
    (hwaits : Operations.waits session.request.operation = true)
    (hrecord : record = Operations.receipt session.request grant env.now) :
    Change s (.dispatch number env answers effect)
      { s with
        operations := s.operations.insert session.request.id record
        sessions := s.sessions.insert number { session with phase := .mutating record }
        history := .effect session.request :: s.history }
  /-- A mutation begins and is settled at once. -/
  | runs {number : ℕ} {env : Local} {answers : Answers} {effect : Except Error Result}
    {session : Session} {grant : Grant} {record next : OperationRecord}
    {grants : Table Identity Grant}
    (hsession : s.sessions.lookup number = some session) (hphase : session.phase = .admitted)
    (hbegun : Operations.dispatch s session.request session.peer env answers =
      .ok (.begun { s with operations := s.operations.insert session.request.id record } record))
    (hrecord : record = Operations.receipt session.request grant env.now)
    (houtcome : grants = s.grants ∧ next = record ∨
      Registered s session.request grants ∧ Settles record next) :
    Change s (.dispatch number env answers effect)
      { s with
        grants
        operations := s.operations.insert session.request.id next
        sessions := s.sessions.insert number { session with phase := .done }
        history := .effect session.request :: s.history }
  /-- A mutation begins and the controller stops: before the effect, or after it. -/
  | beginsStop {number : ℕ} {env : Local} {answers : Answers} {result : Result} {stop : Stop}
    {session : Session} {grant : Grant} {record : OperationRecord}
    {grants : Table Identity Grant} {events : List Event}
    (hsession : s.sessions.lookup number = some session) (hphase : session.phase = .admitted)
    (hbegun : Operations.dispatch s session.request session.peer env answers =
      .ok (.begun { s with operations := s.operations.insert session.request.id record } record))
    (hrecord : record = Operations.receipt session.request grant env.now)
    (hevents : events = [] ∨ events = [.effect session.request])
    (hgrants : grants = s.grants ∨ stop = .grant ∧ Registered s session.request grants) :
    Change s (.dispatchStop number env answers result stop)
      { s with
        grants
        operations := s.operations.insert session.request.id record
        active := fun _ => ∅
        sessions := ∅
        tasks := ∅
        history := events ++ s.history }
  /-- The outcome of a mutation is written, or stays unknown. -/
  | settle {number : ℕ} {effect : Except Error Result} {session : Session}
    {record : OperationRecord} (hsession : s.sessions.lookup number = some session)
    (hphase : session.phase = .mutating record) :
    Change s (.settle number effect)
      ((Operations.settle s session.request record effect).enter number session .done)
  | settleStop {number : ℕ} {result : Result} {session : Session} {record : OperationRecord}
    {grants : Table Identity Grant} (hsession : s.sessions.lookup number = some session)
    (hphase : session.phase = .mutating record)
    (hgrants : Registered s session.request grants) :
    Change s (.settleStop number result)
      { s with grants, active := fun _ => ∅, sessions := ∅, tasks := ∅ }
  | charge {number count : ℕ} {env : Local} {session : Session} {value : Grant}
    (hsession : s.sessions.lookup number = some session)
    (hauthorised : Authorised s session.request.grant session.peer value)
    (hbytes : value.usedBytes + count ≤ value.spec.transferBytes) :
    Change s (.charge number count env)
      { s with
        grants := s.grants.insert value.id { value with usedBytes := value.usedBytes + count }
        history := .charged value.id count :: s.history }
  | close {number : ℕ} {session : Session}
    (hsession : s.sessions.lookup number = some session) :
    Change s (.close number)
      { s with
        active := Function.update s.active session.request.grant
          ((s.active session.request.grant).erase number)
        sessions := s.sessions.erase number }
  | restart : Change s .restart s.restarted
  | suspend (key : Key) : Change s (.suspend key) (s.suspended key)

/-- An operation that raises is refused. -/
theorem change_after {s : Manager} {a : Step} {r : Except Error Manager}
    (h : ∀ s', r = .ok s' → Change s a s') : Change s a (s.after r) := by
  cases r with
  | error _ => exact .refused a
  | ok s' => exact h s' rfl

omit [Hash (Key × Identity)] [Hash (Signed Offer)] [Hash Receipt] [Hash Arguments] in
/-- A task is added under a new number. -/
theorem enqueue_eq_ok {s s' : Manager} {number : ℕ} {task : Task}
    (h : s.enqueue number task = .ok s') :
    s.tasks.lookup number = none ∧ s' = { s with tasks := s.tasks.insert number task } := by
  simp only [enqueue, bind_eq_ok, raiseIf_eq_ok, Except.ok.injEq, Option.not_isSome_iff_eq_none] at h
  obtain ⟨-, hfree, rfl⟩ := h
  exact ⟨hfree, rfl⟩

omit [Hash (Key × Identity)] [Hash (Signed Offer)] [Hash Receipt] [Hash Arguments] in
/-- A required name is new. -/
theorem new_of_requireNew {s : Manager} {identities : List Identity} {u : Unit}
    (h : s.requireNew identities = .ok u) {identity : Identity} (hmem : identity ∈ identities) :
    identity ∉ s.drawn := by
  simp only [requireNew, raiseIf_eq_ok, not_or] at h
  intro hdrawn
  exact h.2 (List.any_eq_true.mpr ⟨identity, hmem, decide_eq_true hdrawn⟩)

section Operators

theorem change_configure (s : Manager) (cluster : Cluster) (caller : Except Error Actor) :
    Change s (.configure cluster caller) (s.after (caller >>= s.configure cluster)) := by
  refine change_after fun s' h => ?_
  simp only [bind_eq_ok, configure, raiseIf_eq_ok, not_not, Except.ok.injEq] at h
  obtain ⟨actor, -, -, -, -, hkey, -, -, rfl⟩ := h
  exact .configure hkey

theorem change_approve (s : Manager) (offerId : Identity) (body : Approval)
    (caller : Except Error Actor) (now : ℚ) (issued : Except Error ℚ)
    (credential grantId : Identity) :
    Change s (.approve offerId body caller now issued credential grantId)
      (step s (.approve offerId body caller now issued credential grantId)) := by
  refine change_after fun s' h => ?_
  simp only [bind_eq_ok] at h
  obtain ⟨_, hnew, actor, rfl, h⟩ := h
  obtain ⟨value, created, grant, own, hvalue, hdirection, hstate, hexisting, hcreate, rfl⟩ :=
    Pairing.approve_eq_ok h
  obtain ⟨hid, hproject, hpeer, hactive, hrequests, hbytes, hservices, hmodels, rfl⟩ :=
    Authority.create_eq_ok hcreate
  exact .approve (new_of_requireNew hnew (by simp)) hvalue hdirection hstate hexisting hid hproject hpeer
    hactive hrequests hbytes hservices hmodels rfl

theorem change_start (s : Manager) (destination : Cluster) (requested : List Scope)
    (caller : Except Error Actor) (offerId : Identity) (nonce : Digest) (now : ℚ) :
    Change s (.start destination requested caller offerId nonce now)
      (step s (.start destination requested caller offerId nonce now)) := by
  simp only [step]
  refine change_after fun s' h => ?_
  simp only [bind_eq_ok] at h
  obtain ⟨_, hnew, actor, rfl, h⟩ := h
  obtain ⟨own, hown, rfl⟩ := Pairing.start_eq_ok h
  exact .start (new_of_requireNew hnew (by simp)) hown

theorem change_finish (s : Manager) (number : ℕ) (offerId : Identity)
    (caller : Except Error Actor) :
    Change s (.finish number offerId caller) (step s (.finish number offerId caller)) := by
  refine change_after fun s' h => ?_
  simp only [bind_eq_ok, Except.ok.injEq] at h
  obtain ⟨actor, rfl, value, hfinish, next, henqueue, rfl⟩ := h
  obtain ⟨hvalue, hdirection, hproject⟩ := Pairing.finish_eq_ok hfinish
  obtain ⟨hfree, rfl⟩ := enqueue_eq_ok henqueue
  exact .finish hfree hvalue hdirection hproject

theorem change_grant (s : Manager) (peerId : Identity) (spec : GrantSpec)
    (caller : Except Error Actor) (issued : Except Error ℚ) (credential grantId : Identity) :
    Change s (.grant peerId spec caller issued credential grantId)
      (step s (.grant peerId spec caller issued credential grantId)) := by
  refine change_after fun s' h => ?_
  simp only [bind_eq_ok, Manager.grant, Actor.requireRecord, Records.get_eq_ok, raiseIf_eq_ok,
    not_not, Prod.exists, Except.ok.injEq] at h
  obtain ⟨_, hnew, actor, rfl, peer, hpeer, -, hproject, -, hpaired, created, value, hcreate,
    rfl⟩ := h
  obtain ⟨hid, hof, hto, hactive, hrequests, hbytes, hservices, hmodels, rfl⟩ :=
    Authority.create_eq_ok hcreate
  exact .grant (new_of_requireNew hnew (by simp)) hpeer hpaired hproject hid hof hto hactive hrequests
    hbytes hservices hmodels

theorem change_remove (s : Manager) (number : ℕ) (peerId : Identity)
    (caller : Except Error Actor) :
    Change s (.remove number peerId caller) (s.after (caller >>= s.remove number peerId)) := by
  refine change_after fun s' h => ?_
  simp only [bind_eq_ok, remove, Actor.requireRecord, Records.get_eq_ok, raiseIf_eq_ok,
    not_not] at h
  obtain ⟨actor, rfl, peer, hpeer, -, hproject, henqueue⟩ := h
  obtain ⟨hfree, rfl⟩ := enqueue_eq_ok henqueue
  exact .remove hfree hpeer hproject

theorem change_forget (s : Manager) (number : ℕ) (peerId : Identity)
    (caller : Except Error Actor) :
    Change s (.forget number peerId caller) (s.after (caller >>= s.forget number peerId)) := by
  refine change_after fun s' h => ?_
  simp only [bind_eq_ok, forget, Actor.requireRecord, Records.get_eq_ok, raiseIf_eq_ok, not_and,
    not_not] at h
  obtain ⟨actor, rfl, peer, hpeer, -, hproject, -, hstate, henqueue⟩ := h
  obtain ⟨hfree, rfl⟩ := enqueue_eq_ok henqueue
  refine .forget hfree hpeer hproject ?_
  by_cases hremoved : peer.state = .removed
  · exact .inl hremoved
  · exact .inr (hstate hremoved)

theorem change_retire (s : Manager) (number : ℕ) (grantId : Identity)
    (caller : Except Error Actor) :
    Change s (.retire number grantId caller) (s.after (caller >>= s.retire number grantId)) := by
  refine change_after fun s' h => ?_
  simp only [bind_eq_ok, retire] at h
  obtain ⟨actor, rfl, henqueue⟩ := h
  obtain ⟨hfree, rfl⟩ := enqueue_eq_ok henqueue
  exact .retire hfree

theorem change_revoke {s : Manager} (hkeyed : s.Keyed) (grantId : Identity)
    (caller : Except Error Actor) :
    Change s (.revoke grantId caller) (s.after (caller >>= Authority.revoke s grantId)) := by
  refine change_after fun s' h => ?_
  obtain ⟨actor, -, h⟩ := bind_eq_ok.mp h
  obtain ⟨value, next, grants, credentials, hvalue, hnext, hgrants, rfl⟩ :=
    Authority.revoke_eq_ok (fun _ => hkeyed.grants.key_eq) h
  exact .revoke hvalue hnext hgrants

theorem change_proceed {s : Manager} (hkeyed : s.Keyed) (number : ℕ)
    (access : Except Error Unit) :
    Change s (.proceed number access) (s.proceed number access) := by
  unfold proceed
  rcases htask : s.tasks.lookup number with - | ⟨actor, todo, waiting⟩
  · exact .refused _
  rcases todo with - | ⟨todo, rest⟩
  · exact .ends _ number
  by_cases hwaits : ∃ session ∈ waiting, (s.sessions.lookup session).isSome
  · cases todo <;> simp only [hwaits, if_true] <;> exact .refused _
  have hready : s.Ready ⟨actor, todo :: rest, waiting⟩ := by
    intro session hsession
    by_contra hsome
    exact hwaits ⟨session, hsession, Option.isSome_iff_ne_none.mpr hsome⟩
  -- A part that raises ends the request, and one that returns is inverted.
  cases todo with
  | status _ => exact .refused _
  | confirm _ _ => exact .refused _
  | revoke grantId =>
    simp only [hwaits, if_false]
    rcases hperform : perform s actor access (.revoke grantId) with - | ⟨next, waits⟩
    · exact .ends _ number
    · simp only [perform, bind_eq_ok, Except.ok.injEq, Prod.mk.injEq] at hperform
      obtain ⟨-, -, revoked, hrevoke, rfl, rfl⟩ := hperform
      obtain ⟨value, next, grants, credentials, hvalue, hnext, hgrants, rfl⟩ :=
        Authority.revoke_eq_ok (fun _ => hkeyed.grants.key_eq) hrevoke
      exact .revokes htask rfl hready (.inl rfl) hvalue hnext hgrants
  | retire grantId =>
    simp only [hwaits, if_false]
    rcases hperform : perform s actor access (.retire grantId) with - | ⟨next, waits⟩
    · exact .ends _ number
    · simp only [perform, bind_eq_ok, Except.ok.injEq, Prod.mk.injEq] at hperform
      obtain ⟨-, -, -, -, -, -, -, -, revoked, hrevoke, rfl, rfl⟩ := hperform
      obtain ⟨value, next, grants, credentials, hvalue, hnext, hgrants, rfl⟩ :=
        Authority.revoke_eq_ok (fun _ => hkeyed.grants.key_eq) hrevoke
      exact .revokes htask rfl hready (.inr rfl) hvalue hnext hgrants
  | purge grantId =>
    simp only [hwaits, if_false, perform]
    exact .purges htask rfl hready
  | removePeer peer =>
    simp only [hwaits, if_false]
    rcases hperform : perform s actor access (.removePeer peer) with - | ⟨next, waits⟩
    · exact .ends _ number
    · simp only [perform, bind_eq_ok, Except.ok.injEq, Prod.mk.injEq] at hperform
      obtain ⟨saved, hsave, rfl, rfl⟩ := hperform
      rw [savePeer_eq_ok hsave]
      have htodo : (Task.mk actor (.removePeer peer :: rest) waiting).todo =
          .removePeer peer :: rest := rfl
      have hchange : Change s (.proceed number access) _ := .removesPeer htask htodo hready
      exact hchange
  | forgetPeer peerId =>
    simp only [hwaits, if_false, perform]
    exact .forgetsPeer htask rfl hready

end Operators

section Finish

omit [Hash Receipt] [Hash Arguments] in
/-- A status that pairs stores the accepted receipt. -/
theorem statusPeer_eq_some {s next : Manager} {value : OfferRecord}
    {reply : Except Error StatusReply} {actor : Actor} {now : ℚ} {receipt : Receipt}
    (h : statusPeer s value reply actor now = .ok (some (next, receipt))) :
    ∃ answer, reply = .ok answer ∧
      Pairing.acceptance s value answer actor now = .ok (some receipt) ∧
      next = { s with
        peers := s.peers.insert (Pairing.peerId value.offer.payload.destination actor.projectId)
          (Pairing.confirmingPeer value receipt actor now) } := by
  simp only [statusPeer, bind_eq_ok] at h
  obtain ⟨answer, hanswer, found, hacceptance, h⟩ := h
  cases found with
  | none => simp at h
  | some found =>
    simp only [bind_eq_ok, Except.ok.injEq, Option.some.injEq, Prod.mk.injEq] at h
    obtain ⟨saved, hsave, rfl, rfl⟩ := h
    exact ⟨answer, hanswer, hacceptance, savePeer_eq_ok hsave⟩

theorem change_status (s : Manager) (number : ℕ) (reply : Except Error StatusReply) (now : ℚ) :
    Change s (.status number reply now) (s.status number reply now) := by
  unfold status
  split
  · rename_i actor value waiting htask
    rcases hpeer : statusPeer s value reply actor now with - | - | ⟨next, receipt⟩
    · exact .ends _ number
    · exact .ends _ number
    obtain ⟨answer, rfl, haccepted, hnext⟩ := statusPeer_eq_some hpeer
    dsimp only
    rcases hoffer : next.saveOffer (Pairing.confirmingOffer value receipt actor) with - | saved
    · exact .statusHalf (.inl rfl) htask haccepted hnext (.inl rfl)
    · rw [saveOffer_eq_ok hoffer, hnext]
      exact .status htask haccepted
  · exact .refused _

theorem change_statusStop (s : Manager) (number : ℕ) (reply : Except Error StatusReply)
    (now : ℚ) : Change s (.statusStop number reply now) (s.statusStop number reply now) := by
  unfold statusStop
  split
  · rename_i actor value waiting htask
    rcases hpeer : statusPeer s value reply actor now with - | - | ⟨next, receipt⟩
    · exact .refused _
    · exact .refused _
    obtain ⟨answer, rfl, haccepted, hnext⟩ := statusPeer_eq_some hpeer
    exact .statusHalf (.inr rfl) htask haccepted hnext (.inr rfl)
  · exact .refused _

omit [Hash (Key × Identity)] [Hash (Signed Offer)] [Hash Receipt] [Hash Arguments] in
/-- A confirmation finds the receipt as it was. -/
theorem confirmedPeer_eq_ok {s next : Manager} {peer : Peer} {reply access : Except Error Unit}
    {now : ℚ} (h : confirmedPeer s peer reply access now = .ok next) :
    reply = .ok () ∧
      (∃ current, s.peers.lookup peer.id = some current ∧
        (current.state = .confirming ∨ current.state = .paired) ∧
        current.receipt = peer.receipt) ∧
      next = { s with
        peers := s.peers.insert peer.id { peer with state := .paired, lastVerified := now } } := by
  simp only [confirmedPeer, bind_eq_ok] at h
  obtain ⟨_, hreply, -, -, _, hunchanged, hsave⟩ := h
  exact ⟨hreply, Pairing.unchanged_eq_ok hunchanged, savePeer_eq_ok hsave⟩

theorem change_confirmed (s : Manager) (number : ℕ) (reply access : Except Error Unit) (now : ℚ) :
    Change s (.confirmed number reply access now) (s.confirmed number reply access now) := by
  unfold confirmed
  split
  · rename_i actor offer peer waiting htask
    rcases hpeer : confirmedPeer s peer reply access now with - | next
    · exact .ends _ number
    obtain ⟨rfl, ⟨current, hcurrent, hstate, hreceipt⟩, hnext⟩ := confirmedPeer_eq_ok hpeer
    dsimp only
    rcases hoffer : next.saveOffer { offer with state := .paired } with - | saved
    · exact .confirmedHalf (.inl rfl) htask hcurrent hstate hreceipt hnext (.inl rfl)
    · rw [saveOffer_eq_ok hoffer, hnext]
      have hchange : Change s (.confirmed number (.ok ()) access now) _ :=
        .confirmed htask hcurrent hstate hreceipt
      exact hchange
  · exact .refused _

theorem change_confirmedStop (s : Manager) (number : ℕ) (reply access : Except Error Unit)
    (now : ℚ) :
    Change s (.confirmedStop number reply access now)
      (s.confirmedStop number reply access now) := by
  unfold confirmedStop
  split
  · rename_i actor offer peer waiting htask
    rcases hpeer : confirmedPeer s peer reply access now with - | next
    · exact .refused _
    obtain ⟨rfl, ⟨current, hcurrent, hstate, hreceipt⟩, hnext⟩ := confirmedPeer_eq_ok hpeer
    exact .confirmedHalf (.inr rfl) htask hcurrent hstate hreceipt hnext (.inr rfl)
  · exact .refused _

end Finish

section Connections

theorem change_verified (s : Manager) (peerId : Identity) (selected : Option RemoteGrant)
    (now : ℚ) :
    Change s (.verified peerId selected now) (s.after (s.verified peerId selected now)) := by
  refine change_after fun s' h => ?_
  simp only [verified, bind_eq_ok, Records.get_eq_ok, raiseIf_eq_ok, not_not] at h
  obtain ⟨current, hcurrent, -, hpaired, hsave⟩ := h
  rw [savePeer_eq_ok hsave]
  have hchange : Change s (.verified peerId selected now) { s with
      peers := s.peers.insert current.id { current with
        lastVerified := now
        remoteGrant := if selected.isSome then selected else current.remoteGrant } } :=
    Change.verified hcurrent hpaired
  exact hchange

theorem change_serve (s : Manager) (number : ℕ) (request : Request) (principal : Key)
    (env : Local) :
    Change s (.serve number request principal env)
      (s.after (s.serve number request principal env)) := by
  refine change_after fun s' h => ?_
  simp only [serve, bind_eq_ok, Records.get_eq_ok, raiseIf_eq_ok, Except.ok.injEq,
    Option.not_isSome_iff_eq_none] at h
  obtain ⟨-, hfree, grant, -, peer, -, -, -, admitted, hadmitted, rfl⟩ := h
  obtain ⟨value, hauthorised, hconcurrent, hrequests, rfl⟩ := Authority.admitRequest_eq_ok hadmitted
  exact .serve hfree hauthorised hconcurrent hrequests

omit [Hash (Key × Identity)] [Hash (Signed Offer)] [Hash Receipt] in
/-- What follows the effect of a mutation that has just begun. -/
theorem settle_begun {s : Manager} (hkeyed : s.Keyed) (request : Request) {grant : Grant}
    {now : ℚ} {record : OperationRecord} (hrecord : record = Operations.receipt request grant now)
    (effect : Except Error Result) :
    let begun := note { s with operations := s.operations.insert request.id record }
      (.effect request)
    Operations.settle begun request record effect = begun ∨
      ∃ grants next, Registered s request grants ∧ Settles record next ∧
        Operations.settle begun request record effect =
          { begun with grants, operations := s.operations.insert request.id next } := by
  intro begun
  have hid : record.id = request.id := by rw [hrecord]; rfl
  have hold : begun.operations.lookup record.id = some record := by
    rw [hid]
    exact AList.lookup_insert _
  have hgrants : ∀ value, begun.grants.lookup request.grant = some value →
      value.id = request.grant := fun _ => hkeyed.grants.key_eq
  obtain h | ⟨grants, next, hregistered, hsettles, h⟩ :=
    Operations.settle_spec hgrants hold effect
  · exact .inl h
  · refine .inr ⟨grants, next, hregistered, hsettles, ?_⟩
    rw [h, hid]
    have hinsert : (s.operations.insert request.id record).insert request.id next =
        s.operations.insert request.id next := AList.insert_insert ..
    simp only [begun, note, hinsert]

theorem change_dispatch {s : Manager} (hkeyed : s.Keyed) (number : ℕ) (env : Local)
    (answers : Answers) (effect : Except Error Result) :
    Change s (.dispatch number env answers effect) (s.dispatch number env answers effect) := by
  unfold dispatch
  split
  · rename_i session request peer hsession
    rcases hdispatch : Operations.dispatch s request peer env answers with
      - | ⟨result⟩ | ⟨next, record⟩
    · exact .returns hsession rfl
    · exact .returns hsession rfl
    obtain ⟨grant, hauthorised, hnone, hrecord, -, rfl⟩ := Operations.dispatch_eq_begun hdispatch
    dsimp only
    split_ifs with hwaits
    · have hchange : Change s (.dispatch number env answers effect) _ :=
        .begins hsession rfl hdispatch hwaits hrecord
      exact hchange
    · obtain hsettle | ⟨grants, settled, hgrants, hsettles, hsettle⟩ :=
        settle_begun hkeyed request hrecord effect
      · rw [hsettle]
        have hchange : Change s (.dispatch number env answers effect) _ :=
          .runs hsession rfl hdispatch hrecord (.inl ⟨rfl, rfl⟩)
        exact hchange
      · rw [hsettle]
        have hchange : Change s (.dispatch number env answers effect) _ :=
          .runs hsession rfl hdispatch hrecord (.inr ⟨hgrants, hsettles⟩)
        exact hchange
  · exact .refused _

theorem change_dispatchStop {s : Manager} (hkeyed : s.Keyed) (number : ℕ) (env : Local)
    (answers : Answers) (result : Result) (stop : Stop) :
    Change s (.dispatchStop number env answers result stop)
      (s.dispatchStop number env answers result stop) := by
  unfold dispatchStop
  split
  · rename_i request peer hsession
    rcases hdispatch : Operations.dispatch s request peer env answers with
      - | ⟨_⟩ | ⟨next, record⟩
    · exact .refused _
    · exact .refused _
    obtain ⟨grant, hauthorised, hnone, hrecord, -, rfl⟩ := Operations.dispatch_eq_begun hdispatch
    cases stop with
    | receipt =>
      have hchange : Change s (.dispatchStop number env answers result .receipt) _ :=
        .beginsStop hsession rfl hdispatch hrecord (.inl rfl) (.inl rfl)
      exact hchange
    | effect =>
      have hchange : Change s (.dispatchStop number env answers result .effect) _ :=
        .beginsStop hsession rfl hdispatch hrecord (.inr rfl) (.inl rfl)
      exact hchange
    | grant =>
      dsimp only
      split_ifs with hwaits
      · exact .refused _
      let begun := note { s with operations := s.operations.insert request.id record }
        (.effect request)
      have hid : ∀ value, begun.grants.lookup request.grant = some value →
          value.id = request.grant := fun _ => hkeyed.grants.key_eq
      rcases hregister : Operations.register begun request result with - | registered
      · exact .refused _
      · obtain ⟨grants, hgrants, rfl⟩ := Operations.register_eq_ok hid hregister
        have hchange : Change s (.dispatchStop number env answers result .grant) _ :=
          .beginsStop hsession rfl hdispatch hrecord (.inr rfl) (.inr ⟨rfl, hgrants⟩)
        exact hchange
  · exact .refused _

theorem change_settle (s : Manager) (number : ℕ) (effect : Except Error Result) :
    Change s (.settle number effect) (s.settle number effect) := by
  unfold settle
  split
  · rename_i session request peer record hsession
    have hchange : Change s (.settle number effect) _ := .settle hsession rfl
    exact hchange
  · exact .refused _

theorem change_settleStop {s : Manager} (hkeyed : s.Keyed) (number : ℕ) (result : Result) :
    Change s (.settleStop number result) (s.settleStop number result) := by
  unfold settleStop
  split
  · rename_i request peer record hsession
    rcases hregister : Operations.register s request result with - | registered
    · exact .refused _
    · obtain ⟨grants, hgrants, rfl⟩ :=
        Operations.register_eq_ok (fun _ => hkeyed.grants.key_eq) hregister
      have hchange : Change s (.settleStop number result) _ :=
        .settleStop hsession rfl hgrants
      exact hchange
  · exact .refused _

theorem change_charge (s : Manager) (number count : ℕ) (env : Local) :
    Change s (.charge number count env) (s.after (s.charge number count env)) := by
  refine change_after fun s' h => ?_
  simp only [charge, bind_eq_ok, orRaise_eq_ok] at h
  obtain ⟨session, hsession, hcharge⟩ := h
  obtain ⟨value, hauthorised, hbytes, rfl⟩ := Authority.charge_eq_ok hcharge
  exact .charge hsession hauthorised hbytes

theorem change_close (s : Manager) (number : ℕ) :
    Change s (.close number) (s.close number) := by
  unfold close
  split
  · exact .refused _
  · rename_i session hsession
    exact .close hsession

end Connections

/-- Every step does one of the listed things. -/
theorem change_step {s : Manager} (hkeyed : s.Keyed) (a : Step) : Change s a (step s a) := by
  cases a with
  | configure cluster caller => exact change_configure s cluster caller
  | incoming signed caller principal now =>
    refine change_after fun s' h => ?_
    obtain ⟨⟨next, state⟩, hincoming, rfl⟩ := map_eq_ok.mp h
    obtain ⟨hsigner, hsource, rfl | ⟨hnew, rfl⟩⟩ := Pairing.incoming_eq_ok hincoming
    · exact .refused _
    · exact .incoming hsigner hsource hnew
  | approve offerId body caller now issued credential grantId =>
    exact change_approve s offerId body caller now issued credential grantId
  | confirm offerId receipt caller principal now =>
    refine change_after fun s' h => ?_
    obtain ⟨value, peer, identity, hvalue, hdirection, hstate, hcaller, hreceipt, hdigest,
      hidentity, hpeer, hpeerState, rfl⟩ := Pairing.confirm_eq_ok h
    have hchange : Change s (.confirm offerId receipt caller principal now) _ :=
      .confirm hvalue hdirection hstate hcaller hreceipt hdigest hidentity hpeer hpeerState
    exact hchange
  | start destination requested caller offerId nonce now =>
    exact change_start s destination requested caller offerId nonce now
  | finish number offerId caller => exact change_finish s number offerId caller
  | status number reply now => exact change_status s number reply now
  | statusStop number reply now => exact change_statusStop s number reply now
  | confirmed number reply access now => exact change_confirmed s number reply access now
  | confirmedStop number reply access now => exact change_confirmedStop s number reply access now
  | discard offerId caller =>
    refine change_after fun s' h => ?_
    simp only [bind_eq_ok, discard, Except.ok.injEq] at h
    obtain ⟨-, -, -, -, -, -, -, -, rfl⟩ := h
    exact .discard
  | grant peerId spec caller issued credential grantId =>
    exact change_grant s peerId spec caller issued credential grantId
  | revoke grantId caller => exact change_revoke hkeyed grantId caller
  | remove number peerId caller => exact change_remove s number peerId caller
  | retire number grantId caller => exact change_retire s number grantId caller
  | forget number peerId caller => exact change_forget s number peerId caller
  | proceed number access => exact change_proceed hkeyed number access
  | abandon number => exact .ends _ number
  | verified peerId selected now => exact change_verified s peerId selected now
  | serve number request principal env => exact change_serve s number request principal env
  | dispatch number env answers effect => exact change_dispatch hkeyed number env answers effect
  | dispatchStop number env answers result stop =>
    exact change_dispatchStop hkeyed number env answers result stop
  | settle number effect => exact change_settle s number effect
  | settleStop number result => exact change_settleStop hkeyed number result
  | charge number count env => exact change_charge s number count env
  | close number => exact change_close s number
  | restart => exact .restart
  | suspend key => exact .suspend key

section Keys

omit [Hash (Key × Identity)] [Hash (Signed Offer)] [Hash Receipt] [Hash Arguments]

/-- An empty database is keyed. -/
theorem keyed_initial (key : Key) : (initial key).Keyed := by
  refine ⟨⟨fun h => ?_⟩, ⟨fun h => ?_⟩, ⟨fun h => ?_⟩, fun h => ?_⟩ <;> simp [initial] at h

/-- The grants after a write of created resources are under their own identities. -/
theorem Keyed.registered {s : Manager} (h : s.Keyed) {request : Request}
    {grants : Table Identity Grant} (hgrants : Registered s request grants) :
    grants.KeyedBy Grant.id ∧ ∀ {k value}, grants.lookup k = some value → k ∈ s.drawn := by
  constructor
  · refine ⟨fun {k next} hnext => ?_⟩
    obtain ⟨value, hvalue, rfl | ⟨-, hregisters⟩⟩ := hgrants k next hnext
    · exact h.grants.key_eq hvalue
    · exact hregisters.id.trans (h.grants.key_eq hvalue)
  · intro k next hnext
    obtain ⟨value, hvalue, -⟩ := hgrants k next hnext
    exact h.drawn hvalue

/-- The grants after a revocation are under their own identities. -/
theorem Keyed.revoked {s : Manager} (h : s.Keyed) {grantId : Identity} {value next : Grant}
    {grants : Table Identity Grant} (hvalue : s.grants.lookup grantId = some value)
    (hnext : Revoked value next)
    (hgrants : ∀ k, grants.lookup k = if k = grantId then some next else s.grants.lookup k) :
    grants.KeyedBy Grant.id ∧ ∀ {k value}, grants.lookup k = some value → k ∈ s.drawn := by
  constructor
  · refine ⟨fun {k found} hfound => ?_⟩
    rw [hgrants k] at hfound
    split_ifs at hfound with hk
    · obtain rfl := Option.some.inj hfound
      exact hnext.id.trans ((h.grants.key_eq hvalue).trans hk.symm)
    · exact h.grants.key_eq hfound
  · intro k found hfound
    rw [hgrants k] at hfound
    split_ifs at hfound with hk
    · exact hk ▸ h.drawn hvalue
    · exact h.drawn hfound

/-- A grant that is written again was drawn. -/
theorem Keyed.drawn_rewritten {s : Manager} (h : s.Keyed) {identity k : Identity}
    {value next found : Grant} (hvalue : s.grants.lookup identity = some value)
    (hfound : (s.grants.insert value.id next).lookup k = some found) : k ∈ s.drawn := by
  rw [Table.lookup_insert_eq] at hfound
  split_ifs at hfound with hk
  · rw [hk, h.grants.key_eq hvalue]
    exact h.drawn hvalue
  · exact h.drawn hfound

/-- A new grant is drawn. -/
theorem Keyed.drawn_insert {s : Manager} (h : s.Keyed) {credential grantId k : Identity}
    {value found : Grant} (hfound : (s.grants.insert grantId value).lookup k = some found) :
    k ∈ insert credential (insert grantId s.drawn) := by
  rw [Table.lookup_insert_eq] at hfound
  split_ifs at hfound with hk
  · rw [hk]
    exact Finset.mem_insert_of_mem (Finset.mem_insert_self ..)
  · exact Finset.mem_insert_of_mem (Finset.mem_insert_of_mem (h.drawn hfound))

end Keys

/-- Every change keeps the keys. -/
theorem Keyed.change {s s' : Manager} {a : Step} (h : s.Keyed) (hchange : Change s a s') :
    s'.Keyed := by
  cases hchange with
  | refused => exact h
  | configure => exact ⟨h.grants, h.peers, h.offers, h.drawn⟩
  | incoming => exact { h with offers := h.offers.insert rfl }
  | approve hnew hvalue _ _ _ hid =>
    exact
      { grants := h.grants.insert hid
        peers := h.peers.insert rfl
        offers := h.offers.insert rfl
        drawn := h.drawn_insert }
  | confirm hvalue _ _ _ _ _ _ hpeer =>
    exact ⟨h.grants, h.peers.insert rfl, h.offers.insert rfl, h.drawn⟩
  | start =>
    exact
      { h with
        offers := h.offers.insert rfl
        drawn := fun hvalue => Finset.mem_insert_of_mem (h.drawn hvalue) }
  | finish => exact ⟨h.grants, h.peers, h.offers, h.drawn⟩
  | status => exact ⟨h.grants, h.peers.insert rfl, h.offers.insert rfl, h.drawn⟩
  | statusHalf _ _ _ hnext hs' =>
    subst hnext
    obtain rfl | rfl := hs' <;> exact ⟨h.grants, h.peers.insert rfl, h.offers, h.drawn⟩
  | confirmed => exact ⟨h.grants, h.peers.insert rfl, h.offers.insert rfl, h.drawn⟩
  | confirmedHalf _ _ _ _ _ hnext hs' =>
    subst hnext
    obtain rfl | rfl := hs' <;> exact ⟨h.grants, h.peers.insert rfl, h.offers, h.drawn⟩
  | discard => exact { h with offers := h.offers.erase _ }
  | grant hnew _ _ _ hid =>
    exact ⟨h.grants.insert hid, h.peers, h.offers, h.drawn_insert⟩
  | revoke hvalue hnext hgrants =>
    obtain ⟨hkeys, hdrawn⟩ := h.revoked hvalue hnext hgrants
    exact ⟨hkeys, h.peers, h.offers, hdrawn⟩
  | remove => exact ⟨h.grants, h.peers, h.offers, h.drawn⟩
  | retire => exact ⟨h.grants, h.peers, h.offers, h.drawn⟩
  | forget => exact ⟨h.grants, h.peers, h.offers, h.drawn⟩
  | ends => exact ⟨h.grants, h.peers, h.offers, h.drawn⟩
  | revokes _ _ _ _ hvalue hnext hgrants =>
    obtain ⟨hkeys, hdrawn⟩ := h.revoked hvalue hnext hgrants
    exact ⟨hkeys, h.peers, h.offers, hdrawn⟩
  | purges =>
    refine ⟨h.grants.erase _, h.peers, h.offers, fun {k value} hvalue => ?_⟩
    rw [Table.lookup_erase_eq] at hvalue
    split_ifs at hvalue
    exact h.drawn hvalue
  | removesPeer => exact ⟨h.grants, h.peers.insert rfl, h.offers, h.drawn⟩
  | @forgetsPeer _ _ task _ peerId =>
    have hoffers := h.offers.discard fun _ record =>
      decide (record.projectId = task.actor.projectId ∧ record.peer = some peerId)
    exact ⟨h.grants, h.peers.erase _, hoffers, h.drawn⟩
  | verified hcurrent => exact ⟨h.grants, h.peers.insert rfl, h.offers, h.drawn⟩
  | serve _ hauthorised =>
    exact ⟨h.grants.insert rfl, h.peers, h.offers,
      fun hfound => h.drawn_rewritten hauthorised.grant hfound⟩
  | returns => exact ⟨h.grants, h.peers, h.offers, h.drawn⟩
  | begins => exact ⟨h.grants, h.peers, h.offers, h.drawn⟩
  | runs _ _ _ _ houtcome =>
    obtain ⟨rfl, -⟩ | ⟨hgrants, -⟩ := houtcome
    · exact ⟨h.grants, h.peers, h.offers, h.drawn⟩
    · obtain ⟨hkeys, hdrawn⟩ := h.registered hgrants
      exact ⟨hkeys, h.peers, h.offers, hdrawn⟩
  | beginsStop _ _ _ _ _ hgrants =>
    obtain rfl | ⟨-, hgrants⟩ := hgrants
    · exact ⟨h.grants, h.peers, h.offers, h.drawn⟩
    · obtain ⟨hkeys, hdrawn⟩ := h.registered hgrants
      exact ⟨hkeys, h.peers, h.offers, hdrawn⟩
  | @settle number effect session record _ _ =>
    obtain ⟨grants, operations, hgrants, hsettle⟩ := Operations.settle_frame
      (fun _ => h.grants.key_eq) record effect
    rw [hsettle]
    obtain ⟨hkeys, hdrawn⟩ := h.registered hgrants
    exact ⟨hkeys, h.peers, h.offers, hdrawn⟩
  | settleStop _ _ hgrants =>
    obtain ⟨hkeys, hdrawn⟩ := h.registered hgrants
    exact ⟨hkeys, h.peers, h.offers, hdrawn⟩
  | charge _ hauthorised =>
    exact ⟨h.grants.insert rfl, h.peers, h.offers,
      fun hfound => h.drawn_rewritten hauthorised.grant hfound⟩
  | close => exact ⟨h.grants, h.peers, h.offers, h.drawn⟩
  | restart => exact ⟨h.grants, h.peers, h.offers, h.drawn⟩
  | suspend key =>
    refine ⟨h.grants.mapRows fun _ => rfl, h.peers.mapRows fun _ => rfl,
      h.offers.mapRows fun _ => rfl, fun {k value} hvalue => ?_⟩
    simp only [suspended, Table.lookup_mapRows, Option.map_eq_some_iff] at hvalue
    obtain ⟨old, hold, -⟩ := hvalue
    exact h.drawn hold

end Manager

end Ficc.Federation
