import Ficc.Federation.Changes

/-!
# Authority is final

Once a grant is revoked, or the peer to which it was given is removed or forgotten, no request is
authorised by it again, also when the same cluster is paired once more. The removal of a peer waits
while it revokes one grant after the other, and works on the list of grants that it read at the
start. A grant that is given to the peer in between is not revoked, and since the identity of a
peer depends only on its key and the project it comes back to life with the next pairing. The
result is therefore for the runs in which no grant is given to a peer that is being removed or
forgotten, and `not_final_removalRace` is a run in which one is.

* `Confined` is the invariant: an active grant belongs to a peer that is not removed, and a removal
  in progress has every active grant of its peer still before it.
* `Ended` says that a grant can no longer be active. Every step keeps it.
-/

namespace Ficc.Federation

open Execution (Identity Digest Hash)
open Authority (Local Authorised Revoked check)
open Operations (Answers Registered Settles)

/-- The peer that a part of a request removes or forgets. -/
def Todo.withdraws : Todo → Option Identity
  | .removePeer peer => some peer.id
  | .forgetPeer peerId => some peerId
  | _ => none

/-- The peer is neither removed nor suspended. -/
def Peer.Live (peer : Peer) : Prop := peer.state ≠ .removed ∧ peer.state ≠ .suspended

/-- The identity and the project of the peer that a part of `finish` writes. -/
def Todo.writes [Hash (Key × Identity)] (actor : Actor) : Todo → Option (Identity × Identity)
  | .status value =>
    some (Pairing.peerId value.offer.payload.destination actor.projectId, actor.projectId)
  | .confirm _ peer => some (peer.id, peer.projectId)
  | _ => none

namespace Manager

/-- A request that removes or forgets the peer is in progress. -/
def Withdrawing (s : Manager) (peerId : Identity) : Prop :=
  ∃ task ∈ s.tasks.values, ∃ todo ∈ task.todo, todo.withdraws = some peerId

instance (s : Manager) (peerId : Identity) : Decidable (s.Withdrawing peerId) :=
  inferInstanceAs (Decidable (∃ _ ∈ _, _))

/-- The grant is revoked, or its peer is removed or forgotten. -/
def Withdrawn (s : Manager) (identity : Identity) : Prop :=
  ∃ grant ∈ s.grants.lookup identity, grant.state = .revoked ∨
    s.peers.lookup grant.peer = none ∨
    ∃ peer ∈ s.peers.lookup grant.peer, peer.state = .removed

instance (s : Manager) (identity : Identity) : Decidable (s.Withdrawn identity) :=
  inferInstanceAs (Decidable (∃ _ ∈ _, _))

/-- No request is authorised by the grant. -/
def Refuses (s : Manager) (identity : Identity) : Prop :=
  ∀ peer generation scope resource env value,
    check s identity peer generation scope resource env ≠ .ok value

variable [Hash (Key × Identity)] [Hash (Signed Offer)] [Hash Receipt] [Hash Arguments]

/-- The peer to which a step gives a grant. -/
def recipient (s : Manager) : Step → Option Identity
  | .grant peerId _ _ _ _ _ => some peerId
  | .approve offerId _ (.ok actor) _ _ _ _ =>
    (s.offers.lookup offerId).map fun value =>
      Pairing.peerId value.offer.payload.source actor.projectId
  | _ => none

/-- The step gives no grant to a peer that is being removed or forgotten. -/
def Undisturbed (s : Manager) (a : Step) : Prop :=
  ∀ peerId ∈ s.recipient a, ¬s.Withdrawing peerId

instance (s : Manager) (a : Step) : Decidable (s.Undisturbed a) :=
  match h : s.recipient a with
  | none => .isTrue (by simp [Undisturbed, h])
  | some peerId => decidable_of_iff (¬s.Withdrawing peerId) (by simp [Undisturbed, h])

/-- The peer that a `finish` in progress will write over is of its own project. The identity of
a peer is a part of the digest of its key and its project, so a peer of another project stands there
only if two digests agree in this part. -/
def Separates (s : Manager) : Prop :=
  ∀ task ∈ s.tasks.values, ∀ todo ∈ task.todo, ∀ written ∈ todo.writes task.actor,
    ∀ peer ∈ s.peers.lookup written.1, peer.projectId = written.2

instance (s : Manager) : Decidable s.Separates :=
  -- At most one peer is written, so that it is not looked for among all identities.
  haveI (task : Task) (todo : Todo) : Decidable (∀ written ∈ todo.writes task.actor,
      ∀ peer ∈ s.peers.lookup written.1, peer.projectId = written.2) := Option.decidableForallMem _
  inferInstanceAs (Decidable (∀ _ ∈ _, ∀ _ ∈ _, ∀ _ ∈ _, ∀ _ ∈ _, _))

/-- Authority is final: a grant that was withdrawn after the first part of a run authorises
nothing after the rest of it. -/
def Final (key : Key) (first second : List Step) : Prop :=
  ∀ identity, (run step (initial key) first).Withdrawn identity →
    (run step (initial key) (first ++ second)).Refuses identity

/-- The grant can no longer be active. -/
def Ended (s : Manager) (identity : Identity) : Prop :=
  identity ∈ s.drawn ∧ ∀ grant, s.grants.lookup identity = some grant → grant.state ≠ .active

variable {identity : Identity} {s s' : Manager} {next value : Grant} {a : Step}

omit [Hash (Key × Identity)] [Hash (Signed Offer)] [Hash Receipt] [Hash Arguments] in
/-- What has ended is refused. -/
theorem Ended.refuses (h : s.Ended identity) :
    s.Refuses identity := by
  intro peer generation scope resource env value hcheck
  have hauthorised := Authority.check_eq_ok hcheck
  exact h.2 value hauthorised.grant hauthorised.active

/-! ### What a step does to the grants and the peers -/

/-- A grant before and after a step. It is for the same peer, and it is not active again. -/
structure Inherits (value next : Grant) : Prop where
  projectId : next.projectId = value.projectId
  peer : next.peer = value.peer
  active : next.state = .active → value.state = .active

omit [Hash (Key × Identity)] [Hash (Signed Offer)] [Hash Receipt] [Hash Arguments]

theorem Inherits.refl (value : Grant) : Inherits value value := ⟨rfl, rfl, id⟩

theorem Inherits.of_revoked (h : Revoked value next) :
    Inherits value next := by
  refine ⟨h.projectId, h.peer, fun hactive => ?_⟩
  rw [h.state] at hactive
  cases hactive

/-- Every grant comes from one that was there. -/
def Continues (s : Manager) (grants : Table Identity Grant) : Prop :=
  ∀ k next, grants.lookup k = some next → ∃ value, s.grants.lookup k = some value ∧
    Inherits value next

theorem Continues.refl (s : Manager) : Continues s s.grants :=
  fun _ next h => ⟨next, h, .refl next⟩

theorem Continues.registered {request : Request} {grants : Table Identity Grant}
    (h : Registered s request grants) : Continues s grants := by
  intro k next hnext
  obtain ⟨value, hvalue, rfl | ⟨-, hregisters⟩⟩ := h k next hnext
  · exact ⟨next, hvalue, .refl next⟩
  · exact ⟨value, hvalue, hregisters.projectId, hregisters.peer,
      fun hactive => hregisters.state ▸ hactive⟩

theorem Continues.revoked {grantId : Identity} {grants : Table Identity Grant}
    (hvalue : s.grants.lookup grantId = some value) (hnext : Revoked value next)
    (hgrants : ∀ k, grants.lookup k = if k = grantId then some next else s.grants.lookup k) :
    Continues s grants := by
  intro k found hfound
  rw [hgrants k] at hfound
  split_ifs at hfound with hk
  · obtain rfl := Option.some.inj hfound
    exact ⟨value, hk ▸ hvalue, .of_revoked hnext⟩
  · exact ⟨found, hfound, .refl found⟩

theorem Continues.rewritten (h : s.Keyed) (hvalue : s.grants.lookup identity = some value)
    (hnext : Inherits value next) :
    Continues s (s.grants.insert value.id next) := by
  intro k found hfound
  rw [Table.lookup_insert_eq] at hfound
  split_ifs at hfound with hk
  · obtain rfl := Option.some.inj hfound
    refine ⟨value, ?_, hnext⟩
    rw [hk, h.grants.key_eq hvalue]
    exact hvalue
  · exact ⟨found, hfound, .refl found⟩

theorem Continues.erase (s : Manager) (grantId : Identity) :
    Continues s (s.grants.erase grantId) := by
  intro k found hfound
  rw [Table.lookup_erase_eq] at hfound
  split_ifs at hfound
  exact ⟨found, hfound, .refl found⟩

theorem Continues.suspended (s : Manager) (key : Key) : Continues s (s.suspended key).grants := by
  intro k found hfound
  simp only [Manager.suspended, Table.lookup_mapRows, Option.map_eq_some_iff] at hfound
  obtain ⟨value, hvalue, rfl⟩ := hfound
  exact ⟨value, hvalue, rfl, rfl, fun hactive => by cases hactive⟩

variable [Hash (Key × Identity)] [Hash (Signed Offer)] [Hash Receipt] [Hash Arguments]

/-- A step leaves every grant where it came from, or gives one new grant to a peer. -/
theorem continues_or_gives (hkeyed : s.Keyed) (hchange : Change s a s') :
    Continues s s'.grants ∨
      ∃ grantId grant peer, grantId ∉ s.drawn ∧ s'.grants = s.grants.insert grantId grant ∧
        s.recipient a = some grant.peer ∧ s'.peers.lookup grant.peer = some peer ∧
        peer.Live ∧ peer.projectId = grant.projectId := by
  cases hchange with
  | @approve offerId body actor now issued credential grantId value grant own credentials receipt
      hnew hvalue _ _ _ _ hproject hpeer =>
    refine .inr ⟨grantId, grant, Pairing.awaitingPeer value receipt actor now, hnew, rfl, ?_, ?_,
      ⟨PeerState.noConfusion, PeerState.noConfusion⟩, hproject.symm⟩
    · simp [recipient, hvalue, hpeer]
    · rw [hpeer]
      exact AList.lookup_insert _
  | @grant peerId spec actor issued credential grantId peer value credentials hnew hpeer hpaired
      hproject _ hof hto =>
    have hid : peer.id = peerId := hkeyed.peers.key_eq hpeer
    refine .inr ⟨grantId, value, peer, hnew, rfl, ?_, ?_, ?_, hproject.trans hof.symm⟩
    · rw [hto, hid]
      rfl
    · rw [hto, hid]
      exact hpeer
    · simp [Peer.Live, hpaired]
  | revoke hvalue hnext hgrants => exact .inl (.revoked hvalue hnext hgrants)
  | revokes _ _ _ _ hvalue hnext hgrants => exact .inl (.revoked hvalue hnext hgrants)
  | purges => exact .inl (.erase s _)
  | serve _ hauthorised =>
    exact .inl (.rewritten hkeyed hauthorised.grant ⟨rfl, rfl, id⟩)
  | charge _ hauthorised =>
    exact .inl (.rewritten hkeyed hauthorised.grant ⟨rfl, rfl, id⟩)
  | runs _ _ _ _ houtcome =>
    obtain ⟨rfl, -⟩ | ⟨hgrants, -⟩ := houtcome
    · exact .inl (.refl s)
    · exact .inl (.registered hgrants)
  | beginsStop _ _ _ _ _ hgrants =>
    obtain rfl | ⟨-, hgrants⟩ := hgrants
    · exact .inl (.refl s)
    · exact .inl (.registered hgrants)
  | @settle number effect session record _ _ =>
    obtain ⟨grants, operations, hgrants, hsettle⟩ := Operations.settle_frame
      (fun _ => hkeyed.grants.key_eq) record effect
    rw [hsettle]
    exact .inl (.registered hgrants)
  | settleStop _ _ hgrants => exact .inl (.registered hgrants)
  | suspend key => exact .inl (.suspended s key)
  | statusHalf _ _ _ hnext hs' =>
    subst hnext
    obtain rfl | rfl := hs' <;> exact .inl (.refl s)
  | confirmedHalf _ _ _ _ _ hnext hs' =>
    subst hnext
    obtain rfl | rfl := hs' <;> exact .inl (.refl s)
  | _ => exact .inl (.refl s)

/-- A drawn name stays drawn. -/
theorem drawn_change (hkeyed : s.Keyed) (hchange : Change s a s') :
    s.drawn ⊆ s'.drawn := by
  cases hchange with
  | approve =>
    exact (Finset.subset_insert _ s.drawn).trans (Finset.subset_insert _ _)
  | grant =>
    exact (Finset.subset_insert _ s.drawn).trans (Finset.subset_insert _ _)
  | start => exact Finset.subset_insert _ s.drawn
  | statusHalf _ _ _ hnext hs' =>
    subst hnext
    obtain rfl | rfl := hs' <;> exact Finset.Subset.refl _
  | confirmedHalf _ _ _ _ _ hnext hs' =>
    subst hnext
    obtain rfl | rfl := hs' <;> exact Finset.Subset.refl _
  | @settle number effect session record _ _ =>
    obtain ⟨grants, operations, -, hsettle⟩ := Operations.settle_frame
      (fun _ => hkeyed.grants.key_eq) record effect
    rw [hsettle]
    exact Finset.Subset.refl _
  | _ => exact Finset.Subset.refl _

/-- No step makes a grant active that has ended. -/
theorem Ended.change (hkeyed : s.Keyed) (hchange : Change s a s') (h : s.Ended identity) :
    s'.Ended identity := by
  refine ⟨drawn_change hkeyed hchange h.1, fun next hnext hactive => ?_⟩
  obtain hgrants | ⟨grantId, grant, -, hnew, hgrants, -⟩ := continues_or_gives hkeyed hchange
  · obtain ⟨value, hvalue, hinherits⟩ := hgrants identity next hnext
    exact h.2 value hvalue (hinherits.active hactive)
  · have hne : identity ≠ grantId := fun heq => hnew (heq ▸ h.1)
    rw [hgrants, AList.lookup_insert_ne hne] at hnext
    exact h.2 next hnext hactive

section Invariant

/-- Before a part that removes or forgets a peer stand the revocations of all active grants of
the peer. -/
structure Awaits (grants : Table Identity Grant) (todos : List Todo) : Prop where
  before : ∀ {front todo rest peerId}, todos = front ++ todo :: rest →
    todo.withdraws = some peerId → ∀ {k grant}, grants.lookup k = some grant →
      grant.state = .active → grant.peer = peerId → .revoke k ∈ front

section Awaits

omit [Hash (Key × Identity)] [Hash (Signed Offer)] [Hash Receipt] [Hash Arguments]

variable {grants : Table Identity Grant} {todos : List Todo}

theorem Awaits.continues {s : Manager} (h : Awaits s.grants todos) (hgrants : Continues s grants) :
    Awaits grants todos := by
  refine ⟨fun {_ _ _ _} htodos hwithdraws {k next} hnext hactive hpeer => ?_⟩
  obtain ⟨value, hvalue, hinherits⟩ := hgrants k next hnext
  exact h.before htodos hwithdraws hvalue (hinherits.active hactive) (hinherits.peer ▸ hpeer)

/-- A request that removes and forgets nothing. -/
theorem Awaits.of_none (h : ∀ todo ∈ todos, todo.withdraws = none) : Awaits grants todos := by
  refine ⟨fun {front todo rest peerId} htodos hwithdraws => ?_⟩
  rw [h todo (by simp [htodos])] at hwithdraws
  cases hwithdraws

/-- The first part is done: if it was a revocation, its grant is not active any more. -/
theorem Awaits.tail {todo : Todo} {rest : List Todo} (h : Awaits grants (todo :: rest))
    (hdone : ∀ k grant, todo = .revoke k → grants.lookup k = some grant → grant.state ≠ .active) :
    Awaits grants rest := by
  refine ⟨fun {front found after peerId} htodos hwithdraws {k grant} hgrant hactive hpeer => ?_⟩
  have hsplit : todo :: rest = (todo :: front) ++ found :: after := by rw [htodos]; rfl
  obtain heq | hmem := List.mem_cons.mp (h.before hsplit hwithdraws hgrant hactive hpeer)
  · exact absurd hactive (hdone k grant heq.symm hgrant)
  · exact hmem

/-- A grant for a peer that the request neither removes nor forgets. -/
theorem Awaits.insert (h : Awaits grants todos) {grantId : Identity} {value : Grant}
    (hother : ∀ todo ∈ todos, todo.withdraws ≠ some value.peer) :
    Awaits (grants.insert grantId value) todos := by
  refine ⟨fun {front todo rest peerId} htodos hwithdraws {k grant} hgrant hactive hpeer => ?_⟩
  rw [Table.lookup_insert_eq] at hgrant
  split_ifs at hgrant
  · obtain rfl := Option.some.inj hgrant
    exact absurd (hpeer ▸ hwithdraws) (hother todo (by simp [htodos]))
  · exact h.before htodos hwithdraws hgrant hactive hpeer

/-- A request that ends with the removal of a peer, and before it only revokes and retires. -/
theorem Awaits.append {front : List Todo} {last : Todo}
    (hfront : ∀ todo ∈ front, todo.withdraws = none)
    (h : ∀ k grant, grants.lookup k = some grant → grant.state = .active → some grant.peer = last.withdraws → .revoke k ∈ front)
    :
    Awaits grants (front ++ [last]) := by
  refine ⟨fun {front' todo rest peerId} htodos hwithdraws {k grant} hgrant hactive hpeer => ?_⟩
  -- The part that removes the peer can only be the last one.
  obtain ⟨middle, rfl, hlast⟩ | ⟨middle, hfront', hrest⟩ := List.append_eq_append_iff.mp htodos
  · cases middle with
    | nil =>
      obtain ⟨rfl, rfl⟩ := List.cons.inj hlast
      rw [List.append_nil]
      exact h k grant hgrant hactive (by rw [hwithdraws, hpeer])
    | cons _ middle => simp at hlast
  · cases middle with
    | nil =>
      obtain ⟨rfl, rfl⟩ := List.cons.inj hrest
      rw [List.append_nil] at hfront'
      rw [← hfront']
      exact h k grant hgrant hactive (by rw [hwithdraws, hpeer])
    | cons first middle =>
      obtain ⟨rfl, -⟩ := List.cons.inj hrest
      rw [hfront todo (by simp [hfront'])] at hwithdraws
      cases hwithdraws

end Awaits

/-- Active grants are held by peers that are there, and a removal or a `forget` in progress has
the revocations of its peer's active grants before it. -/
structure Confined (s : Manager) : Prop where
  keyed : s.Keyed
  live : ∀ {k grant}, s.grants.lookup k = some grant → grant.state = .active →
    ∃ peer, s.peers.lookup grant.peer = some peer ∧ peer.Live ∧
      peer.projectId = grant.projectId
  awaited : ∀ {number task}, s.tasks.lookup number = some task → Awaits s.grants task.todo

omit [Hash (Key × Identity)] [Hash (Signed Offer)] [Hash Receipt] [Hash Arguments] in
theorem confined_initial (key : Key) : (initial key).Confined := by
  refine ⟨keyed_initial key, fun h => ?_, fun h => ?_⟩ <;> simp [initial] at h

variable {s s' : Manager} {a : Step}

omit [Hash (Key × Identity)] [Hash (Signed Offer)] [Hash Receipt] [Hash Arguments] in
/-- A grant that was withdrawn has ended. -/
theorem Confined.ended (h : s.Confined) {identity : Identity} (hwithdrawn : s.Withdrawn identity) :
    s.Ended identity := by
  obtain ⟨grant, hgrant, hreason⟩ := hwithdrawn
  refine ⟨h.keyed.drawn hgrant, fun found hfound hactive => ?_⟩
  obtain rfl : grant = found := Option.some.inj (Eq.trans hgrant.symm hfound)
  obtain ⟨peer, hpeer, hlive, -⟩ := h.live hfound hactive
  obtain hrevoked | hgone | ⟨removed, hremoved, hstate⟩ := hreason
  · rw [hrevoked] at hactive
    cases hactive
  · rw [hpeer] at hgone
    cases hgone
  · obtain rfl : removed = peer := Option.some.inj (Eq.trans hremoved.symm hpeer)
    exact hlive.1 hstate

/-- A peer that is there stays there, unless a request removes or forgets it or everything is
suspended. -/
theorem peer_change (hkeyed : s.Keyed) (hseparates : s.Separates) (hchange : Change s a s')
    {k : Identity} {peer : Peer} (hpeer : s.peers.lookup k = some peer) (hlive : peer.Live) :
    (∃ next, s'.peers.lookup k = some next ∧ next.Live ∧ next.projectId = peer.projectId) ∨
      (∃ number task todo rest, s.tasks.lookup number = some task ∧ task.todo = todo :: rest ∧
        todo.withdraws = some k) ∨ ∃ key, s' = s.suspended key := by
  -- A record that is written under another identity changes nothing.
  have hinsert {k' : Identity} {next : Peer}
      (hnext : k' = k → next.Live ∧ next.projectId = peer.projectId) : ∃ found,
        (s.peers.insert k' next).lookup k = some found ∧ found.Live ∧
          found.projectId = peer.projectId := by
    rw [Table.lookup_insert_eq]
    split_ifs with hk
    · exact ⟨next, rfl, hnext hk.symm⟩
    · exact ⟨peer, hpeer, hlive, rfl⟩
  have hstays : ∃ next, s.peers.lookup k = some next ∧ next.Live ∧
      next.projectId = peer.projectId := ⟨peer, hpeer, hlive, rfl⟩
  -- The record that `finish` writes over is of the same project.
  have hfinish {number : ℕ} {actor : Actor} {todo : Todo} {waiting : Finset ℕ}
      {written : Identity × Identity}
      (htask : s.tasks.lookup number = some ⟨actor, [todo], waiting⟩)
      (hwrites : todo.writes actor = some written) (hk : written.1 = k) :
      written.2 = peer.projectId := by
    refine (hseparates _ (Table.mem_values.mpr ⟨number, htask⟩) todo (List.mem_singleton_self _)
      written hwrites peer ?_).symm
    rw [hk]
    exact hpeer
  cases hchange with
  | approve _ _ _ _ hexisting =>
    refine .inl (hinsert fun hk => ?_)
    exact absurd hlive fun hlive => (hexisting peer (hk ▸ hpeer)).elim hlive.1 hlive.2
  | @confirm _ _ _ _ _ _ found identity _ _ _ _ _ _ _ hfound =>
    refine .inl (hinsert fun hk => ⟨⟨PeerState.noConfusion, PeerState.noConfusion⟩, ?_⟩)
    have hidentity : identity = k := (hkeyed.peers.key_eq hfound).symm.trans hk
    rw [hidentity, hpeer] at hfound
    rw [Option.some.inj hfound]
  | status htask =>
    exact .inl (hinsert fun hk =>
      ⟨⟨PeerState.noConfusion, PeerState.noConfusion⟩, hfinish htask rfl hk⟩)
  | statusHalf _ htask _ hnext hs' =>
    subst hnext
    obtain rfl | rfl := hs' <;> exact .inl (hinsert fun hk =>
      ⟨⟨PeerState.noConfusion, PeerState.noConfusion⟩, hfinish htask rfl hk⟩)
  | confirmed htask =>
    exact .inl (hinsert fun hk =>
      ⟨⟨PeerState.noConfusion, PeerState.noConfusion⟩, hfinish htask rfl hk⟩)
  | confirmedHalf _ htask _ _ _ hnext hs' =>
    subst hnext
    obtain rfl | rfl := hs' <;> exact .inl (hinsert fun hk =>
      ⟨⟨PeerState.noConfusion, PeerState.noConfusion⟩, hfinish htask rfl hk⟩)
  | @removesPeer number access task rest removed htask htodo _ =>
    by_cases hk : removed.id = k
    · exact .inr (.inl ⟨number, task, .removePeer removed, rest, htask, htodo,
        congrArg some hk⟩)
    · refine .inl ⟨peer, ?_, hlive, rfl⟩
      exact (AList.lookup_insert_ne (Ne.symm hk)).trans hpeer
  | @forgetsPeer number access task rest peerId htask htodo _ =>
    by_cases hk : peerId = k
    · exact .inr (.inl ⟨number, task, .forgetPeer peerId, rest, htask, htodo, congrArg some hk⟩)
    · refine .inl ⟨peer, ?_, hlive, rfl⟩
      exact (AList.lookup_erase_ne (Ne.symm hk)).trans hpeer
  | @verified peerId _ _ _ current hcurrent hpaired =>
    refine .inl (hinsert fun hk => ⟨by simp [Peer.Live, hpaired], ?_⟩)
    have hidentity : peerId = k := (hkeyed.peers.key_eq hcurrent).symm.trans hk
    rw [hidentity, hpeer] at hcurrent
    rw [Option.some.inj hcurrent]
  | @settle number effect session record _ _ =>
    obtain ⟨grants, operations, -, hsettle⟩ := Operations.settle_frame
      (fun _ => hkeyed.grants.key_eq) record effect
    rw [hsettle]
    exact .inl hstays
  | suspend key => exact .inr (.inr ⟨key, rfl⟩)
  | _ => exact .inl hstays

/-- A request after a step: it is unchanged, it is new, or its first part is done. -/
inductive Progress (s s' : Manager) (task : Task) : Prop
  | same (number : ℕ) (htask : s.tasks.lookup number = some task)
  /-- `finish` and `retire` remove nobody. -/
  | harmless (hnone : ∀ todo ∈ task.todo, todo.withdraws = none)
  | removes (peerId : Identity) (peer : Peer) (hpeer : s.peers.lookup peerId = some peer)
    (hgrants : s'.grants = s.grants)
    (htodo : task.todo = ((s.grantsOf peer.projectId).filter fun grant =>
      decide (grant.peer = peerId ∧ grant.state = .active)).map
        (fun grant => .revoke grant.id) ++ [.removePeer peer])
  | forgets (peerId : Identity) (peer : Peer) (hpeer : s.peers.lookup peerId = some peer)
    (hstate : ¬peer.Live) (hgrants : s'.grants = s.grants)
    (htodo : task.todo = ((s.grantsOf peer.projectId).filter fun grant =>
      decide (grant.peer = peerId)).flatMap (fun grant =>
        [.revoke grant.id, .retire grant.id, .purge grant.id]) ++ [.forgetPeer peerId])
  | advances (number : ℕ) (before : Task) (todo : Todo)
    (htask : s.tasks.lookup number = some before) (htodo : before.todo = todo :: task.todo)
    (hdone : ∀ k grant, todo = .revoke k → s'.grants.lookup k = some grant →
      grant.state ≠ .active)

/-- Every request after a step is as `Progress` says. -/
theorem progress_change (hkeyed : s.Keyed) (hchange : Change s a s') {number : ℕ} {task : Task}
    (htask : s'.tasks.lookup number = some task) :
    Progress s s' task := by
  have hinsert {next : Task} {number' : ℕ}
      (hfound : (s.tasks.insert number' next).lookup number = some task)
      (hnext : Progress s s' next) : Progress s s' task := by
    rw [Table.lookup_insert_eq] at hfound
    split_ifs at hfound
    · obtain rfl := Option.some.inj hfound
      exact hnext
    · exact .same number hfound
  have herase {number' : ℕ} (hfound : (s.tasks.erase number').lookup number = some task) :
      Progress s s' task := by
    rw [Table.lookup_erase_eq] at hfound
    split_ifs at hfound
    exact .same number hfound
  have hempty (hfound : (∅ : Table ℕ Task).lookup number = some task) : Progress s s' task := by
    simp at hfound
  cases hchange with
  | finish =>
    exact hinsert htask (.harmless (by simp [Todo.withdraws]))
  | status =>
    exact hinsert htask (.harmless (by simp [Todo.withdraws]))
  | statusHalf _ _ _ hnext hs' =>
    subst hnext
    obtain rfl | rfl := hs'
    · exact herase htask
    · exact hempty htask
  | confirmed => exact herase htask
  | confirmedHalf _ _ _ _ _ hnext hs' =>
    subst hnext
    obtain rfl | rfl := hs'
    · exact herase htask
    · exact hempty htask
  | @remove number' peerId actor peer hfree hpeer hproject =>
    exact hinsert htask (.removes peerId peer hpeer rfl (by rw [hproject]))
  | retire =>
    exact hinsert htask (.harmless (by simp [Todo.withdraws]))
  | @forget number' peerId actor peer hfree hpeer hproject hstate =>
    refine hinsert htask (.forgets peerId peer hpeer ?_ rfl (by rw [hproject]))
    rintro ⟨hnotRemoved, hnotSuspended⟩
    exact hstate.elim hnotRemoved hnotSuspended
  | ends => exact herase htask
  | @revokes number' access before todo rest grantId value next grants credentials hbefore htodo
      hready hkind hvalue hnext hgrants =>
    refine hinsert htask (.advances number' before todo hbefore htodo fun k grant hk hgrant => ?_)
    obtain rfl : k = grantId := by
      obtain rfl | rfl := hkind
      · exact (Todo.revoke.inj hk).symm
      · cases hk
    rw [hgrants k, if_pos rfl] at hgrant
    rw [← Option.some.inj hgrant, hnext.state]
    exact GrantState.noConfusion
  | purges hbefore htodo =>
    exact hinsert htask (.advances _ _ _ hbefore htodo fun _ _ hk => by cases hk)
  | removesPeer hbefore htodo =>
    exact hinsert htask (.advances _ _ _ hbefore htodo fun _ _ hk => by cases hk)
  | forgetsPeer hbefore htodo =>
    exact hinsert htask (.advances _ _ _ hbefore htodo fun _ _ hk => by cases hk)
  | beginsStop => exact hempty htask
  | @settle number' effect session record _ _ =>
    obtain ⟨grants, operations, -, hsettle⟩ := Operations.settle_frame
      (fun _ => hkeyed.grants.key_eq) record effect
    rw [hsettle] at htask
    exact .same number htask
  | settleStop => exact hempty htask
  | restart => exact hempty htask
  | suspend => exact hempty htask
  | _ => exact .same number htask

/-- What a request awaits, it awaits after the step. -/
theorem Confined.awaits_change (h : s.Confined) (hundisturbed : s.Undisturbed a)
    (hchange : Change s a s') {number : ℕ} {task : Task} (htask : s.tasks.lookup number = some task) :
    Awaits s'.grants task.todo := by
  obtain hgrants | ⟨grantId, grant, -, -, hgrants, hrecipient, -⟩ :=
    continues_or_gives h.keyed hchange
  · exact (h.awaited htask).continues hgrants
  · rw [hgrants]
    refine (h.awaited htask).insert fun todo htodo hwithdraws => ?_
    exact hundisturbed grant.peer hrecipient
      ⟨task, Table.mem_values.mpr ⟨number, htask⟩, todo, htodo, hwithdraws⟩

/-- The active grants after a step are held by peers that are there. -/
theorem Confined.live_change (h : s.Confined) (hseparates : s.Separates) (hchange : Change s a s')
    {k : Identity} {grant : Grant} (hgrant : s'.grants.lookup k = some grant)
    (hactive : grant.state = .active) :
    ∃ peer, s'.peers.lookup grant.peer = some peer ∧ peer.Live ∧
      peer.projectId = grant.projectId := by
  -- A grant that was there keeps its peer.
  have hkept {value : Grant} (hvalue : s.grants.lookup k = some value)
      (hinherits : Inherits value grant) : ∃ peer, s'.peers.lookup grant.peer = some peer ∧
        peer.Live ∧ peer.projectId = grant.projectId := by
    have hwas := hinherits.active hactive
    obtain ⟨peer, hpeer, hlive, hproject⟩ := h.live hvalue hwas
    rw [hinherits.peer, hinherits.projectId]
    obtain ⟨next, hnext, hnextLive, hnextProject⟩ | ⟨number, task, todo, rest, htask, htodo,
        hwithdraws⟩ | ⟨key, rfl⟩ := peer_change h.keyed hseparates hchange hpeer hlive
    · exact ⟨next, hnext, hnextLive, hnextProject.trans hproject⟩
    · have hsplit : task.todo = [] ++ todo :: rest := htodo
      have hmem := (h.awaited htask).before hsplit hwithdraws hvalue hwas rfl
      cases hmem
    · simp only [suspended, Table.lookup_mapRows, Option.map_eq_some_iff] at hgrant
      obtain ⟨old, -, rfl⟩ := hgrant
      cases hactive
  obtain hgrants | ⟨grantId, given, peer, -, hgrants, -, hpeer, hlive, hproject⟩ :=
    continues_or_gives h.keyed hchange
  · obtain ⟨value, hvalue, hinherits⟩ := hgrants k grant hgrant
    exact hkept hvalue hinherits
  · rw [hgrants, Table.lookup_insert_eq] at hgrant
    split_ifs at hgrant
    · obtain rfl := Option.some.inj hgrant
      exact ⟨peer, hpeer, hlive, hproject⟩
    · exact hkept hgrant (.refl grant)

omit [Hash (Key × Identity)] [Hash (Signed Offer)] [Hash Receipt] [Hash Arguments] in
/-- The revocations of a removal that starts. -/
theorem Confined.awaits_remove (h : s.Confined) {peerId : Identity} {peer : Peer}
    (hpeer : s.peers.lookup peerId = some peer) :
    Awaits s.grants (((s.grantsOf peer.projectId).filter fun grant =>
      decide (grant.peer = peerId ∧ grant.state = .active)).map
        (fun grant => .revoke grant.id) ++ [.removePeer peer]) := by
  refine .append (fun todo htodo => ?_) fun k grant hgrant hactive hof => ?_
  · obtain ⟨grant, -, rfl⟩ := List.mem_map.mp htodo
    rfl
  · have hid : grant.peer = peerId :=
      (Option.some.inj hof).trans (h.keyed.peers.key_eq hpeer)
    obtain ⟨found, hfound, -, hproject⟩ := h.live hgrant hactive
    obtain rfl : found = peer := by
      rw [hid, hpeer] at hfound
      exact (Option.some.inj hfound).symm
    refine List.mem_map.mpr ⟨grant, List.mem_filter.mpr ⟨?_, by simp [hid, hactive]⟩, ?_⟩
    · exact mem_grantsOf.mpr ⟨⟨k, hgrant⟩, hproject.symm⟩
    · rw [h.keyed.grants.key_eq hgrant]

/-- A change keeps the grants confined. -/
theorem Confined.change (h : s.Confined) (hundisturbed : s.Undisturbed a) (hseparates : s.Separates)
    (hchange : Change s a s') :
    s'.Confined where
  keyed := h.keyed.change hchange
  live := h.live_change hseparates hchange
  awaited {number task} htask := by
    cases progress_change h.keyed hchange htask with
    | same number htask => exact h.awaits_change hundisturbed hchange htask
    | harmless hnone => exact .of_none hnone
    | removes peerId peer hpeer hgrants htodo =>
      rw [hgrants, htodo]
      exact h.awaits_remove hpeer
    | forgets peerId peer hpeer hstate hgrants htodo =>
      rw [hgrants, htodo]
      refine .append (fun todo htodo => ?_) fun k grant hgrant hactive hof => ?_
      · obtain ⟨grant, -, hmem⟩ := List.mem_flatMap.mp htodo
        simp only [List.mem_cons, List.not_mem_nil, or_false] at hmem
        obtain rfl | rfl | rfl := hmem <;> rfl
      · -- A peer that can be forgotten has no active grants.
        obtain ⟨found, hfound, hlive, -⟩ := h.live hgrant hactive
        rw [Option.some.inj hof, hpeer] at hfound
        exact absurd (Option.some.inj hfound ▸ hlive) hstate
    | advances number before todo hbefore htodo hdone =>
      have hawaits := h.awaits_change hundisturbed hchange hbefore
      rw [htodo] at hawaits
      exact hawaits.tail hdone

end Invariant

/-- In every run in which no grant is given to a peer that is being removed or forgotten, a grant
that was revoked, or whose peer was removed or forgotten, authorises nothing any more. -/
theorem authority_final (key : Key) (first second : List Step)
    (hundisturbed : Along step Undisturbed (initial key) (first ++ second))
    (hseparates : Along step (fun s _ => s.Separates) (initial key) (first ++ second)) :
    Final key first second := by
  intro identity hwithdrawn
  have hkeeps : ∀ s a, s.Confined → s.Undisturbed a ∧ s.Separates → (step s a).Confined :=
    fun s a h hcond => h.change hcond.1 hcond.2 (change_step h.keyed a)
  have hconfined : (run step (initial key) first).Confined :=
    Along.run_invariant hkeeps (confined_initial key)
      (along_append.mp (hundisturbed.and hseparates)).1
  have hended : ∀ s a, s.Keyed ∧ s.Ended identity →
      (step s a).Keyed ∧ (step s a).Ended identity := by
    rintro s a ⟨hkeyed, h⟩
    exact ⟨hkeyed.change (change_step hkeyed a), h.change hkeyed (change_step hkeyed a)⟩
  rw [run_append]
  exact (run_invariant hended ⟨hconfined.keyed, hconfined.ended hwithdrawn⟩ second).2.refuses

end Manager

/-! ### A removal with and without a grant in between -/

namespace Example

/-- The digests of the example, with the low halves of the key and the project added. -/
@[reducible]
def peerHash : Hash (Key × Identity) := ⟨fun pair => (pair.1 + pair.2.setWidth 256) <<< 128⟩

@[reducible]
def offerHash : Hash (Signed Offer) := ⟨fun signed => signed.payload.id.setWidth 256⟩

@[reducible]
def receiptHash : Hash Receipt := ⟨fun receipt => receipt.payload.grant.setWidth 256⟩

@[reducible]
def argumentsHash : Hash Arguments := ⟨fun arguments => arguments.2.2.1.setWidth 256⟩

attribute [local instance] peerHash offerHash receiptHash argumentsHash

/-- The receiving cluster. -/
def own : Cluster := ⟨1, "own", 7, 8, 11, 21⟩

/-- The cluster that offers to pair. -/
def remote : Cluster := ⟨2, "remote", 7, 8, 12, 22⟩

def owner : Actor := ⟨3, 1, LOCAL_PROJECT, true⟩

/-- A grant to discover resources, with two requests at a time. -/
def spec : GrantSpec :=
  { scopes := [.discover], services := [], models := [], nodes := [], lifetime := 60
    concurrent := 2, requests := 10, transferBytes := 0, requestBytes := 1024
    responseBytes := 1024, stopOnRevoke := false, distinct := by decide, allowance := by decide }

def offer (identity : Identity) : Signed Offer :=
  ⟨⟨identity, 0, remote, own, 500, [.discover]⟩, some remote.key⟩

/-- The identity of the remote cluster. -/
def peerId : Identity := Pairing.peerId remote LOCAL_PROJECT

/-- A cluster offers to pair, its offer is approved with a new grant, and it confirms. -/
def pairing (offerId credential grantId : Identity) : List Manager.Step :=
  [.incoming (offer offerId) remote.key remote.principal 0,
    .approve offerId ⟨1, spec⟩ (.ok owner) 0 (.ok 1000) credential grantId,
    .confirm offerId (grantId.setWidth 256) remote.key remote.principal 0]

/-- A request of the remote cluster that arrives under the first grant. -/
def request : Request :=
  { id := 40, source := remote.key, grant := 31, generation := 1, operation := .modelsRemove
    body := .remove 5, bytes := 2 }

/-- The cluster is paired, uses its grant, and is removed. Its removal waits for the end of the
connection, and `between` happens while it waits. -/
def removal (between : List Manager.Step) : List Manager.Step :=
  .configure own (.ok owner) :: pairing 20 30 31 ++
    [.serve 0 request remote.principal ⟨0, .ok ()⟩, .remove 0 peerId (.ok owner),
      .proceed 0 (.ok ())] ++ between ++ [.close 0, .proceed 0 (.ok ())]

/-- Another grant for the peer. -/
def anotherGrant : Manager.Step := .grant peerId spec (.ok owner) (.ok 1000) 32 33

/-- The peer as a request of the remote cluster finds it. -/
def peer : Peer :=
  ⟨peerId, LOCAL_PROJECT, remote, .paired,
    ⟨⟨0, remote, own, 35, 1, spec, 1000⟩, some own.key⟩, none, 0⟩

/-- A grant that is given while the removal waits stays active, and authorises requests when the
cluster is paired again. -/
theorem not_final_removalRace :
    ¬Manager.Final own.key (removal [anotherGrant]) (pairing 21 34 35) := by
  intro hfinal
  have hrefuses := hfinal 33 (by decide +kernel) peer 1 none none ⟨0, .ok ()⟩
  have hauthorised : (Authority.check
      (run Manager.step (Manager.initial own.key) (removal [anotherGrant] ++ pairing 21 34 35))
      33 peer 1 none none ⟨0, .ok ()⟩).toOption.isSome = true := by decide +kernel
  rcases hcheck : Authority.check
      (run Manager.step (Manager.initial own.key) (removal [anotherGrant] ++ pairing 21 34 35))
      33 peer 1 none none ⟨0, .ok ()⟩ with error | value
  · rw [hcheck] at hauthorised
    cases hauthorised
  · exact hrefuses value hcheck

/-- Without that grant the removal is final. -/
theorem refuses_removal :
    (run Manager.step (Manager.initial own.key) (removal [])).Withdrawn 31 ∧
      (run Manager.step (Manager.initial own.key) (removal [] ++ pairing 21 34 35)).Refuses 31 := by
  have hwithdrawn : (run Manager.step (Manager.initial own.key) (removal [])).Withdrawn 31 := by
    decide +kernel
  exact ⟨hwithdrawn, Manager.authority_final own.key (removal []) (pairing 21 34 35)
    (by decide +kernel) (by decide +kernel) 31 hwithdrawn⟩

end Example

end Ficc.Federation
