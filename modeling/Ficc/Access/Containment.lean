import Ficc.Access.Auth

/-!
# Containment and final revocation

Every event either only takes credentials away or inserts one under random values that are new
(`Inv.perform_cases`). From that follow both results about runs. What a credential has lies within
every grant on the way to it, so no chain of sign-in and changes of the project widens it
(`credentials_contained`, with what the membership and the assignments are at the time of use). And
a row that is gone does not come back, since a new row has a new id and a new digest
(`revocation_final`).
-/

namespace Ficc.Access

open Execution (Identity Digest)

variable {s s' : State}

/-! ### Grants -/

/-- The grant has the scopes, and allows the machines and folders. -/
structure Grant.Covers (grant : Grant) (scopes : List Scope) (nodes roots : Option (List Identity)) :
    Prop where
  scopes : ∀ scope ∈ scopes, scope ∈ grant.scopes
  nodes : ∀ node, allows nodes node → allows grant.nodes node
  roots : ∀ root, allows roots root → allows grant.roots root

/-- Something was issued, and every grant on the way covers what there is now. -/
def Bound (issued : List Grant) (scopes : List Scope) (nodes roots : Option (List Identity)) :
    Prop :=
  issued ≠ [] ∧ ∀ grant ∈ issued, grant.Covers scopes nodes roots

variable {issued : List Grant} {draw : State.Draw} {external : ExternalCheck} {identity : Identity}
  {principal : Principal} {digest : Digest}

theorem Bound.mono {scopes fewer : List Scope} {nodes roots : Option (List Identity)}
    (h : Bound issued scopes nodes roots) (hfewer : ∀ scope ∈ fewer, scope ∈ scopes) :
    Bound issued fewer nodes roots :=
  ⟨h.1, fun grant hgrant =>
    ⟨fun scope hscope => (h.2 grant hgrant).scopes scope (hfewer scope hscope),
      (h.2 grant hgrant).nodes, (h.2 grant hgrant).roots⟩⟩

def Login.Bound (login : Login) : Prop :=
  Access.Bound login.issued login.initial.scopes login.initial.nodeIds login.initial.rootIds

/-! ### Invariant -/

structure Inv (s : State) : Prop where
  drawn : ∀ identity row, s.credentials.lookup identity = some row →
    identity ∈ s.drawn.1 ∧ row.digest ∈ s.drawn.2
  unique : ∀ first second row row', s.credentials.lookup first = some row →
    s.credentials.lookup second = some row' → row.digest = row'.digest → first = second
  bound : ∀ identity row, s.credentials.lookup identity = some row → row.kind ≠ .remote →
    ∃ issued, s.issued.lookup identity = some issued ∧ Bound issued row.scopes row.nodes row.roots
  logins : ∀ login ∈ s.logins, login.Bound

theorem Inv.initial : Inv .initial := by
  constructor <;> intros <;> simp_all [State.initial]

/-- Credentials are only taken away. -/
structure Shrinks (s s' : State) : Prop where
  lookup : ∀ identity row, s'.credentials.lookup identity = some row →
    s.credentials.lookup identity = some row
  issued : s'.issued = s.issued
  drawn : s'.drawn = s.drawn
  logins : ∀ login ∈ s'.logins, login ∈ s.logins ∨ login.Bound

/-- A credential is inserted, and others may be taken away. -/
structure Inserts (s s' : State) (draw : State.Draw) (row : Credential) (issued : List Grant) :
    Prop where
  freshId : draw.id ∉ s.drawn.1
  freshDigest : draw.digest ∉ s.drawn.2
  lookup : ∀ identity found, s'.credentials.lookup identity = some found →
    identity = draw.id ∧ found = { row with digest := draw.digest, csrf := draw.csrf } ∨
      s.credentials.lookup identity = some found
  issued : ∀ identity, s'.issued.lookup identity =
    if identity = draw.id then some issued else s.issued.lookup identity
  drawn : s'.drawn = (draw.id :: s.drawn.1, draw.digest :: s.drawn.2)
  logins : ∀ login ∈ s'.logins, login ∈ s.logins

/-- What an event can do to the credentials. -/
inductive Change (s s' : State) : Prop
  | shrinks (h : Shrinks s s')
  | inserts (draw : State.Draw) (row : Credential) (issued : List Grant)
    (h : Inserts s s' draw row issued)
    (hbound : row.kind ≠ .remote → Bound issued row.scopes row.nodes row.roots)

/-- A change keeps the invariant. -/
theorem Inv.change (h : Inv s) (hchange : Change s s') : Inv s' := by
  cases hchange with
  | shrinks hs =>
    refine ⟨fun identity row hrow => ?_, fun first second row row' hfirst hsecond => ?_,
      fun identity row hrow => ?_, fun login hlogin => ?_⟩
    · rw [hs.drawn]
      exact h.drawn identity row (hs.lookup identity row hrow)
    · exact h.unique first second row row' (hs.lookup _ _ hfirst) (hs.lookup _ _ hsecond)
    · rw [hs.issued]
      exact h.bound identity row (hs.lookup identity row hrow)
    · exact (hs.logins login hlogin).elim (h.logins login) id
  | inserts draw row issued hi hbound =>
    -- The digest of the new row is on no other row.
    have hother {identity : Identity} {found : Credential}
        (hfound : s.credentials.lookup identity = some found) : found.digest ≠ draw.digest := by
      intro heq
      exact hi.freshDigest (heq ▸ (h.drawn identity found hfound).2)
    refine ⟨fun identity found hfound => ?_,
      fun first second found found' hfirst hsecond heq => ?_,
      fun identity found hfound hkind => ?_, fun login hlogin => h.logins login ?_⟩
    · rw [hi.drawn]
      obtain ⟨rfl, rfl⟩ | hold := hi.lookup identity found hfound
      · exact ⟨List.mem_cons_self, List.mem_cons_self⟩
      · obtain ⟨hid, hdigest⟩ := h.drawn identity found hold
        exact ⟨List.mem_cons_of_mem _ hid, List.mem_cons_of_mem _ hdigest⟩
    · obtain ⟨rfl, rfl⟩ | hold := hi.lookup first found hfirst
      · obtain ⟨rfl, -⟩ | hold' := hi.lookup second found' hsecond
        · rfl
        · exact absurd heq.symm (hother hold')
      · obtain ⟨-, rfl⟩ | hold' := hi.lookup second found' hsecond
        · exact absurd heq (hother hold)
        · exact h.unique first second found found' hold hold' heq
    · rw [hi.issued]
      obtain ⟨rfl, rfl⟩ | hold := hi.lookup identity found hfound
      · rw [if_pos rfl]
        exact ⟨issued, rfl, hbound hkind⟩
      · rw [if_neg]
        · exact h.bound identity found hold hkind
        · rintro rfl
          exact hi.freshId (h.drawn _ found hold).1
    · exact hi.logins login hlogin

/-! ### Events -/

theorem Shrinks.of_eq (hcredentials : s'.credentials = s.credentials) (hissued : s'.issued = s.issued)
    (hdrawn : s'.drawn = s.drawn) (hlogins : s'.logins = s.logins) : Shrinks s s' := by
  refine ⟨fun identity row h => ?_, hissued, hdrawn, fun login h => .inl ?_⟩
  · rwa [hcredentials] at h
  · rwa [hlogins] at h

/-- What shrinks twice shrinks. -/
theorem Shrinks.trans {s'' : State} (h : Shrinks s s') (h' : Shrinks s' s'') : Shrinks s s'' where
  lookup identity row hrow := h.lookup identity row (h'.lookup identity row hrow)
  issued := h'.issued.trans h.issued
  drawn := h'.drawn.trans h.drawn
  logins login hlogin := (h'.logins login hlogin).elim (h.logins login) .inr

theorem Shrinks.deleteCredentials (s : State) (doomed : Credential → Prop)
    [DecidablePred doomed] : Shrinks s (s.deleteCredentials doomed) where
  lookup identity row hrow := by
    have hdiscard := Table.lookup_discard s.credentials (fun _ row => decide (doomed row)) identity
    rw [State.deleteCredentials, hdiscard, Option.filter_eq_some_iff] at hrow
    exact hrow.1
  issued := rfl
  drawn := rfl
  logins _ hlogin := .inl hlogin

theorem Shrinks.revoke (s : State) (identity : Identity) : Shrinks s (s.revoke identity) where
  lookup other row hrow := by
    have herase := Table.lookup_erase_eq s.credentials identity other
    rw [State.revoke, herase] at hrow
    split at hrow
    next => cases hrow
    next => exact hrow
  issued := rfl
  drawn := rfl
  logins _ hlogin := .inl hlogin

theorem Shrinks.deleteOf (s : State) (kind : PartyKind) (identity : Identity) :
    Shrinks s (s.deleteOf kind identity) := by
  cases kind with
  | user => exact .deleteCredentials s _
  | project => exact .deleteCredentials s _

theorem Shrinks.putParty (s : State) (kind : PartyKind) (identity : Identity) (party : Party) :
    Shrinks s (s.putParty kind identity party) := by
  cases kind with
  | user => exact .of_eq rfl rfl rfl rfl
  | project => exact .of_eq rfl rfl rfl rfl

/-- An insertion after credentials were taken away, without a sign-in. -/
theorem Inserts.of_insertCredential {base : State} (hs : Shrinks s base)
    (hlogins : ∀ login ∈ base.logins, login ∈ s.logins) {row : Credential}
    (h : base.insertCredential draw row issued = .ok s') :
    Inserts s s' draw row issued := by
  simp only [State.insertCredential, bind_eq_ok, raiseIf_eq_ok, pure, Except.pure,
    Except.ok.injEq, not_or] at h
  obtain ⟨-, ⟨hid, hdigest⟩, rfl⟩ := h
  rw [hs.drawn] at hid hdigest
  refine ⟨hid, hdigest, fun identity found hfound => ?_, fun identity => ?_, ?_, hlogins⟩
  · have hinsert := Table.lookup_insert_eq base.credentials draw.id identity
      { row with digest := draw.digest, csrf := draw.csrf }
    rw [hinsert] at hfound
    split at hfound
    next heq => exact .inl ⟨heq, (Option.some.inj hfound).symm⟩
    next => exact .inr (hs.lookup identity found hfound)
  · rw [← hs.issued]
    exact Table.lookup_insert_eq base.issued draw.id identity issued
  · rw [← hs.drawn]

/-- Taking credentials away after an insertion. -/
theorem Inserts.shrinks {s'' : State} {row : Credential} (h : Inserts s s' draw row issued)
    (hs : Shrinks s' s'') (hlogins : ∀ login ∈ s''.logins, login ∈ s'.logins) :
    Inserts s s'' draw row issued where
  freshId := h.freshId
  freshDigest := h.freshDigest
  lookup identity found hfound := h.lookup identity found (hs.lookup identity found hfound)
  issued identity := by
    rw [hs.issued]
    exact h.issued identity
  drawn := hs.drawn.trans h.drawn
  logins login hlogin := h.logins login (hlogins login hlogin)

/-- What `issue` does: a row with the arguments, and a grant of the same. -/
theorem State.issue_eq_ok {arguments : State.Issue} {from_ : List Grant}
    (h : s.issue arguments draw from_ = .ok s') :
    ∃ scopes row, Inserts s s' draw row (⟨scopes, arguments.nodeIds, arguments.rootIds⟩ :: from_) ∧
      row.scopes = scopes ∧ row.nodes = arguments.nodeIds ∧ row.roots = arguments.rootIds ∧
      row.kind = arguments.kind ∧
      ∀ asked, arguments.scopes = some asked → ∀ scope ∈ scopes, scope ∈ asked := by
  simp only [State.issue, bind_eq_ok] at h
  obtain ⟨permitted, -, user, -, -, -, -, -, -, -, -, -, -, -, -, -, -, -, h⟩ := h
  refine ⟨(arguments.scopes.getD permitted).dedup, _,
    .of_insertCredential (.deleteCredentials s _) (fun _ => id) h, rfl, rfl, rfl, rfl, ?_⟩
  intro asked hasked scope hscope
  rw [hasked, Option.getD_some] at hscope
  exact List.mem_dedup.mp hscope

theorem Grant.covers_self (scopes : List Scope) (nodes roots : Option (List Identity)) :
    Grant.Covers ⟨scopes, nodes, roots⟩ scopes nodes roots :=
  ⟨fun _ => id, fun _ => id, fun _ => id⟩

/-- The principal of a row has no more than the row. -/
theorem State.principal_eq_ok {row : Credential}
    (h : s.principal external identity row = .ok principal) :
    principal.id = identity ∧ principal.kind = row.kind ∧ principal.nodeIds = row.nodes ∧
      principal.rootIds = row.roots ∧ principal.subjectId = row.subjectId ∧
      principal.projectId = row.projectId ∧ (∀ scope ∈ principal.scopes, scope ∈ row.scopes) ∧
      principal.projectNodes = (s.assignment row.projectId).nodes ∧
      principal.projectRoots = (s.assignment row.projectId).roots ∧
      (row.subjectId ≠ LOCAL_OWNER → ∀ scope ∈ principal.scopes,
        scope ∈ s.memberScopes row.projectId row.subjectId) := by
  simp only [State.principal, bind_eq_ok, pure, Except.pure, Except.ok.injEq] at h
  obtain ⟨-, -, user, -, space, -, -, -, -, -, rfl⟩ := h
  refine ⟨rfl, rfl, rfl, rfl, rfl, rfl, fun scope hscope => ?_, rfl, rfl, fun hne scope hscope => ?_⟩
  · exact (List.mem_filter.mp hscope).1
  · have hpermitted := of_decide_eq_true (List.mem_filter.mp hscope).2
    rw [if_neg hne] at hpermitted
    exact (List.mem_filter.mp hpermitted).1

theorem State.byDigest_eq_some {row : Identity × Credential} (h : s.byDigest digest = some row) :
    s.credentials.lookup row.1 = some row.2 ∧ row.2.digest = digest := by
  unfold State.byDigest at h
  have hfound := List.find?_some h
  exact ⟨Table.mem_rows.mp (List.mem_of_find?_eq_some h), of_decide_eq_true hfound⟩

/-- A resolved principal has a stored credential. -/
theorem State.resolve_eq_ok {kinds : List CredentialKind}
    (h : s.resolve external digest kinds = .ok principal) :
    ∃ identity row, s.credentials.lookup identity = some row ∧ row.digest = digest ∧
      row.kind ∈ State.accepted kinds ∧ s.principal external identity row = .ok principal := by
  simp only [State.resolve, bind_eq_ok, orRaise_eq_ok, raiseIf_eq_ok, not_or, not_not] at h
  obtain ⟨row, hrow, -, ⟨hkind, -⟩, hprincipal⟩ := h
  obtain ⟨hlookup, hdigest⟩ := State.byDigest_eq_some hrow
  exact ⟨row.1, row.2, hlookup, hdigest, hkind, hprincipal⟩

theorem State.current_eq_ok (h : s.current external identity = .ok principal) :
    ∃ row, s.credentials.lookup identity = some row ∧
      s.principal external identity row = .ok principal := by
  simp only [State.current, bind_eq_ok, orRaise_eq_ok] at h
  obtain ⟨row, hrow, -, -, hprincipal⟩ := h
  exact ⟨row, hrow, hprincipal⟩

/-- What there is of a principal is bound by the grants of its credential. -/
theorem Inv.bound_principal (h : Inv s) {row : Credential}
    (hrow : s.credentials.lookup identity = some row)
    (hprincipal : s.principal external identity row = .ok principal) (hkind : row.kind ≠ .remote) :
    ∃ issued, s.issued.lookup principal.id = some issued ∧
      Bound issued principal.scopes principal.nodeIds principal.rootIds := by
  obtain ⟨hid, -, hnodes, hroots, -, -, hscopes, -⟩ := State.principal_eq_ok hprincipal
  obtain ⟨issued, hissued, hbound⟩ := h.bound identity row hrow hkind
  rw [hid, hnodes, hroots]
  exact ⟨issued, hissued, hbound.mono hscopes⟩

/-- An event is one of the changes. -/
theorem Inv.perform_cases (h : Inv s) {event : Event} (hperform : perform s event = .ok s') :
    Change s s' := by
  cases event with
  | tick seconds =>
    obtain rfl := Except.ok.inj hperform
    exact .shrinks (.of_eq rfl rfl rfl rfl)
  | create kind label drawn =>
    simp only [perform, State.create, bind_eq_ok] at hperform
    obtain ⟨-, -, hperform⟩ := hperform
    cases kind with
    | user =>
      simp only [bind_eq_ok, pure, Except.pure, Except.ok.injEq] at hperform
      obtain ⟨-, -, -, -, rfl⟩ := hperform
      exact .shrinks (.of_eq rfl rfl rfl rfl)
    | project =>
      simp only [bind_eq_ok, pure, Except.pure, Except.ok.injEq] at hperform
      obtain ⟨-, -, -, -, rfl⟩ := hperform
      exact .shrinks (.of_eq rfl rfl rfl rfl)
  | update kind identity label disabled revision =>
    simp only [perform, State.update, bind_eq_ok, pure, Except.pure, Except.ok.injEq] at hperform
    obtain ⟨-, -, -, -, before, -, -, -, rfl⟩ := hperform
    have hput := Shrinks.putParty s kind identity
      ⟨State.strip label, disabled, before.revision + 1⟩
    cases disabled with
    | false => exact .shrinks hput
    | true => exact .shrinks (hput.trans (.deleteOf _ kind identity))
  | membership project subject scopes revision =>
    simp only [perform, State.membership, bind_eq_ok, pure, Except.pure, Except.ok.injEq]
      at hperform
    obtain ⟨-, -, -, -, -, -, -, -, -, -, -, -, rfl⟩ := hperform
    split
    next =>
      have hdelete := Shrinks.deleteCredentials
        { s with memberships := s.memberships.insert (project, subject) ⟨scopes.dedup, revision + 1⟩ }
        fun row => row.projectId = project ∧ row.subjectId = subject
      exact .shrinks ⟨hdelete.lookup, rfl, rfl, hdelete.logins⟩
    next => exact .shrinks (.of_eq rfl rfl rfl rfl)
  | assign project nodes roots revision =>
    simp only [perform, State.assign, bind_eq_ok, pure, Except.pure, Except.ok.injEq] at hperform
    obtain ⟨-, -, -, -, -, -, -, -, -, -, rfl⟩ := hperform
    exact .shrinks (.of_eq rfl rfl rfl rfl)
  | registerNode node =>
    obtain rfl := Except.ok.inj hperform
    exact .shrinks (.of_eq rfl rfl rfl rfl)
  | registerRoot root node =>
    obtain rfl := Except.ok.inj hperform
    exact .shrinks (.of_eq rfl rfl rfl rfl)
  | removeResource kind identity =>
    obtain rfl := Except.ok.inj hperform
    cases kind with
    | nodes => exact .shrinks (.of_eq rfl rfl rfl rfl)
    | roots => exact .shrinks (.of_eq rfl rfl rfl rfl)
  | issue arguments draw =>
    obtain ⟨scopes, row, hinserts, rfl, hnodes, hroots, -, -⟩ := State.issue_eq_ok hperform
    refine .inserts draw row _ hinserts fun _ => ⟨List.cons_ne_nil _ _, fun grant hgrant => ?_⟩
    obtain rfl := List.mem_singleton.mp hgrant
    rw [hnodes, hroots]
    exact Grant.covers_self _ _ _
  | consume external digest =>
    simp only [perform, State.consume, bind_eq_ok, pure, Except.pure, Except.ok.injEq] at hperform
    obtain ⟨initial, hresolve, rfl⟩ := hperform
    obtain ⟨identity, row, hrow, -, hkind, hprincipal⟩ := State.resolve_eq_ok hresolve
    have hbootstrap : row.kind ≠ .remote := by
      intro heq
      rw [heq] at hkind
      exact absurd hkind (by decide)
    obtain ⟨issued, hissued, hbound⟩ := h.bound_principal hrow hprincipal hbootstrap
    refine .shrinks ⟨(Shrinks.revoke s initial.id).lookup, rfl, rfl, fun login hlogin => ?_⟩
    obtain rfl | hold := List.mem_cons.mp hlogin
    · right
      rw [hissued]
      exact hbound
    · exact .inl hold
  | login pending draw =>
    simp only [perform, State.login, bind_eq_ok, raiseIf_eq_ok, not_not] at hperform
    obtain ⟨-, hmem, hissue⟩ := hperform
    obtain ⟨scopes, row, hinserts, rfl, hnodes, hroots, -, hasked⟩ := State.issue_eq_ok hissue
    have hpending := h.logins pending hmem
    -- The session comes from the bootstrap credential and has no more than that.
    refine .inserts draw row _ ⟨hinserts.freshId, hinserts.freshDigest, hinserts.lookup,
      hinserts.issued, hinserts.drawn, fun login hlogin =>
        List.mem_of_mem_erase (hinserts.logins login hlogin)⟩ fun _ =>
      ⟨List.cons_ne_nil _ _, fun grant hgrant => ?_⟩
    rw [hnodes, hroots]
    obtain rfl | hgrant := List.mem_cons.mp hgrant
    · exact Grant.covers_self _ _ _
    · exact (hpending.mono (hasked _ rfl)).2 grant hgrant
  | revoke identity =>
    obtain rfl := Except.ok.inj hperform
    exact .shrinks (.revoke s identity)
  | switchProject external identity project draw =>
    simp only [perform, State.switchProject, bind_eq_ok, orRaise_eq_ok, pure, Except.pure,
      Except.ok.injEq] at hperform
    obtain ⟨current, hcurrent, -, -, permitted, -, row, hrow, inserted, hinsert, -, -, rfl⟩ :=
      hperform
    obtain ⟨row', hrow', hprincipal⟩ := State.current_eq_ok hcurrent
    obtain rfl : row = row' := by
      rw [hrow] at hrow'
      exact Option.some.inj hrow'
    obtain ⟨-, hkind, -⟩ := State.principal_eq_ok hprincipal
    have hinserts : Inserts s inserted draw _ _ :=
      .of_insertCredential (.of_eq rfl rfl rfl rfl) (fun _ => id) hinsert
    refine .inserts draw _ _ (hinserts.shrinks (.revoke inserted identity) fun _ => id)
      fun hremote => ?_
    -- A session keeps its own scopes, machines and folders.
    obtain ⟨issued, hissued, hbound⟩ := h.bound identity row hrow hremote
    rw [hissued, Option.getD_some]
    dsimp only at hremote ⊢
    rw [if_neg (hkind ▸ hremote)]
    exact hbound
  | retireRemote =>
    obtain rfl := Except.ok.inj hperform
    exact .shrinks (.deleteCredentials s _)

theorem Inv.step (h : Inv s) (event : Event) : Inv (Access.step s event) := by
  unfold Access.step
  split
  next s' hperform => exact h.change (h.perform_cases hperform)
  next => exact h

/-- A run keeps the invariant. -/
theorem Inv.run (events : List Event) : Inv (run Access.step .initial events) :=
  run_invariant (I := Inv) (fun _ event h => h.step event) .initial events

/-! ### Containment -/

/-- What a principal is permitted lies within every grant on the way to its credential. -/
structure WithinIssued (s : State) (principal : Principal) : Prop where
  issued : ∃ issued, s.issued.lookup principal.id = some issued ∧ issued ≠ [] ∧
    ∀ grant ∈ issued, (∀ scope ∈ principal.scopes, scope ∈ grant.scopes) ∧
      (∀ node, principal.permitsNode node → allows grant.nodes node) ∧
      ∀ scope node root, principal.requireHost scope node root = .ok () →
        scope ∈ grant.scopes ∧ (∀ n, node = some n → allows grant.nodes n) ∧
          ∀ r, root = some r → allows grant.roots r

/-- What a principal other than the local owner is permitted lies within the present membership and
the present assignments of its project. -/
structure WithinProject (s : State) (principal : Principal) : Prop where
  scopes : ∀ scope ∈ principal.scopes,
    scope ∈ s.memberScopes principal.projectId principal.subjectId
  nodes : ∀ node, principal.permitsNode node → node ∈ (s.assignment principal.projectId).nodes
  host : ∀ scope node root, principal.requireHost scope node root = .ok () →
    scope ∈ s.memberScopes principal.projectId principal.subjectId ∧
      (∀ n, node = some n → n ∈ (s.assignment principal.projectId).nodes) ∧
      ∀ r, root = some r → r ∈ (s.assignment principal.projectId).roots

/-- What `requireHost` has checked when it returns. -/
theorem Principal.requireHost_eq_ok {scope : Scope} {node root : Option Identity}
    (h : principal.requireHost scope node root = .ok ()) :
    scope ∈ principal.scopes ∧ (∀ n, node = some n → principal.permitsNode n) ∧
      ∀ r, root = some r → ¬principal.deniesRoot node r := by
  simp only [Principal.requireHost, raiseIf_eq_ok, not_or, not_not] at h
  obtain ⟨hscope, hnode, hroot⟩ := h
  refine ⟨hscope, ?_, ?_⟩
  · rintro n rfl
    simpa using hnode
  · rintro r rfl
    simpa using hroot

/-- A bound credential is within what was issued. -/
theorem withinIssued_of_bound (hissued : s.issued.lookup principal.id = some issued)
    (hbound : Bound issued principal.scopes principal.nodeIds principal.rootIds) :
    WithinIssued s principal := by
  refine ⟨issued, hissued, hbound.1, fun grant hgrant => ?_⟩
  have hcovers := hbound.2 grant hgrant
  refine ⟨hcovers.scopes, fun node hnode => hcovers.nodes node hnode.1, ?_⟩
  intro scope node root hhost
  obtain ⟨hscope, hnode, hroot⟩ := Principal.requireHost_eq_ok hhost
  refine ⟨hcovers.scopes scope hscope, fun n hn => hcovers.nodes n (hnode n hn).1, fun r hr => ?_⟩
  refine hcovers.roots r ?_
  by_contra hdenied
  exact hroot r hr (.inl hdenied)

theorem withinProject_of_principal {row : Credential}
    (h : s.principal external identity row = .ok principal)
    (hmember : principal.subjectId ≠ LOCAL_OWNER) : WithinProject s principal := by
  obtain ⟨-, -, -, -, hsubject, hproject, -, hnodes, hroots, hscopes⟩ := State.principal_eq_ok h
  rw [← hproject] at hnodes hroots
  have hscope : ∀ scope ∈ principal.scopes,
      scope ∈ s.memberScopes principal.projectId principal.subjectId := by
    rw [hproject, hsubject]
    exact hscopes (hsubject ▸ hmember)
  have hnode : ∀ node, principal.permitsNode node →
      node ∈ (s.assignment principal.projectId).nodes := by
    rintro node ⟨-, howner | hassigned⟩
    · exact absurd howner hmember
    · exact hnodes ▸ hassigned
  refine ⟨hscope, hnode, fun scope node root hhost => ?_⟩
  obtain ⟨hhas, hpermits, hroot⟩ := Principal.requireHost_eq_ok hhost
  refine ⟨hscope scope hhas, fun n hn => hnode n (hpermits n hn), fun r hr => ?_⟩
  by_contra hdenied
  refine hroot r hr (.inr (.inr ⟨hmember, ?_⟩))
  rw [hroots]
  exact hdenied

/-- A principal that is read for a session or a token has no more than what was issued to it and
what its project gives now. -/
def Contained (s : State) (principal : Principal) : Prop :=
  principal.kind = .session ∨ principal.kind = .token →
    WithinIssued s principal ∧ (principal.subjectId ≠ LOCAL_OWNER → WithinProject s principal)

/-- Every principal is contained. -/
theorem Inv.contained (h : Inv s) {row : Credential}
    (hrow : s.credentials.lookup identity = some row)
    (hprincipal : s.principal external identity row = .ok principal) : Contained s principal := by
  intro hkind
  have hnot : row.kind ≠ .remote := by
    rw [← (State.principal_eq_ok hprincipal).2.1]
    obtain hkind | hkind := hkind <;> rw [hkind] <;> decide
  obtain ⟨issued, hissued, hbound⟩ := h.bound_principal hrow hprincipal hnot
  exact ⟨withinIssued_of_bound hissued hbound, withinProject_of_principal hprincipal⟩

/-! ### Final revocation -/

/-- The credential is gone for good: its id and its digest were drawn, and no row has them. -/
structure Gone (s : State) (identity : Identity) (digest : Digest) : Prop where
  drawnId : identity ∈ s.drawn.1
  drawnDigest : digest ∈ s.drawn.2
  lookup : s.credentials.lookup identity = none
  digests : ∀ other row, s.credentials.lookup other = some row → row.digest ≠ digest

theorem Gone.change (h : Gone s identity digest) (hchange : Change s s') :
    Gone s' identity digest := by
  cases hchange with
  | shrinks hs =>
    refine ⟨hs.drawn ▸ h.drawnId, hs.drawn ▸ h.drawnDigest, ?_, fun other row hrow => ?_⟩
    · cases hrow : s'.credentials.lookup identity with
      | none => rfl
      | some row =>
        have hold := hs.lookup identity row hrow
        rw [h.lookup] at hold
        cases hold
    · exact h.digests other row (hs.lookup other row hrow)
  | inserts draw row issued hi hbound =>
    refine ⟨?_, ?_, ?_, fun other found hfound => ?_⟩
    · rw [hi.drawn]
      exact List.mem_cons_of_mem _ h.drawnId
    · rw [hi.drawn]
      exact List.mem_cons_of_mem _ h.drawnDigest
    · -- The new row has an id that was not drawn before.
      cases hrow : s'.credentials.lookup identity with
      | none => rfl
      | some found =>
        obtain ⟨heq, -⟩ | hold := hi.lookup identity found hrow
        · exact absurd (heq ▸ h.drawnId) hi.freshId
        · rw [h.lookup] at hold
          cases hold
    · obtain ⟨-, rfl⟩ | hold := hi.lookup other found hfound
      · intro heq
        dsimp only at heq
        exact hi.freshDigest (heq ▸ h.drawnDigest)
      · exact h.digests other found hold

/-- A removed credential does not come back. -/
theorem Gone.run (hinv : Inv s) (h : Gone s identity digest) (events : List Event) :
    Gone (Ficc.run Access.step s events) identity digest := by
  have hboth : Inv (Ficc.run Access.step s events) ∧
      Gone (Ficc.run Access.step s events) identity digest := by
    refine run_invariant (I := fun s => Inv s ∧ Gone s identity digest) ?_ ⟨hinv, h⟩ events
    rintro s event ⟨hinv, hgone⟩
    refine ⟨hinv.step event, ?_⟩
    unfold Access.step
    split
    next s' hperform => exact hgone.change (hinv.perform_cases hperform)
    next => exact hgone
  exact hboth.2

/-- A credential that is gone does not authenticate. -/
theorem Gone.refused (h : Gone s identity digest) (external : ExternalCheck) :
    s.current external identity = .error signIn ∧
      ∀ kinds, s.resolve external digest kinds = .error signIn := by
  constructor
  · simp only [State.current, h.lookup]
    rfl
  · intro kinds
    have hnone : s.byDigest digest = none := by
      rw [State.byDigest, List.find?_eq_none]
      intro row hrow hfound
      exact h.digests row.1 row.2 (Table.mem_rows.mp hrow) (of_decide_eq_true hfound)
    simp only [State.resolve, hnone]
    rfl

/-- The event takes the credential away: its user is disabled, or its membership emptied. -/
def Removes (event : Event) (row : Credential) : Prop :=
  (∃ label revision, event = .update .user row.subjectId label true revision) ∨
    ∃ revision, event = .membership row.projectId row.subjectId [] revision

theorem lookup_deleteCredentials_of_doomed {doomed : Credential → Prop} [DecidablePred doomed]
    {row : Credential} (hrow : s.credentials.lookup identity = some row) (hdoomed : doomed row) :
    (s.deleteCredentials doomed).credentials.lookup identity = none := by
  have hdiscard := Table.lookup_discard s.credentials (fun _ row => decide (doomed row)) identity
  rw [State.deleteCredentials, hdiscard, hrow]
  simp [hdoomed]

theorem Inv.gone_of_removes (h : Inv s) {row : Credential}
    (hrow : s.credentials.lookup identity = some row) {event : Event} (hremoves : Removes event row)
    (hperform : perform s event = .ok s') : Gone s' identity row.digest := by
  have hdrawn := h.drawn identity row hrow
  have hlookup : s'.credentials.lookup identity = none ∧ s'.drawn = s.drawn ∧
      ∀ other found, s'.credentials.lookup other = some found →
        s.credentials.lookup other = some found := by
    obtain ⟨label, revision, rfl⟩ | ⟨revision, rfl⟩ := hremoves
    · simp only [perform, State.update, bind_eq_ok, pure, Except.pure, Except.ok.injEq] at hperform
      obtain ⟨-, -, -, -, before, -, -, -, rfl⟩ := hperform
      rw [if_pos trivial]
      exact ⟨lookup_deleteCredentials_of_doomed hrow rfl, rfl,
        (Shrinks.deleteCredentials _ _).lookup⟩
    · simp only [perform, State.membership, bind_eq_ok, pure, Except.pure, Except.ok.injEq]
        at hperform
      obtain ⟨-, -, -, -, -, -, -, -, -, -, -, -, rfl⟩ := hperform
      rw [if_pos trivial]
      exact ⟨lookup_deleteCredentials_of_doomed hrow ⟨rfl, rfl⟩, rfl,
        (Shrinks.deleteCredentials _ _).lookup⟩
  obtain ⟨hnone, hsame, hold⟩ := hlookup
  refine ⟨hsame ▸ hdrawn.1, hsame ▸ hdrawn.2, hnone, fun other found hfound heq => ?_⟩
  -- Another row with the digest would be this row.
  obtain rfl := h.unique other identity found row (hold other found hfound) hrow heq
  rw [hnone] at hfound
  cases hfound

/-- In every run, a principal that is read for a session or a token is contained in what was issued
to it and in what its project gives at that time; and a credential that is taken away with its
identity or its membership never authenticates again. -/
theorem credentials_contained (events : List Event) :
    let s := run Access.step .initial events
    (∀ external digest kinds principal, s.resolve external digest kinds = .ok principal →
      Contained s principal) ∧
    (∀ external identity principal, s.current external identity = .ok principal →
      Contained s principal) ∧
    ∀ identity row event s', s.credentials.lookup identity = some row → Removes event row →
      perform s event = .ok s' → ∀ later external,
        (run Access.step s' later).current external identity = .error signIn ∧
          ∀ kinds, (run Access.step s' later).resolve external row.digest kinds = .error signIn := by
  have h : Inv (run Access.step .initial events) := .run events
  refine ⟨?_, ?_, ?_⟩
  · intro external digest kinds principal hresolve
    obtain ⟨identity, row, hrow, -, -, hprincipal⟩ := State.resolve_eq_ok hresolve
    exact h.contained hrow hprincipal
  · intro external identity principal hcurrent
    obtain ⟨row, hrow, hprincipal⟩ := State.current_eq_ok hcurrent
    exact h.contained hrow hprincipal
  · intro identity row event s' hrow hremoves hperform later external
    have hgone := h.gone_of_removes hrow hremoves hperform
    exact (hgone.run (h.change (h.perform_cases hperform)) later).refused external

/-- A token of the local owner with one scope is read with that scope. -/
example : ((run Access.step .initial [.issue
    { kind := .token, label := "Local CLI", scopes := some ["files:read"] } ⟨7, 8, "csrf"⟩]).resolve
      (fun _ _ => false) 8 [.token]).map Principal.scopes = .ok ["files:read"] := by
  decide

end Ficc.Access
