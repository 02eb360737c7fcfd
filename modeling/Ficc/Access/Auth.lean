import Ficc.Access.Store

/-!
# Credentials

A credential is a random secret, of which the digest is kept. `resolve` looks it up by the secret
and `current` by its id; both read what the identity, the membership and the assignments are at that
time. A browser session is rotated when it changes its project: the row that follows it keeps the
scopes, machines and folders, and the old row is deleted.

The secret is known by its digest here: `resolve` and the operations that draw a secret are given
the digest. A credential of an external sign-in is checked by the identity provider, which is an
input of the operations that read it.
-/

namespace Ficc.Access

open Execution (Identity Digest)

/-! ### Principals -/

/-- A list of machines or folders allows one of them. Without a list all are allowed. -/
def allows (limit : Option (List Identity)) (identity : Identity) : Prop :=
  ∀ listed, limit = some listed → identity ∈ listed

instance (limit : Option (List Identity)) (identity : Identity) :
    Decidable (allows limit identity) :=
  match limit with
  | none => .isTrue (by simp [allows])
  | some listed => decidable_of_iff (identity ∈ listed) (by simp [allows])

namespace Principal

def localOwner (principal : Principal) : Prop := principal.subjectId = LOCAL_OWNER

instance (principal : Principal) : Decidable principal.localOwner :=
  inferInstanceAs (Decidable (_ = _))

def permitsNode (principal : Principal) (node : Identity) : Prop :=
  allows principal.nodeIds node ∧ (principal.localOwner ∨ node ∈ principal.projectNodes)

instance (principal : Principal) (node : Identity) : Decidable (principal.permitsNode node) :=
  inferInstanceAs (Decidable (_ ∧ _))

/-- The folder is not permitted. Without a machine, a credential with a list of machines has no
folder. -/
def deniesRoot (principal : Principal) (node : Option Identity) (root : Identity) : Prop :=
  ¬allows principal.rootIds root ∨ (node = none ∧ principal.nodeIds ≠ none) ∨
    (¬principal.localOwner ∧ root ∉ principal.projectRoots)

instance (principal : Principal) (node : Option Identity) (root : Identity) :
    Decidable (principal.deniesRoot node root) := inferInstanceAs (Decidable (_ ∨ _))

def requireHost (principal : Principal) (scope : Scope) (node root : Option Identity) :
    Except Error Unit :=
  raiseIf (scope ∉ principal.scopes ∨
      node.any (fun node => decide (¬principal.permitsNode node)) = true ∨
      root.any (fun root => decide (principal.deniesRoot node root)) = true)
    (.failure "denied" "This credential does not permit the action." 403)

end Principal

/-! ### Reading credentials -/

/-- What the identity provider says about a credential of a user. -/
abbrev ExternalCheck : Type := Identity → Identity → Bool

def signIn : Error := .failure "unauthenticated" "Sign in to continue." 401

namespace State

/-- The principal of a row, with the present identity, membership and assignments. -/
def principal (s : State) (external : ExternalCheck) (identity : Identity) (row : Credential) :
    Except Error Principal := do
  raiseIf (row.kind = .remote ∧ external identity row.subjectId = false)
    (.failure "unauthenticated" "External sign-in is unavailable." 401)
  -- The row is joined with its user and its project.
  let user ← orRaise (s.users.lookup row.subjectId) signIn
  let space ← orRaise (s.projects.lookup row.projectId) signIn
  disabledCheck user space
  raiseIf (row.subjectId ≠ LOCAL_OWNER ∧ s.memberScopes row.projectId row.subjectId = [])
    (.failure "unauthenticated" "Project membership is required." 401)
  let permitted := if row.subjectId = LOCAL_OWNER then SCOPES
    else (s.memberScopes row.projectId row.subjectId).filter (· ∈ PROJECT_SCOPES)
  return {
    id := identity
    label := row.label
    scopes := row.scopes.filter (· ∈ permitted)
    nodeIds := row.nodes
    csrf := row.csrf
    kind := row.kind
    expiresAt := row.expires
    rootIds := row.roots
    subjectId := row.subjectId
    projectId := row.projectId
    projectNodes := (s.assignment row.projectId).nodes
    projectRoots := (s.assignment row.projectId).roots }

/-- The row with a digest. -/
def byDigest (s : State) (digest : Digest) : Option (Identity × Credential) :=
  s.credentials.rows.find? fun row => decide (row.2.digest = digest)

/-- A caller that takes sessions takes those of an external sign-in too. -/
def accepted (kinds : List CredentialKind) : List CredentialKind :=
  if .session ∈ kinds then kinds ++ [.remote] else kinds

def resolve (s : State) (external : ExternalCheck) (digest : Digest)
    (kinds : List CredentialKind) : Except Error Principal := do
  let row ← orRaise (s.byDigest digest) signIn
  raiseIf (row.2.kind ∉ accepted kinds ∨ row.2.expires ≤ s.now) signIn
  s.principal external row.1 row.2

def current (s : State) (external : ExternalCheck) (identity : Identity) :
    Except Error Principal := do
  let row ← orRaise (s.credentials.lookup identity) signIn
  raiseIf (row.kind = .bootstrap ∨ row.expires ≤ s.now) signIn
  s.principal external identity row

/-! ### Writing credentials -/

/-- The random values of a new credential. -/
structure Draw where
  id : Identity
  digest : Digest
  csrf : String
deriving DecidableEq

/-- Inserts a row under random values that were not drawn before, and records what was issued. -/
def insertCredential (s : State) (draw : Draw) (row : Credential) (issued : List Grant) :
    Except Error State := do
  raiseIf (draw.id ∈ s.drawn.1 ∨ draw.digest ∈ s.drawn.2) .integrity
  return { s with
    credentials := s.credentials.insert draw.id { row with digest := draw.digest, csrf := draw.csrf }
    issued := s.issued.insert draw.id issued
    drawn := (draw.id :: s.drawn.1, draw.digest :: s.drawn.2) }

/-- The arguments of `issue`. -/
structure Issue where
  kind : CredentialKind
  label : String := "Local owner"
  scopes : Option (List Scope) := none
  nodeIds : Option (List Identity) := none
  lifetime : ℕ := 3600
  rootIds : Option (List Identity) := none
  subjectId : Identity := LOCAL_OWNER
  projectId : Identity := LOCAL_PROJECT
deriving DecidableEq

def nodesCheck (s : State) (nodes : List Identity) : Except Error Unit := do
  raiseIf (MAX_NODES < nodes.length)
    (.failure "invalid_nodes" "The machine selection is invalid." 400)
  nodes.forM s.endpointCheck

def rootsCheck (s : State) (roots : List Identity) : Except Error Unit := do
  raiseIf (64 < roots.length) (.failure "invalid_roots" "The folder selection is invalid." 400)
  raiseIf (¬∀ root ∈ roots, s.fileRoots.lookup root ≠ none)
    (.failure "invalid_roots" "The registered folder was not found." 400)

/-- Issues a credential. The grants on the way to it are those of the sign-in it comes from. -/
def issue (s : State) (arguments : Issue) (draw : Draw) (from_ : List Grant) :
    Except Error State := do
  let permitted ← s.access arguments.subjectId arguments.projectId
  let user ← s.user arguments.subjectId
  let label := if arguments.label = "Local owner" ∧ arguments.subjectId ≠ LOCAL_OWNER then
    user.label else arguments.label
  let scopes := (arguments.scopes.getD permitted).dedup
  raiseIf (¬∀ scope ∈ scopes, scope ∈ permitted) (.failure "denied"
    "The credential exceeds the identity's project access." 403)
  raiseIf (arguments.kind = .remote ∧ arguments.subjectId = LOCAL_OWNER) (.failure "denied"
    "External identities cannot use the local recovery owner." 403)
  raiseIf (scopes = [] ∨ ¬∀ scope ∈ scopes, scope ∈ SCOPES)
    (.failure "invalid_scope" "Select supported permission scopes." 400)
  raiseIf (¬(1 ≤ arguments.lifetime ∧ arguments.lifetime ≤ 2592000) ∨
      ¬(1 ≤ label.length ∧ label.length ≤ 80))
    (.failure "invalid_credential" "Credential label or lifetime is invalid." 400)
  arguments.nodeIds.toList.forM s.nodesCheck
  arguments.rootIds.toList.forM s.rootsCheck
  let s := s.deleteCredentials fun row => row.expires < s.now
  raiseIf (512 ≤ s.credentials.entries.length)
    (.failure "capacity" "The credential limit was reached." 409)
  let row : Credential := {
    digest := draw.digest
    kind := arguments.kind
    label := label
    scopes := scopes
    nodes := arguments.nodeIds
    expires := s.now + arguments.lifetime
    csrf := draw.csrf
    roots := arguments.rootIds
    subjectId := arguments.subjectId
    projectId := arguments.projectId }
  s.insertCredential draw row (⟨scopes, arguments.nodeIds, arguments.rootIds⟩ :: from_)

/-- The first half of a sign-in consumes the bootstrap credential. -/
def consume (s : State) (external : ExternalCheck) (digest : Digest) : Except Error State := do
  let initial ← s.resolve external digest [.bootstrap]
  let login : Login := ⟨initial, (s.issued.lookup initial.id).getD []⟩
  return { s with
    credentials := s.credentials.erase initial.id
    logins := login :: s.logins }

/-- The second half issues a session with what the bootstrap credential has. A sign-in whose second
half raises is over in the source; that it can be tried again here only adds runs. -/
def login (s : State) (pending : Login) (draw : Draw) : Except Error State := do
  raiseIf (pending ∉ s.logins) signIn
  let s := { s with logins := s.logins.erase pending }
  s.issue {
    kind := .session
    label := pending.initial.label
    scopes := some pending.initial.scopes
    nodeIds := pending.initial.nodeIds
    lifetime := 28800
    rootIds := pending.initial.rootIds
    subjectId := pending.initial.subjectId
    projectId := pending.initial.projectId } draw pending.issued

def revoke (s : State) (identity : Identity) : State :=
  { s with credentials := s.credentials.erase identity }

/-- Rotates a session within the projects of its user. An external session has no scopes of its own
and gets those of the membership. -/
def switchProject (s : State) (external : ExternalCheck) (identity project : Identity)
    (draw : Draw) : Except Error State := do
  let current ← s.current external identity
  raiseIf (current.kind ≠ .session ∧ current.kind ≠ .remote) (.failure "denied"
    "Only a browser session can change its selected project." 403)
  let permitted ← (s.access current.subjectId project).mapError fun _ =>
    .failure "denied" "The selected project is unavailable to this identity." 403
  let row ← orRaise (s.credentials.lookup identity) signIn
  let scopes := if current.kind = .remote then permitted else row.scopes
  let next : Credential := { row with
    digest := draw.digest
    scopes := scopes
    csrf := draw.csrf
    projectId := project }
  let s ← s.insertCredential draw next ((s.issued.lookup identity).getD [])
  let s := s.revoke identity
  let _ ← s.current external draw.id
  return s

end State

/-! ### Runs -/

inductive Event
  | tick (seconds : ℕ)
  | create (kind : PartyKind) (label : String) (drawn : Identity)
  | update (kind : PartyKind) (identity : Identity) (label : String) (disabled : Bool)
    (revision : ℕ)
  | membership (project subject : Identity) (scopes : List Scope) (revision : ℕ)
  | assign (project : Identity) (nodes roots : List Identity) (revision : ℕ)
  | registerNode (node : Identity)
  | registerRoot (root : Identity) (node : Option Identity)
  | removeResource (kind : State.ResourceKind) (identity : Identity)
  | issue (arguments : State.Issue) (draw : State.Draw)
  | consume (external : ExternalCheck) (digest : Digest)
  | login (pending : Login) (draw : State.Draw)
  | revoke (identity : Identity)
  | switchProject (external : ExternalCheck) (identity project : Identity) (draw : State.Draw)
  /-- The controller starts with external sign-in and retires the sessions of the last start. -/
  | retireRemote

def perform (s : State) : Event → Except Error State
  | .tick seconds => .ok { s with now := s.now + seconds }
  | .create kind label drawn => s.create kind label drawn
  | .update kind identity label disabled revision => s.update kind identity label disabled revision
  | .membership project subject scopes revision => s.membership project subject scopes revision
  | .assign project nodes roots revision => s.assign project nodes roots revision
  | .registerNode node => .ok { s with endpoints := node :: s.endpoints }
  | .registerRoot root node => .ok { s with fileRoots := s.fileRoots.insert root node }
  | .removeResource kind identity => .ok (s.removeResource kind identity)
  | .issue arguments draw => s.issue arguments draw []
  | .consume external digest => s.consume external digest
  | .login pending draw => s.login pending draw
  | .revoke identity => .ok (s.revoke identity)
  | .switchProject external identity project draw => s.switchProject external identity project draw
  | .retireRemote => .ok (s.deleteCredentials fun row => row.kind = .remote)

/-- An event that raises changes nothing. -/
def step (s : State) (event : Event) : State :=
  match perform s event with
  | .ok s' => s'
  | .error _ => s

end Ficc.Access
