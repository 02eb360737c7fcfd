import Ficc.Execution.Spec
import Ficc.Foundations.Table
import Ficc.Foundations.Transition

/-!
# Identities, projects and resources

Users, projects, the membership of a user in a project and the machines and folders assigned to a
project are four tables. Credentials refer to them and are a fifth: disabling a user or a project,
or emptying a membership, deletes the credentials that rest on it in the same transaction.

Besides the tables the state has two things that no operation reads. `issued` records what was
issued to each credential: the grants of the calls of `issue` on the way to it, over sign-in and
changes of the project. `drawn` records the random values so far. They are drawn from 128 bits and
more, and a value that was drawn before is refused here.
-/

namespace Ficc.Access

open Execution (Identity Digest)

abbrev Scope : Type := String

def LOCAL_OWNER : Identity := 1

def LOCAL_PROJECT : Identity := 2

def SCOPES : List Scope :=
  ["nodes:read", "nodes:write", "resources:read", "observations:read", "observations:resources",
    "tokens:manage", "identities:manage", "policies:manage", "audit:read", "jobs:read",
    "jobs:execute", "jobs:cancel", "jobs:logs", "federation:read", "federation:manage",
    "federation:invoke", "models:read", "models:manage", "inference:read", "inference:manage",
    "inference:invoke", "files:read", "files:write", "files:mode", "files:delete", "data:read",
    "data:export", "data:write", "data:manage", "terminals:read", "terminals:execute",
    "terminals:stop", "agents:read", "agents:execute", "agents:stop", "bus:read", "bus:send",
    "workspaces:read", "workspaces:write", "modules:read", "modules:manage", "modules:execute",
    "audio:playback", "vm:read", "vm:power", "vm:console", "providers:write", "container:read",
    "container:logs", "container:power", "admin:read", "admin:logs", "admin:services",
    "admin:power", "contributors:read", "contributors:manage"]

/-- The scopes that a membership can give. -/
def PROJECT_SCOPES : List Scope :=
  ["workspaces:read", "workspaces:write", "modules:read", "modules:execute", "audio:playback",
    "nodes:read", "resources:read", "observations:read", "observations:resources", "jobs:read",
    "jobs:execute", "jobs:cancel", "jobs:logs", "federation:read", "federation:manage",
    "federation:invoke", "models:read", "models:manage", "inference:read", "inference:manage",
    "inference:invoke", "files:read", "files:write", "files:delete", "files:mode", "data:read",
    "data:export", "data:write", "data:manage", "terminals:read", "terminals:execute",
    "terminals:stop", "vm:read", "vm:power", "vm:console", "container:read", "container:logs",
    "container:power", "admin:read", "admin:logs", "admin:services", "admin:power",
    "contributors:read", "contributors:manage"]

def MAX_NODES : ℕ := 64

/-! ### Records -/

/-- A user or a project. -/
structure Party where
  label : String
  disabled : Bool
  revision : ℕ
deriving DecidableEq

inductive PartyKind
  | user | project
deriving DecidableEq

structure Membership where
  scopes : List Scope
  revision : ℕ
deriving DecidableEq

structure Assignment where
  nodes : List Identity
  roots : List Identity
  revision : ℕ
deriving DecidableEq

inductive CredentialKind
  | bootstrap | session | token | remote
deriving DecidableEq

/-- A row of `credentials`. -/
structure Credential where
  digest : Digest
  kind : CredentialKind
  label : String
  scopes : List Scope
  nodes : Option (List Identity)
  expires : ℕ
  csrf : String
  roots : Option (List Identity)
  subjectId : Identity
  projectId : Identity
deriving DecidableEq

/-- What a call of `issue` gives to a credential. -/
structure Grant where
  scopes : List Scope
  nodes : Option (List Identity)
  roots : Option (List Identity)
deriving DecidableEq

/-- A principal, with the assignments of its project. -/
structure Principal where
  id : Identity
  label : String
  scopes : List Scope
  nodeIds : Option (List Identity)
  csrf : String
  kind : CredentialKind
  expiresAt : ℕ
  rootIds : Option (List Identity)
  subjectId : Identity
  projectId : Identity
  projectNodes : List Identity
  projectRoots : List Identity
deriving DecidableEq

/-- A sign-in that has consumed its bootstrap credential. -/
structure Login where
  initial : Principal
  issued : List Grant
deriving DecidableEq

structure State where
  users : Table Identity Party
  projects : Table Identity Party
  memberships : Table (Identity × Identity) Membership
  resources : Table Identity Assignment
  credentials : Table Identity Credential
  /-- The registered machines. -/
  endpoints : List Identity
  /-- The registered folders, with the machine of each that is not the controller's. -/
  fileRoots : Table Identity (Option Identity)
  now : ℕ
  logins : List Login
  issued : Table Identity (List Grant)
  drawn : List Identity × List Digest

/-- A new controller has the local owner and the local project. -/
def State.initial : State where
  users := AList.insert LOCAL_OWNER ⟨"Local owner", false, 0⟩ ∅
  projects := AList.insert LOCAL_PROJECT ⟨"Local project", false, 0⟩ ∅
  memberships := ∅
  resources := ∅
  credentials := ∅
  endpoints := []
  fileRoots := ∅
  now := 0
  logins := []
  issued := ∅
  drawn := ([], [])

namespace State

/-! ### Identities -/

/-- The characters that are blank for `str.isspace`. -/
def isSpace (char : Char) : Bool :=
  let code := char.toNat
  9 ≤ code ∧ code ≤ 13 ∨ 28 ≤ code ∧ code ≤ 32 ∨ 0x2000 ≤ code ∧ code ≤ 0x200A ∨
    code ∈ [0x85, 0xA0, 0x1680, 0x2028, 0x2029, 0x202F, 0x205F, 0x3000]

/-- `str.strip`. -/
def strip (value : String) : String :=
  .ofList ((value.toList.dropWhile isSpace).reverse.dropWhile isSpace).reverse

def notFound : Error := .failure "not_found" "The identity or project was not found." 404

def user (s : State) (identity : Identity) : Except Error Party :=
  orRaise (s.users.lookup identity) notFound

def project (s : State) (identity : Identity) : Except Error Party :=
  orRaise (s.projects.lookup identity) notFound

def labelCheck (label : String) : Except Error Unit :=
  raiseIf (strip label = "" ∨ 80 < label.length) (.failure "invalid_identity"
    "Select an identity type and a label of 1 to 80 characters." 400)

def capacityCheck (count : ℕ) : Except Error Unit :=
  raiseIf (256 ≤ count) (.failure "capacity" "The identity or project limit was reached." 409)

def create (s : State) (kind : PartyKind) (label : String) (drawn : Identity) :
    Except Error State := do
  labelCheck label
  let party : Party := ⟨strip label, false, 0⟩
  match kind with
  | .user =>
    capacityCheck s.users.entries.length
    raiseIf (s.users.lookup drawn ≠ none) .integrity
    return { s with users := s.users.insert drawn party }
  | .project =>
    capacityCheck s.projects.entries.length
    raiseIf (s.projects.lookup drawn ≠ none) .integrity
    return { s with projects := s.projects.insert drawn party }

/-- Deletes the credentials that satisfy a condition. -/
def deleteCredentials (s : State) (doomed : Credential → Prop) [DecidablePred doomed] : State :=
  { s with credentials := s.credentials.discard fun _ row => decide (doomed row) }

/-- Deletes the credentials of a user or a project that is disabled. -/
def deleteOf (s : State) (kind : PartyKind) (identity : Identity) : State :=
  match kind with
  | .user => s.deleteCredentials fun row => row.subjectId = identity
  | .project => s.deleteCredentials fun row => row.projectId = identity

/-- Writes a user or a project. -/
def putParty (s : State) (kind : PartyKind) (identity : Identity) (party : Party) : State :=
  match kind with
  | .user => { s with users := s.users.insert identity party }
  | .project => { s with projects := s.projects.insert identity party }

def party (s : State) : PartyKind → Identity → Except Error Party
  | .user => s.user
  | .project => s.project

def update (s : State) (kind : PartyKind) (identity : Identity) (label : String) (disabled : Bool)
    (revision : ℕ) : Except Error State := do
  labelCheck label
  raiseIf ((identity = LOCAL_OWNER ∨ identity = LOCAL_PROJECT) ∧ disabled = true)
    (.failure "recovery_required" "Keep the local recovery identity and project enabled." 409)
  let before ← s.party kind identity
  raiseIf (before.revision ≠ revision) (.failure "revision_conflict"
    "The saved value changed. Reload it before saving." 409)
  let s := s.putParty kind identity ⟨strip label, disabled, before.revision + 1⟩
  return if disabled then s.deleteOf kind identity else s

def membership (s : State) (project subject : Identity) (scopes : List Scope) (revision : ℕ) :
    Except Error State := do
  raiseIf (subject = LOCAL_OWNER) (.failure "recovery_required"
    "The local recovery identity has fixed owner access." 409)
  raiseIf (¬∀ scope ∈ scopes, scope ∈ PROJECT_SCOPES) (.failure "invalid_scope"
    "Select supported project permission scopes." 400)
  let _ ← s.project project
  let _ ← s.user subject
  let before := s.memberships.lookup (project, subject)
  raiseIf ((before.map Membership.revision).getD 0 ≠ revision) (.failure "revision_conflict"
    "The membership changed. Reload it before saving." 409)
  raiseIf (before = none ∧ 4096 ≤ s.memberships.entries.length) (.failure "capacity"
    "The membership limit was reached." 409)
  let s := { s with
    memberships := s.memberships.insert (project, subject) ⟨scopes.dedup, revision + 1⟩ }
  -- A revocation cannot be undone by removing and later restoring the membership.
  return if scopes = [] then
    s.deleteCredentials fun row => row.projectId = project ∧ row.subjectId = subject
  else s

/-- The scopes that a membership gives. There is no access without one. -/
def memberScopes (s : State) (project subject : Identity) : List Scope :=
  ((s.memberships.lookup (project, subject)).map Membership.scopes).getD []

def disabledCheck (user space : Party) : Except Error Unit :=
  raiseIf (user.disabled = true ∨ space.disabled = true) (.failure "unauthenticated"
    "The identity or project is disabled." 401)

def access (s : State) (subject project : Identity) : Except Error (List Scope) := do
  let user ← s.user subject
  let space ← s.project project
  disabledCheck user space
  if subject = LOCAL_OWNER then return SCOPES
  raiseIf (s.memberScopes project subject = []) (.failure "unauthenticated"
    "Project membership is required." 401)
  return (s.memberScopes project subject).filter (· ∈ PROJECT_SCOPES)

/-! ### Resources -/

def assignment (s : State) (project : Identity) : Assignment :=
  (s.resources.lookup project).getD ⟨[], [], 0⟩

/-- A folder can be assigned with the machine that it is on. -/
def rootCheck (s : State) (nodes : List Identity) (root : Identity) : Except Error Unit := do
  let node ← orRaise (s.fileRoots.lookup root)
    (.failure "invalid_resources" "The registered folder was not found." 400)
  raiseIf (node.any (fun node => decide (node ∉ nodes)) = true) (.failure "invalid_resources"
    "Assign the folder's machine to this project too." 400)

def endpointCheck (s : State) (node : Identity) : Except Error Unit :=
  raiseIf (node ∉ s.endpoints)
    (.failure "not_found" "The registered endpoint was not found." 404)

def assign (s : State) (project : Identity) (nodes roots : List Identity) (revision : ℕ) :
    Except Error State := do
  raiseIf (2 * MAX_NODES < nodes.length ∨ 64 < roots.length ∨ ¬nodes.Nodup ∨ ¬roots.Nodup ∨
      2 ^ 53 - 1 ≤ revision)
    (.failure "invalid_resources" "Select distinct registered machines and folders." 400)
  raiseIf (s.projects.lookup project = none)
    (.failure "not_found" "The project was not found." 404)
  raiseIf ((s.assignment project).revision ≠ revision) (.failure "revision_conflict"
    "Project resources changed. Reload them before saving." 409)
  nodes.forM s.endpointCheck
  roots.forM (s.rootCheck nodes)
  return { s with resources := s.resources.insert project ⟨nodes, roots, revision + 1⟩ }

inductive ResourceKind
  | nodes | roots
deriving DecidableEq

/-- An assignment without a machine or a folder. -/
def strike (kind : ResourceKind) (identity : Identity) (value : Assignment) : Assignment :=
  match kind with
  | .nodes =>
    if identity ∈ value.nodes then
      { value with nodes := value.nodes.filter (· ≠ identity), revision := value.revision + 1 }
    else value
  | .roots =>
    if identity ∈ value.roots then
      { value with roots := value.roots.filter (· ≠ identity), revision := value.revision + 1 }
    else value

/-- A machine or a folder that is removed is assigned to no project. -/
def removeResource (s : State) (kind : ResourceKind) (identity : Identity) : State :=
  let s := { s with resources := s.resources.mapRows (strike kind identity) }
  match kind with
  | .nodes => { s with endpoints := s.endpoints.filter (· ≠ identity) }
  | .roots => { s with fileRoots := s.fileRoots.erase identity }

end State

end Ficc.Access
