import Ficc.Policies.Store
import Ficc.Workloads.Schema

/-!
# Delegations

A workload runs long after the credential that submitted it has expired. `capture` keeps the
subject, the project and the scopes with the revisions of everything that the authority rests on,
and `current` makes a principal of them again as long as no revision has changed. The principal
reads datasets through the same checks as a credential: `Datasets.get` takes either.

The principal of a delegation is written out here as the source writes it. It has no machines and
no folders of the project, and no check of the policy. Its kind is `workload`, which no check
reads and which is not a kind of credentials; the model leaves `token` in its place.
-/

namespace Ficc.Workloads.Delegations

open Execution (Identity Digest)
open Access (Scope Principal ExternalCheck LOCAL_OWNER)
open Policies (Database Tools Binding)

variable {Archive : Type}

/-- A row of `file_roots`. -/
structure Root where
  /-- The machine of the folder, unless it is a folder of the controller. -/
  nodeId : Option Identity
  revision : Identity
  readOnly : Bool
deriving DecidableEq

/-- A file of a dataset. -/
structure Source where
  provider : Option String
  rootId : Identity
  rootRevision : Identity
  reference : String
  size : ℕ
deriving DecidableEq

/-- A manifest. `verify` refuses one without a file. -/
structure Dataset where
  projectId : Identity
  manifestDigest : Digest
  files : List Source
  files_ne : files ≠ []

/-- What the checks of a delegation and of a dataset read. -/
structure Site (Archive : Type) where
  database : Database Archive
  contributors : Table Identity Contributor
  roots : Table Identity Root
  datasets : Table Identity Dataset
  /-- The artifact provider of this controller. -/
  provider : String

/-- `policy_check` of a principal. -/
abbrev PolicyCheck : Type :=
  Principal → Scope → Option Identity → Option Identity → Except Error Unit

/-- Whoever reads: what its current principal is, and the policy check that it carries. -/
structure Actor where
  current : Except Error Principal
  policy : Option PolicyCheck

/-- `Principal.require`. -/
def require (policy : Option PolicyCheck) (principal : Principal) (scope : Scope)
    (node root : Option Identity) : Except Error Unit := do
  principal.requireHost scope node root
  match policy with
  | some check => check principal scope node root
  | none => .ok ()

/-! ### The authority of a delegation -/

/-- The revisions that a delegation keeps. -/
structure Stamp where
  subjectRevision : ℕ
  projectRevision : ℕ
  membershipRevision : ℕ
  policyRevision : ℕ
  roleRevision : ℕ
  policyDigest : Option Digest
  publisherRevision : ℕ
deriving DecidableEq

namespace Site

variable (tools : Tools Archive) (s : Site Archive)

/-- The revision of a row, 0 when there is none. -/
def membershipRevision (project subject : Identity) : ℕ :=
  (s.database.access.memberships.lookup (project, subject)).elim 0 Access.Membership.revision

def roleRevision (project subject : Identity) : ℕ :=
  (s.database.bindings.lookup (project, subject)).elim 0 Binding.revision

/-- The revision of the publisher of the active package, which has to be trusted. -/
def publisherRevision (active : Option Digest) : Except Error ℕ :=
  match active with
  | none => .ok 0
  | some digest => do
    let untrusted : Error := .failure "policy_publisher_untrusted"
      "The active policy publisher is not trusted." 403
    let raw ← orRaise (s.database.packages.lookup digest) untrusted
    let identity ← tools.inspect raw
    let publisher ← orRaise (s.database.publishers.lookup identity) untrusted
    raiseIf (publisher.enabled = false) untrusted
    return publisher.revision

def stamp (subject project : Identity) : Except Error (List Scope × Stamp) := do
  let scopes ← s.database.access.access subject project
  let user ← s.database.access.user subject
  let space ← s.database.access.project project
  let state ← s.database.state
  let publisherRevision ← s.publisherRevision tools state.active
  return (scopes, {
    subjectRevision := user.revision
    projectRevision := space.revision
    membershipRevision := s.membershipRevision project subject
    policyRevision := state.revision
    roleRevision := s.roleRevision project subject
    policyDigest := state.active
    publisherRevision := publisherRevision })

/-- `Authority.node`. -/
def node (project identity : Identity) : Except Error Contributor := do
  let value ← orRaise (s.contributors.lookup identity)
    (.failure "not_found" "The contributor was not found." 404)
  raiseIf (value.projectId ≠ project)
    (.failure "not_found" "The contributor was not found in this project." 404)
  raiseIf (value.disabled = true)
    (.failure "contributor_disabled" "The contributor is disabled." 403)
  return value

/-- A credential that reads for itself. -/
def credential (external : ExternalCheck) (policy : PolicyCheck) (identity : Identity) : Actor where
  current := s.database.access.current external identity
  policy := some policy

/-- `capture` by a credential for a request to some contributors, under a drawn identity. -/
def capture (external : ExternalCheck) (policy : PolicyCheck) (actor : Identity)
    (nodeIds : List Identity) (drawn : Identity) : Except Error Delegation := do
  let current ← s.database.access.current external actor
  require (some policy) current "jobs:execute" none none
  require (some policy) current "contributors:read" none none
  raiseIf (current.nodeIds ≠ none ∨ current.rootIds ≠ none) (.failure "denied"
    "Contributor submission requires an unrestricted credential within its project." 403)
  let (_, stamp) ← s.stamp tools current.subjectId current.projectId
  nodeIds.forM fun identity => do
    let _ ← s.node current.projectId identity
    .ok ()
  return {
    id := drawn
    subjectId := current.subjectId
    projectId := current.projectId
    credentialId := current.id
    scopes := current.scopes
    subjectRevision := stamp.subjectRevision
    projectRevision := stamp.projectRevision
    membershipRevision := stamp.membershipRevision
    policyRevision := stamp.policyRevision
    roleRevision := stamp.roleRevision
    policyDigest := stamp.policyDigest
    publisherRevision := stamp.publisherRevision }

/-- What a delegation has kept. -/
def kept (delegation : Delegation) : Stamp where
  subjectRevision := delegation.subjectRevision
  projectRevision := delegation.projectRevision
  membershipRevision := delegation.membershipRevision
  policyRevision := delegation.policyRevision
  roleRevision := delegation.roleRevision
  policyDigest := delegation.policyDigest
  publisherRevision := delegation.publisherRevision

/-- `Authority.current`. The bindings of others count the revision of the policy up, so it is not
compared. -/
def current (delegation : Delegation) : Except Error Principal := do
  let (scopes, stamp) ← s.stamp tools delegation.subjectId delegation.projectId
  raiseIf ({ kept delegation with policyRevision := stamp.policyRevision } ≠ stamp)
    (.failure "delegation_changed"
      "Project, identity, or policy authority changed after submission." 403)
  return {
    id := delegation.id
    label := "Workload delegation"
    scopes := delegation.scopes.filter (· ∈ scopes)
    nodeIds := none
    csrf := ""
    kind := .token
    expiresAt := 0
    rootIds := none
    subjectId := delegation.subjectId
    projectId := delegation.projectId
    projectNodes := []
    projectRoots := [] }

/-- A workload that reads under its delegation. -/
def delegate (delegation : Delegation) : Actor where
  current := s.current tools delegation
  policy := none

/-! ### Datasets -/

/-- `Files.check_principal`. -/
def checkPrincipal (policy : Option PolicyCheck) (principal : Principal) (scope : Scope)
    (rootId : Identity) (root : Root) : Except Error Unit := do
  require policy principal scope root.nodeId (some rootId)
  raiseIf (root.nodeId = none ∧ principal.nodeIds ≠ none)
    (.failure "denied" "This credential does not permit controller file access." 403)
  raiseIf (scope ≠ "files:read" ∧ root.readOnly = true)
    (.failure "read_only" "This root is read-only." 403)
  let current ← orRaise (s.roots.lookup rootId)
    (.failure "root_missing" "The registered root was not found." 404)
  raiseIf (current.revision ≠ root.revision)
    (.failure "root_changed" "The root registration changed." 409)

/-- `Artifacts.capability`: the actor may read the file. -/
def capability (actor : Actor) (source : Source) : Except Error Unit := do
  raiseIf (source.provider.getD s.provider ≠ s.provider) (.failure "artifact_provider_changed"
    "Select the original artifact provider to use this dataset." 409)
  let root ← orRaise (s.roots.lookup source.rootId)
    (.failure "root_missing" "The registered root was not found." 404)
  let current ← actor.current
  s.checkPrincipal actor.policy current "files:read" source.rootId root
  raiseIf (root.revision ≠ source.rootRevision)
    (.failure "source_changed" "The registered dataset source changed." 409)

/-- `Datasets.get`: the actor may read every file. -/
def get (actor : Actor) (identity : Identity) : Except Error Dataset := do
  let current ← actor.current
  let value ← orRaise (s.datasets.lookup identity)
    (.failure "not_found" "The dataset was not found." 404)
  raiseIf (value.projectId ≠ current.projectId)
    (.failure "not_found" "The operation was not found." 404)
  require actor.policy current "files:read" none none
  value.files.forM (s.capability actor)
  return value

/-- What is outside: the safety of a dataset, and the bytes of a range of a file. -/
structure Outside (Data : Type) where
  safety : Dataset → Except Error Unit
  fetch : Source → ℕ → ℕ → Except Error Data

variable {Data : Type}

/-- `Artifacts.read`. -/
def readSource (outside : Outside Data) (actor : Actor) (source : Source) (offset limit : ℕ) :
    Except Error Data := do
  raiseIf (¬(offset ≤ source.size ∧ 1 ≤ limit ∧ limit ≤ 262144))
    (.failure "invalid_offset" "Select a bounded range within the dataset file." 400)
  s.capability actor source
  outside.fetch source offset limit

/-- `Datasets.read`. -/
def read (outside : Outside Data) (actor : Actor) (identity : Identity) (index offset limit : ℕ) :
    Except Error Data := do
  let value ← s.get actor identity
  outside.safety value
  let source ← orRaise (value.files[index]?)
    (.failure "not_found" "The dataset file was not found." 404)
  let data ← s.readSource outside actor source offset limit
  let again ← s.get actor identity
  outside.safety again
  return data

/-! ### The check of a placement -/

/-- The parts of a job that its check reads. -/
structure Job where
  cancelled : Bool
  projectId : Identity
  nodeIds : List Identity
  dataset : Option (Identity × Digest)
  sensitive : Bool
  delegation : Delegation

/-- `Inputs.dataset`. -/
def dataset (outside : Outside Data) (job : Job) : Except Error (Option Dataset) :=
  match job.dataset with
  | none => .ok none
  | some (identity, manifestDigest) => do
    let value ← s.get (s.delegate tools job.delegation) identity
    raiseIf (value.manifestDigest ≠ manifestDigest) (.failure "dataset_changed"
      "The selected dataset manifest differs from the submission." 409)
    outside.safety value
    return some value

/-- `Authority.check`, up to the policy package, whose answer is an input. `sensitive` says whether
the safety of a dataset calls it sensitive. The lock of the store is held, so that everything that
is read again afterwards is the same. -/
def check (outside : Outside Data) (sensitive : Dataset → Bool)
    (decision : Principal → Contributor → Except Error Bool) (job : Job) (identity : Identity) :
    Except Error ℕ := do
  raiseIf (job.cancelled = true ∨ identity ∉ job.nodeIds) (.failure "workload_cancelled"
    "The workload delegation no longer permits execution." 403)
  let current ← s.current tools job.delegation
  current.requireHost "jobs:execute" none none
  current.requireHost "contributors:read" none none
  let value ← s.dataset tools outside job
  let contributor ← s.node job.projectId identity
  raiseIf ((job.sensitive || value.any sensitive) = true ∧ contributor.mode ≠ .managed)
    (.failure "sensitive_workload"
      "Sensitive workloads require an approved managed contributor." 403)
  let state ← s.database.state
  raiseIf (state.required = false) (.failure "policy_required"
    "Activate an approved policy package before contributor execution." 409)
  let allow ← decision current contributor
  raiseIf (allow = false)
    (.failure "policy_denied" "The active policy denies this workload." 403)
  return state.revision

end Site

/-! ### Changes -/

/-- What can change after a submission. -/
inductive Change (Archive : Type)
  /-- Identities, projects, memberships, assignments and credentials change, or time passes. -/
  | access (event : Access.Event)
  | bind (project subject : Identity) (roles : List Policies.Role) (expected : ℕ)
  | trust (identity : Identity) (key : Policies.Key) (enabled : Bool) (expected : ℕ)
  | install (raw : Archive)
  | activate (digest : Digest) (expected : ℕ)
  | contributor (identity : Identity) (value : Contributor)
  | register (identity : Identity) (root : Root)
  | unregister (identity : Identity)
  | dataset (identity : Identity) (value : Dataset)

/-- A transaction that raises changes nothing. -/
def transact (s : Site Archive) (result : Except Error (Database Archive)) : Site Archive :=
  match result with
  | .ok database => { s with database }
  | .error _ => s

def step (tools : Tools Archive) (s : Site Archive) : Change Archive → Site Archive
  | .access event =>
    { s with database := { s.database with access := Access.step s.database.access event } }
  | .bind project subject roles expected =>
    transact s (s.database.bind project subject roles expected)
  | .trust identity key enabled expected =>
    transact s (s.database.trust identity key enabled expected)
  | .install raw => transact s (s.database.install tools raw)
  | .activate digest expected => transact s (s.database.activate digest expected)
  | .contributor identity value => { s with contributors := s.contributors.insert identity value }
  | .register identity root =>
    { s with
      roots := s.roots.insert identity root
      database := { s.database with
        access := Access.step s.database.access (.registerRoot identity root.nodeId) } }
  | .unregister identity =>
    { s with
      roots := s.roots.erase identity
      database := { s.database with
        access := Access.step s.database.access (.removeResource .roots identity) } }
  | .dataset identity value => { s with datasets := s.datasets.insert identity value }

end Ficc.Workloads.Delegations
