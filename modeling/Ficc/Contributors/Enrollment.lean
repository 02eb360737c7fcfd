import Ficc.Contributors.Sessions

/-!
# Contributor records

The invitations, enrollment requests and certificates of contributors, and the operations on them.
Every operation is one transaction: one that raises changes nothing.

An administrator invites a contributor, which claims the invitation with a certificate request.
The request is approved (`beginIssue`), the certificate authority is asked, and the certificate it
returns is registered (`issued`) or the request is marked (`failed`). The contributor then uses the
certificate for the first time (`activate`), which revokes the certificates before it.

The clock is read once in every operation, and what the operating system draws at random, the
certificate request parser and the certificate authority give an operation are its arguments.
-/

namespace Ficc.Contributors

open Execution

/-- How a contributor takes part. -/
inductive Mode
  | managed | voluntary
deriving DecidableEq

inductive RequestKind
  | enroll | rotate
deriving DecidableEq

inductive RequestStatus
  | awaitingApproval | issuing | failed | issued
deriving DecidableEq

/-- A row of `contributors`. -/
structure Contributor where
  id : Identity
  projectId : Identity
  name : String
  mode : Mode
  disabled : Bool
  revision : ℕ
  createdAt : ℚ
deriving DecidableEq

/-- A row of `contributor_invitations`, with the digest of its secret. -/
structure Invitation where
  id : Identity
  digest : Digest
  nodeId : Identity
  projectId : Identity
  name : String
  mode : Mode
  expiresAt : ℚ
  used : Bool
deriving DecidableEq

/-- A row of `contributor_requests`. -/
structure EnrollmentRequest where
  id : Identity
  nodeId : Identity
  csrPem : String
  publicKey : Digest
  kind : RequestKind
  baseFingerprint : Option Digest
  status : RequestStatus
  expiresAt : ℚ
  revision : ℕ
  certificateFingerprint : Option Digest
deriving DecidableEq

/-- What the certificate authority returned, after it was verified. -/
structure IssuedCertificate where
  fingerprint : Digest
  publicKey : Digest
  notBefore : ℚ
  expiresAt : ℚ
  certificateChain : String
deriving DecidableEq

/-- A row of `contributor_certificates`. -/
structure RegisteredCertificate extends IssuedCertificate where
  nodeId : Identity
  requestId : Identity
  status : CertificateStatus
deriving DecidableEq

/-- The configuration of the gateway, with the parser of certificate requests and the hash. -/
structure Gateway where
  invitationSeconds : ℚ
  maxNodes : ℕ
  /-- The key of a certificate request that is valid for the contributor. -/
  request : String → Identity → Option Digest
  sha256 : String → Digest

/-- An administrator, as far as the records ask. -/
structure Administrator where
  projectId : Identity
deriving DecidableEq

/-- The tables, with the projects and whether they are disabled. -/
structure Records where
  projects : Table Identity Bool
  contributors : Table Identity Contributor
  invitations : Table Identity Invitation
  requests : Table Identity EnrollmentRequest
  certificates : Table Digest RegisteredCertificate
deriving DecidableEq

/-- The digest of a secret. -/
def digest (gateway : Gateway) (secret : String) : Except Error Digest := do
  raiseIf (¬(43 ≤ secret.length ∧ secret.length ≤ 128) ∨
      secret.toList.any fun c => decide (128 ≤ c.toNat))
    (.failure "invalid_invitation" "The invitation or receipt is invalid." 403)
  .ok (gateway.sha256 secret)

/-- The row under a key. -/
def get {κ α : Type} [DecidableEq κ] (table : Table κ α) (key : κ) : Except Error α :=
  orRaise (table.lookup key) (.failure "not_found" "The contributor record was not found." 404)

/-- `INSERT` of a row whose key must be new. -/
def insertNew {κ α : Type} [DecidableEq κ] (table : Table κ α) (key : κ) (row : α) :
    Except Error (Table κ α) := do
  raiseIf ((table.lookup key).isSome) .integrity
  .ok (table.insert key row)

namespace Records

/-- The project is there and not disabled. -/
def project (s : Records) (projectId : Identity) : Except Error Unit := do
  let disabled ← orRaise (s.projects.lookup projectId)
    (.failure "not_found" "The identity or project was not found." 404)
  raiseIf (disabled = true)
    (.failure "project_disabled" "This contributor project is disabled." 403)

/-- Deletes what has expired. -/
def prune (s : Records) (now : ℚ) : Records :=
  { s with
    invitations := s.invitations.discard fun _ row => decide (row.expiresAt ≤ now)
    certificates := s.certificates.discard fun _ row => decide (row.expiresAt ≤ now)
    requests := s.requests.discard fun _ row => decide (row.expiresAt ≤ now) }

/-- Invites a contributor, with the secret and the identities that are drawn. -/
def invite (gateway : Gateway) (s : Records) (now : ℚ) (name : String) (mode : Mode)
    (actor : Administrator) (secret : String) (id nodeId : Identity) : Except Error Records := do
  s.project actor.projectId
  let s := s.prune now
  raiseIf (128 ≤ s.invitations.rows.length)
    (.failure "capacity" "The pending invitation limit was reached." 409)
  let token ← digest gateway secret
  raiseIf (s.invitations.values.any fun row => decide (row.digest = token)) .integrity
  let invitations ← insertNew s.invitations id
    { id, digest := token, nodeId, projectId := actor.projectId, name, mode
      expiresAt := now + gateway.invitationSeconds, used := false }
  .ok { s with invitations }

/-- The invitation that the secret opens. -/
def invitation (s : Records) (token : Digest) : Option Invitation :=
  s.invitations.values.find? fun row => decide (row.digest = token)

/-- A contributor claims an invitation with a certificate request. -/
def claim (gateway : Gateway) (s : Records) (now : ℚ) (secret csr : String)
    (nodeId requestId : Identity) : Except Error (Records × Invitation) := do
  let token ← digest gateway secret
  let s := s.prune now
  raiseIf (512 ≤ s.requests.rows.length)
    (.failure "capacity" "Wait for retained enrollment requests to expire." 409)
  let error := Error.failure "invalid_invitation"
    "The invitation expired or was already used." 403
  let value ← orRaise (s.invitation token) error
  raiseIf (value.used = true ∨ value.expiresAt ≤ now ∨ value.nodeId ≠ nodeId) error
  s.project value.projectId
  raiseIf (gateway.maxNodes ≤ s.contributors.rows.length)
    (.failure "capacity" "The contributor limit was reached." 409)
  let publicKey ← orRaise (gateway.request csr nodeId) (.value "certificate request")
  let contributors ← insertNew s.contributors nodeId
    { id := nodeId, projectId := value.projectId, name := value.name, mode := value.mode
      disabled := false, revision := 1, createdAt := now }
  let requests ← insertNew s.requests requestId
    { id := requestId, nodeId, csrPem := csr, publicKey, kind := .enroll, baseFingerprint := none
      status := .awaitingApproval, expiresAt := value.expiresAt, revision := 1
      certificateFingerprint := none }
  let invitations := s.invitations.insert value.id { value with used := true }
  .ok ({ s with contributors, requests, invitations }, value)

/-- The contributor and its certificate with the fingerprint, which is authorized now. With
`pending`, a certificate that has not been used yet is authorized too. -/
def authenticate (s : Records) (now : ℚ) (fingerprint : Digest) (pending : Bool) :
    Except Error (Contributor × RegisteredCertificate) := do
  let error := Error.failure "not_found" "The contributor certificate was not found." 404
  let cert ← orRaise (s.certificates.lookup fingerprint) error
  let node ← orRaise (s.contributors.lookup cert.nodeId) error
  let disabled ← orRaise (s.projects.lookup node.projectId) error
  raiseIf (disabled = true)
    (.failure "project_disabled" "This contributor project is disabled." 403)
  raiseIf (node.disabled = true ∨
      ¬(cert.status = .current ∨ pending = true ∧ cert.status = .pending) ∨
      ¬(cert.notBefore ≤ now ∧ now < cert.expiresAt))
    (.failure "node_unauthorized" "The contributor certificate is not currently authorized." 403)
  .ok (node, cert)

/-- The certificate that a rotation starts from is still authorized. -/
def requireBase (s : Records) (now : ℚ) (pending : EnrollmentRequest) : Except Error Unit :=
  match pending.kind, pending.baseFingerprint with
  | .enroll, _ => .ok ()
  | .rotate, some fingerprint => do
    let _ ← s.authenticate now fingerprint false
    .ok ()
  | .rotate, none => .error
    (.failure "not_found" "The contributor certificate was not found." 404)

/-- The request is approved. A rotation is approved without an administrator. -/
def beginIssue (s : Records) (now : ℚ) (identity : Identity) (expected : Digest) (revision : ℕ)
    (actor : Option Administrator) : Except Error (Records × EnrollmentRequest) := do
  let pending ← get s.requests identity
  let node ← get s.contributors pending.nodeId
  s.project node.projectId
  raiseIf (actor.any fun actor => decide (node.projectId ≠ actor.projectId))
    (.failure "not_found" "The contributor request was not found." 404)
  raiseIf (node.disabled = true ∨ pending.expiresAt ≤ now ∨ pending.revision ≠ revision ∨
      pending.publicKey ≠ expected ∨ pending.status = .issued)
    (.failure "request_changed" "Reload the current request and confirm its public key." 409)
  s.requireBase now pending
  let pending := { pending with status := .issuing, revision := pending.revision + 1 }
  .ok ({ s with requests := s.requests.insert pending.id pending }, pending)

/-- The certificate for a request is registered. -/
def issued (s : Records) (now : ℚ) (pending : EnrollmentRequest) (cert : IssuedCertificate) :
    Except Error Records := do
  let current ← get s.requests pending.id
  let node ← get s.contributors pending.nodeId
  s.project node.projectId
  raiseIf (current ≠ pending ∨ node.disabled = true ∨ pending.expiresAt ≤ now)
    (.failure "request_changed" "The contributor request no longer permits issuance." 409)
  s.requireBase now pending
  let s := s.prune now
  raiseIf (256 ≤ s.certificates.rows.length)
    (.failure "capacity" "Wait for retained certificates to expire." 409)
  let certificates ← insertNew s.certificates cert.fingerprint
    { cert with nodeId := node.id, requestId := pending.id, status := .pending }
  let current := { current with
    status := .issued, certificateFingerprint := some cert.fingerprint
    revision := current.revision + 1 }
  .ok { s with certificates, requests := s.requests.insert current.id current }

/-- The issuance for a request has failed, if the request is still as it was. -/
def failed (s : Records) (pending : EnrollmentRequest) : Records :=
  match s.requests.lookup pending.id with
  | none => s
  | some current =>
    if current = pending then
      { s with
        requests := s.requests.insert current.id
          { current with status := .failed, revision := current.revision + 1 } }
    else s

/-- Revokes the certificates of a contributor, except one. -/
def revokeOthers (certificates : Table Digest RegisteredCertificate) (nodeId : Identity)
    (except : Option Digest) : Table Digest RegisteredCertificate :=
  certificates.mapRows fun item =>
    if item.nodeId = nodeId ∧ item.status ≠ .revoked ∧ some item.fingerprint ≠ except then
      { item with status := .revoked }
    else item

/-- A contributor uses a certificate for the first time. -/
def activate (s : Records) (now : ℚ) (fingerprint : Digest) : Except Error Records := do
  let (node, cert) ← s.authenticate now fingerprint true
  if cert.status = .current then .ok s else do
    let request ← get s.requests cert.requestId
    raiseIf (request.expiresAt ≤ now ∨ request.status ≠ .issued)
      (.failure "enrollment_expired" "The certificate activation window expired." 403)
    s.requireBase now request
    let certificates := revokeOthers s.certificates node.id (some fingerprint)
    .ok { s with
      certificates := certificates.insert cert.fingerprint { cert with status := .current }
      contributors := s.contributors.insert node.id { node with revision := node.revision + 1 } }

/-- The search of `rotation` among the requests: the same request, or a reason to refuse. -/
def previousRotation (s : Records) (node : Contributor) (fingerprint : Digest)
    (identity : Identity) (csr : String) :
    List EnrollmentRequest → Except Error (Option EnrollmentRequest)
  | [] => .ok none
  | previous :: rest =>
    if previous.id = identity then do
      raiseIf (¬(previous.nodeId = node.id ∧ previous.csrPem = csr ∧
          previous.baseFingerprint = some fingerprint))
        (.failure "request_conflict" "The rotation request identifier was already used." 409)
      .ok (some previous)
    else if previous.nodeId = node.id ∧ previous.kind = .rotate ∧ previous.status ≠ .failed then
      let refusal := Error.failure "rotation_pending"
        "Complete or let the pending rotation expire." 409
      match previous.certificateFingerprint with
      | none => .error refusal
      | some certId => do
        let cert ← get s.certificates certId
        raiseIf (cert.status = .pending) refusal
        s.previousRotation node fingerprint identity csr rest
    else s.previousRotation node fingerprint identity csr rest

/-- A contributor asks for a certificate with another key. -/
def rotation (gateway : Gateway) (s : Records) (now : ℚ) (fingerprint : Digest)
    (identity : Identity) (csr : String) : Except Error Records := do
  let (node, current) ← s.authenticate now fingerprint false
  let publicKey ← orRaise (gateway.request csr node.id) (.value "certificate request")
  raiseIf (publicKey = current.publicKey)
    (.failure "key_rotation_required" "Generate a new node key before rotation." 409)
  let s := s.prune now
  raiseIf (512 ≤ s.requests.rows.length)
    (.failure "capacity" "Wait for retained rotation requests to expire." 409)
  match ← s.previousRotation node fingerprint identity csr s.requests.values with
  | some _ => .ok s
  | none => do
    let requests ← insertNew s.requests identity
      { id := identity, nodeId := node.id, csrPem := csr, publicKey, kind := .rotate
        baseFingerprint := some fingerprint, status := .awaitingApproval
        expiresAt := min current.expiresAt (now + gateway.invitationSeconds), revision := 1
        certificateFingerprint := none }
    .ok { s with requests }

/-- Disables a contributor and revokes its certificates. -/
def disable (s : Records) (identity : Identity) (revision : ℕ) (actor : Administrator) :
    Except Error Records := do
  let node ← get s.contributors identity
  raiseIf (node.projectId ≠ actor.projectId)
    (.failure "not_found" "The contributor was not found." 404)
  raiseIf (node.revision ≠ revision)
    (.failure "revision_conflict" "The contributor changed. Reload it before revocation." 409)
  .ok { s with
    contributors := s.contributors.insert node.id
      { node with disabled := true, revision := revision + 1 }
    certificates := revokeOthers s.certificates identity none }

/-- Removes a disabled contributor, unless `retained` workloads name it. -/
def remove (s : Records) (identity : Identity) (revision : ℕ) (actor : Administrator)
    (retained : Bool) : Except Error Records := do
  let node ← get s.contributors identity
  raiseIf (node.projectId ≠ actor.projectId)
    (.failure "not_found" "The contributor was not found." 404)
  raiseIf (node.revision ≠ revision ∨ node.disabled = false)
    (.failure "revision_conflict" "Revoke the contributor and reload it before removal." 409)
  raiseIf (retained = true)
    (.failure "workload_retained"
      "Resolve and remove retained workloads before removing this contributor." 409)
  .ok { s with
    requests := s.requests.discard fun _ row => decide (row.nodeId = identity)
    certificates := s.certificates.discard fun _ row => decide (row.nodeId = identity)
    invitations := s.invitations.discard fun _ row => decide (row.nodeId = identity)
    contributors := s.contributors.erase identity }

end Records

end Ficc.Contributors
