import Ficc.Foundations.Table
import Ficc.Execution.Spec

/-!
# Contributor sessions

A contributor proves its certificate with every message, and keeps a connection by heartbeats. A
heartbeat without a session opens one, which replaces the one before it. A session holds as long
as its certificate is current, its deadline has not passed, and its certificate has been verified
within the lease.

The records of certificates are administered elsewhere. Here they are a table that may change in
any way between two steps.
-/

namespace Ficc.Contributors

open Execution

/-- The status of a certificate. -/
inductive CertificateStatus
  | pending | current | revoked
deriving DecidableEq

/-- A certificate with what its node and its project add to it. -/
structure Certificate where
  nodeId : Identity
  projectDisabled : Bool
  nodeDisabled : Bool
  status : CertificateStatus
  notBefore : ℚ
  expiresAt : ℚ
deriving DecidableEq

/-- The connection of a contributor, without its last sample. -/
structure Session where
  id : Identity
  fingerprint : Digest
  sequence : ℕ
  deadline : ℚ
  verifiedAt : ℚ
deriving DecidableEq

/-- The settings of the contributor gateway that the sessions depend on. -/
structure Settings where
  deploymentId : Identity
  leaseSeconds : ℚ
deriving DecidableEq

/-- The certificates, the sessions by their contributors, and the two clocks. -/
structure Sessions where
  certificates : Table Digest Certificate
  sessions : Table Identity Session
  wall : ℚ
  monotonic : ℚ

namespace Sessions

/-- The certificate with the fingerprint, which is authorized now. -/
def authenticate (s : Sessions) (fingerprint : Digest) : Except Error Certificate := do
  let certificate ← orRaise (s.certificates.lookup fingerprint)
    (.failure "not_found" "The contributor certificate was not found." 404)
  raiseIf (certificate.projectDisabled = true)
    (.failure "project_disabled" "This contributor project is disabled." 403)
  raiseIf (certificate.nodeDisabled = true ∨ certificate.status ≠ .current ∨
      ¬(certificate.notBefore ≤ s.wall ∧ s.wall < certificate.expiresAt))
    (.failure "node_unauthorized" "The contributor certificate is not currently authorized." 403)
  .ok certificate

/-- The session is the current one of the contributor and has not expired. -/
def connection (settings : Settings) (s : Sessions) (identity sessionId : Identity)
    (fingerprint : Digest) : Except Error Unit := do
  let error := Error.failure "node_lease_expired"
    "The contributor connection lease expired or was replaced." 403
  let current ← orRaise (s.sessions.lookup identity) error
  raiseIf (current.id ≠ sessionId ∨ current.fingerprint ≠ fingerprint ∨
    current.deadline ≤ s.monotonic ∨ settings.leaseSeconds < s.monotonic - current.verifiedAt) error

/-- The certificate is authorized and the session is the current one. -/
def guard (settings : Settings) (s : Sessions) (identity sessionId : Identity)
    (fingerprint : Digest) : Except Error Unit := do
  let _ ← s.authenticate fingerprint
  s.connection settings identity sessionId fingerprint

/-- The session that a message opens or continues. -/
def heartbeatSession (settings : Settings) (s : Sessions) (nodeId : Identity) (fingerprint : Digest)
    (sessionId : Option Identity) (sequence : ℕ) (fresh : Identity) : Except Error Session :=
  match sessionId with
  | none => do
    raiseIf (sequence ≠ 1)
      (.failure "invalid_sequence" "A new contributor channel starts at sequence one." 409)
    .ok ⟨fresh, fingerprint, 0, s.monotonic, s.monotonic⟩
  | some id => do
    s.connection settings nodeId id fingerprint
    orRaise (s.sessions.lookup nodeId)
      (.failure "node_lease_expired" "The contributor connection lease expired or was replaced."
        403)

/-- The sessions after a heartbeat, with the identity drawn for a new one. A new session is
entered before its sequence number is checked. -/
def heartbeat (settings : Settings) (s : Sessions) (fingerprint : Digest)
    (sessionId : Option Identity) (sequence : ℕ) (fresh : Identity) : Sessions :=
  match s.authenticate fingerprint with
  | .error _ => s
  | .ok certificate =>
    match s.heartbeatSession settings certificate.nodeId fingerprint sessionId sequence fresh with
    | .error _ => s
    | .ok current =>
      let keep (session : Session) : Sessions :=
        { s with sessions := s.sessions.insert certificate.nodeId session }
      if sequence = current.sequence then keep { current with verifiedAt := s.monotonic }
      else if sequence = current.sequence + 1 then
        keep { current with
          sequence, verifiedAt := s.monotonic
          deadline := s.monotonic + min settings.leaseSeconds (certificate.expiresAt - s.wall) }
      else keep current

/-- The contributor of the session still has its certificate. -/
def verified (s : Sessions) (identity : Identity) (session : Session) : Bool :=
  match s.authenticate session.fingerprint with
  | .ok certificate => certificate.nodeId = identity ∧ s.monotonic < session.deadline
  | .error _ => false

/-- The periodic check of the certificates of all sessions. -/
def poll (s : Sessions) : Sessions :=
  { s with
    sessions := s.sessions.rows.foldl (fun sessions row =>
      if s.verified row.1 row.2 then
        sessions.insert row.1 { row.2 with verifiedAt := s.monotonic }
      else sessions.erase row.1) s.sessions }

end Sessions

end Ficc.Contributors
