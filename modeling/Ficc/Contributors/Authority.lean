import Ficc.Contributors.Enrollment
import Ficc.Foundations.Transition

/-!
# The certificate authority of the contributors

Every operation on the contributor records as a step, and what a step can change (`Change`). From
this follow the three invariants

* `Keyed`: every row is under the key that it names;
* `Enrolled`: an invitation is used at most once, and every contributor comes from one;
* `Certified`: a contributor has at most one current certificate, and none that is not revoked
  when it is disabled;

and two facts that no later step ends: a contributor that was disabled or removed stays so
(`Barred`), and so does a fingerprint that was revoked (`Void`).

Identities are drawn from 128 random bits and are assumed to be new.
-/

namespace Ficc.Contributors

open Execution

/-- The records with their past. No operation reads the last three fields. -/
structure Authority where
  records : Records
  /-- The identities that have been drawn at random. -/
  drawn : Finset Identity
  /-- The invitations that were claimed, with the contributors that were created. -/
  claimed : List (Identity × Identity)
  /-- The fingerprints of all certificates that were ever registered. -/
  registered : Finset Digest

namespace Authority

/-- An authority without records. -/
def initial : Authority :=
  { records := ⟨∅, ∅, ∅, ∅, ∅⟩, drawn := ∅, claimed := [], registered := ∅ }

/-- A step of the authority. `now` is what the clock shows. -/
inductive Step
  /-- The projects change. -/
  | projects (projects : Table Identity Bool)
  | invite (now : ℚ) (name : String) (mode : Mode) (actor : Administrator) (secret : String)
    (id nodeId : Identity)
  | claim (now : ℚ) (secret csr : String) (nodeId requestId : Identity)
  | beginIssue (now : ℚ) (identity : Identity) (expected : Digest) (revision : ℕ)
    (actor : Option Administrator)
  | issued (now : ℚ) (pending : EnrollmentRequest) (cert : IssuedCertificate)
  | failed (pending : EnrollmentRequest)
  | activate (now : ℚ) (fingerprint : Digest)
  | rotation (now : ℚ) (fingerprint : Digest) (identity : Identity) (csr : String)
  | disable (identity : Identity) (revision : ℕ) (actor : Administrator)
  | remove (identity : Identity) (revision : ℕ) (actor : Administrator) (retained : Bool)
  | prune (now : ℚ)

/-- The records after an operation, or the old ones when it raised. -/
def keep (s : Authority) (result : Except Error Records) : Authority :=
  match result with
  | .ok records => { s with records }
  | .error _ => s

variable (gateway : Gateway)

/-- What a step does. A refused step changes nothing. -/
def step (s : Authority) : Step → Authority
  | .projects projects => { s with records := { s.records with projects } }
  | .invite now name mode actor secret id nodeId =>
    if id ∈ s.drawn ∨ nodeId ∈ s.drawn then s else
      match s.records.invite gateway now name mode actor secret id nodeId with
      | .error _ => s
      | .ok records => { s with records, drawn := insert id (insert nodeId s.drawn) }
  | .claim now secret csr nodeId requestId =>
    match s.records.claim gateway now secret csr nodeId requestId with
    | .error _ => s
    | .ok (records, invitation) =>
      { s with records, claimed := (invitation.id, nodeId) :: s.claimed }
  | .beginIssue now identity expected revision actor =>
    s.keep ((s.records.beginIssue now identity expected revision actor).map Prod.fst)
  | .issued now pending cert =>
    match s.records.issued now pending cert with
    | .error _ => s
    | .ok records => { s with records, registered := insert cert.fingerprint s.registered }
  | .failed pending => { s with records := s.records.failed pending }
  | .activate now fingerprint => s.keep (s.records.activate now fingerprint)
  | .rotation now fingerprint identity csr =>
    s.keep (s.records.rotation gateway now fingerprint identity csr)
  | .disable identity revision actor => s.keep (s.records.disable identity revision actor)
  | .remove identity revision actor retained =>
    s.keep (s.records.remove identity revision actor retained)
  | .prune now => { s with records := s.records.prune now }

/-- The certificate that is to be registered has not been registered before. An authority gives
every certificate a serial number of its own. -/
def Unrepeated (s : Authority) : Step → Prop
  | .issued _ _ cert => cert.fingerprint ∉ s.registered
  | _ => True

instance (s : Authority) : DecidablePred (Unrepeated s)
  | .issued _ _ cert => inferInstanceAs (Decidable (cert.fingerprint ∉ s.registered))
  | .projects .. | .invite .. | .claim .. | .beginIssue .. | .failed .. | .activate ..
  | .rotation .. | .disable .. | .remove .. | .prune .. => .isTrue trivial

section Changes

/-- Invitations and certificates may have been deleted. Requests and projects do not matter. -/
structure Shrinks (s s' : Records) : Prop where
  contributors : s'.contributors = s.contributors
  invitations : ∀ {id row}, s'.invitations.lookup id = some row →
    s.invitations.lookup id = some row
  certificates : ∀ {fingerprint cert}, s'.certificates.lookup fingerprint = some cert →
    s.certificates.lookup fingerprint = some cert

theorem Shrinks.refl (s : Records) : Shrinks s s := ⟨rfl, id, id⟩

theorem shrinks_prune (s : Records) (now : ℚ) : Shrinks s (s.prune now) := by
  refine ⟨rfl, fun h => ?_, fun h => ?_⟩
  · rw [Records.prune, Table.lookup_discard, Option.filter_eq_some_iff] at h
    exact h.1
  · rw [Records.prune, Table.lookup_discard, Option.filter_eq_some_iff] at h
    exact h.1

/-- What a step can do. -/
inductive Change (s : Authority) : Authority → Prop
  | quiet {records : Records} (hshrinks : Shrinks s.records records) :
    Change s { s with records }
  | invite {middle : Records} (row : Invitation) (hshrinks : Shrinks s.records middle)
    (hid : row.id ∉ s.drawn) (hnode : row.nodeId ∉ s.drawn) (hunused : row.used = false) :
    Change s { s with
      records := { middle with invitations := middle.invitations.insert row.id row }
      drawn := insert row.id (insert row.nodeId s.drawn) }
  | claim {middle : Records} {requests : Table Identity EnrollmentRequest} {id : Identity}
    {row : Invitation} {node : Contributor} (hshrinks : Shrinks s.records middle)
    (hrow : middle.invitations.lookup id = some row) (hunused : row.used = false)
    (hnew : middle.contributors.lookup row.nodeId = none) (hnode : node.id = row.nodeId)
    (henabled : node.disabled = false) :
    Change s { s with
      records := { middle with
        contributors := middle.contributors.insert row.nodeId node, requests
        invitations := middle.invitations.insert row.id { row with used := true } }
      claimed := (row.id, row.nodeId) :: s.claimed }
  | issue {middle : Records} {requests : Table Identity EnrollmentRequest} {id : Identity}
    {node : Contributor} (cert : RegisteredCertificate) (hshrinks : Shrinks s.records middle)
    (hnode : s.records.contributors.lookup id = some node) (henabled : node.disabled = false)
    (hcert : cert.nodeId = node.id) (hpending : cert.status = .pending)
    (hnew : cert.fingerprint ∉ s.registered) :
    Change s { s with
      records := { middle with
        certificates := middle.certificates.insert cert.fingerprint cert, requests }
      registered := insert cert.fingerprint s.registered }
  | activate {fingerprint : Digest} {node : Contributor} {cert : RegisteredCertificate}
    (hcert : s.records.certificates.lookup fingerprint = some cert)
    (hnode : s.records.contributors.lookup cert.nodeId = some node)
    (henabled : node.disabled = false) (hpending : cert.status = .pending) (revision : ℕ) :
    Change s { s with
      records := { s.records with
        certificates := (Records.revokeOthers s.records.certificates node.id
          (some fingerprint)).insert cert.fingerprint { cert with status := .current }
        contributors := s.records.contributors.insert node.id { node with revision } } }
  | disable {identity : Identity} {node : Contributor} (revision : ℕ)
    (hnode : s.records.contributors.lookup identity = some node) :
    Change s { s with
      records := { s.records with
        contributors :=
          s.records.contributors.insert node.id { node with disabled := true, revision }
        certificates := Records.revokeOthers s.records.certificates identity none } }
  | remove {identity : Identity} {node : Contributor} {records : Records}
    (hnode : s.records.contributors.lookup identity = some node) (hdisabled : node.disabled = true)
    (hshrinks : Shrinks s.records { records with contributors := s.records.contributors })
    (hcontributors : records.contributors = s.records.contributors.erase identity) :
    Change s { s with records }

variable {gateway} {s : Authority}

theorem Change.refl (s : Authority) : Change s s := .quiet (Shrinks.refl s.records)

variable {now : ℚ} {records : Records} {identity : Identity} {revision : ℕ} {fingerprint : Digest}

theorem change_invite {name : String} {mode : Mode} {actor : Administrator} {secret : String}
    {id nodeId : Identity} (hid : id ∉ s.drawn) (hnode : nodeId ∉ s.drawn)
    (h : s.records.invite gateway now name mode actor secret id nodeId = .ok records) :
    Change s { s with records, drawn := insert id (insert nodeId s.drawn) } := by
  simp only [Records.invite, insertNew, bind_eq_ok, raiseIf_eq_ok, Except.ok.injEq] at h
  obtain ⟨-, -, -, -, token, -, -, -, invitations, ⟨-, -, rfl⟩, rfl⟩ := h
  exact .invite
    { id, digest := token, nodeId, projectId := actor.projectId, name, mode
      expiresAt := now + gateway.invitationSeconds, used := false }
    (shrinks_prune s.records now) hid hnode rfl

theorem change_claim {secret csr : String} {nodeId requestId : Identity} {invitation : Invitation}
    (h : s.records.claim gateway now secret csr nodeId requestId = .ok (records, invitation)) :
    Change s { s with records, claimed := (invitation.id, nodeId) :: s.claimed } := by
  simp only [Records.claim, insertNew, bind_eq_ok, raiseIf_eq_ok, orRaise_eq_ok, Except.ok.injEq,
    Prod.mk.injEq, not_or, not_not] at h
  obtain ⟨token, -, -, -, row, hrow, -, ⟨hunused, -, rfl⟩, -, -, -, -, publicKey, -, contributors,
    ⟨-, hnew, rfl⟩, requests, -, rfl, rfl⟩ := h
  obtain ⟨id, hlookup⟩ := Table.mem_values.mp (List.mem_of_find?_eq_some hrow)
  exact .claim (shrinks_prune s.records now) hlookup (by simpa using hunused) (by simpa using hnew)
    rfl rfl

theorem change_beginIssue {expected : Digest} {actor : Option Administrator}
    {pending : EnrollmentRequest}
    (h : s.records.beginIssue now identity expected revision actor = .ok (records, pending)) :
    Change s { s with records } := by
  simp only [Records.beginIssue, bind_eq_ok, Except.ok.injEq, Prod.mk.injEq] at h
  obtain ⟨-, -, -, -, -, -, -, -, -, -, -, -, rfl, -⟩ := h
  exact .quiet ⟨rfl, id, id⟩

theorem change_issued {pending : EnrollmentRequest} {cert : IssuedCertificate}
    (hnew : cert.fingerprint ∉ s.registered) (h : s.records.issued now pending cert = .ok records) :
    Change s { s with records, registered := insert cert.fingerprint s.registered } := by
  simp only [Records.issued, insertNew, get, bind_eq_ok, raiseIf_eq_ok, orRaise_eq_ok,
    Except.ok.injEq, not_or, not_not] at h
  obtain ⟨current, -, node, hnode, -, -, -, ⟨-, henabled, -⟩, -, -, -, -, certificates,
    ⟨-, -, rfl⟩, rfl⟩ := h
  exact .issue { cert with nodeId := node.id, requestId := pending.id, status := .pending }
    (shrinks_prune s.records now) hnode (by simpa using henabled) rfl rfl hnew

theorem change_failed (pending : EnrollmentRequest) :
    Change s { s with records := s.records.failed pending } := by
  unfold Records.failed
  split
  · exact Change.refl s
  · split
    · exact .quiet ⟨rfl, id, id⟩
    · exact Change.refl s

/-- What an authorized certificate is. -/
theorem authenticate_eq_ok {pending : Bool} {node : Contributor} {cert : RegisteredCertificate}
    (h : records.authenticate now fingerprint pending = .ok (node, cert)) :
    records.certificates.lookup fingerprint = some cert ∧
      records.contributors.lookup cert.nodeId = some node ∧ node.disabled = false ∧
      (cert.status = .current ∨ pending = true ∧ cert.status = .pending) := by
  simp only [Records.authenticate, bind_eq_ok, raiseIf_eq_ok, orRaise_eq_ok, Except.ok.injEq,
    Prod.mk.injEq, not_or, not_not] at h
  obtain ⟨_, hcert, _, hnode, -, -, -, -, -, ⟨henabled, hstatus, -⟩, rfl, rfl⟩ := h
  refine ⟨hcert, hnode, by simpa using henabled, ?_⟩
  by_contra hnot
  exact hstatus (not_or.mp hnot)

theorem change_activate (h : s.records.activate now fingerprint = .ok records) :
    Change s { s with records } := by
  simp only [Records.activate, bind_eq_ok] at h
  obtain ⟨⟨node, cert⟩, hauth, h⟩ := h
  obtain ⟨hcert, hnode, henabled, hstatus⟩ := authenticate_eq_ok hauth
  split at h
  · obtain rfl := Except.ok.inj h
    exact Change.refl s
  · next hcurrent =>
    simp only [bind_eq_ok, Except.ok.injEq] at h
    obtain ⟨-, -, -, -, -, -, rfl⟩ := h
    have hpending : cert.status = .pending := (hstatus.resolve_left hcurrent).2
    exact .activate hcert hnode henabled hpending (node.revision + 1)

theorem change_rotation {csr : String}
    (h : s.records.rotation gateway now fingerprint identity csr = .ok records) :
    Change s { s with records } := by
  simp only [Records.rotation, bind_eq_ok] at h
  obtain ⟨_, -, _, -, -, -, -, -, found, -, h⟩ := h
  -- A rotation only adds a request, after the pruning.
  have hpruned := shrinks_prune s.records now
  cases found with
  | some previous =>
    obtain rfl := Except.ok.inj h
    exact .quiet hpruned
  | none =>
    simp only [bind_eq_ok, Except.ok.injEq] at h
    obtain ⟨requests, -, rfl⟩ := h
    exact .quiet ⟨rfl, hpruned.invitations, hpruned.certificates⟩

theorem change_disable {actor : Administrator}
    (h : s.records.disable identity revision actor = .ok records) :
    Change s { s with records } := by
  simp only [Records.disable, get, bind_eq_ok, orRaise_eq_ok, Except.ok.injEq] at h
  obtain ⟨node, hnode, -, -, -, -, rfl⟩ := h
  exact .disable (revision + 1) hnode

theorem change_remove {actor : Administrator} {retained : Bool}
    (h : s.records.remove identity revision actor retained = .ok records) :
    Change s { s with records } := by
  simp only [Records.remove, get, bind_eq_ok, orRaise_eq_ok, raiseIf_eq_ok, Except.ok.injEq,
    not_or] at h
  obtain ⟨node, hnode, -, -, -, ⟨-, hdisabled⟩, -, -, rfl⟩ := h
  refine .remove hnode (by simpa using hdisabled) ⟨rfl, fun h => ?_, fun h => ?_⟩ rfl
  · rw [Table.lookup_discard, Option.filter_eq_some_iff] at h
    exact h.1
  · rw [Table.lookup_discard, Option.filter_eq_some_iff] at h
    exact h.1

theorem change_keep {result : Except Error Records}
    (h : ∀ records, result = .ok records → Change s { s with records }) :
    Change s (s.keep result) := by
  cases result with
  | ok records => exact h records rfl
  | error error => exact Change.refl s

/-- Every step is one of the changes. -/
theorem change_step (s : Authority) (action : Step) (hnew : Unrepeated s action) :
    Change s (step gateway s action) := by
  cases action with
  | projects projects => exact .quiet ⟨rfl, id, id⟩
  | invite now name mode actor secret id nodeId =>
    simp only [step]
    split
    · exact Change.refl s
    · next hnew =>
      rw [not_or] at hnew
      split
      · exact Change.refl s
      · next h => exact change_invite hnew.1 hnew.2 h
  | claim now secret csr nodeId requestId =>
    simp only [step]
    split
    · exact Change.refl s
    · next h => exact change_claim h
  | beginIssue now identity expected revision actor =>
    refine change_keep fun records h => ?_
    obtain ⟨⟨_, pending⟩, hbegin, rfl⟩ := map_eq_ok.mp h
    exact change_beginIssue hbegin
  | issued now pending cert =>
    simp only [step]
    split
    · exact Change.refl s
    · next h => exact change_issued hnew h
  | failed pending => exact change_failed pending
  | activate now fingerprint => exact change_keep fun records => change_activate
  | rotation now fingerprint identity csr => exact change_keep fun records => change_rotation
  | disable identity revision actor => exact change_keep fun records => change_disable
  | remove identity revision actor retained => exact change_keep fun records => change_remove
  | prune now => exact .quiet (shrinks_prune s.records now)

end Changes

end Authority

end Ficc.Contributors
