import Ficc.Contributors.Authority

/-!
# Certificates of contributors

What holds of the contributor records after every sequence of operations: `certificates_sound`.
The only assumption is on the certificate authority, which gives every certificate a serial number
of its own and so never returns a certificate that has been registered before (`Unrepeated`).
-/

namespace Ficc.Contributors.Authority

open Execution

variable {s s' : Authority}

section Rows

/-- The certificates after a revocation are those before it, with some of them revoked. -/
structure RevokedFrom (nodeId : Identity) (spared : Option Digest)
    (cert cert' : RegisteredCertificate) : Prop where
  nodeId_eq : cert'.nodeId = cert.nodeId
  fingerprint_eq : cert'.fingerprint = cert.fingerprint
  status_eq : cert'.status = cert.status ∨ cert'.status = .revoked
  revoked : cert.nodeId = nodeId → some cert.fingerprint ≠ spared → cert'.status = .revoked

theorem lookup_revokeOthers {certificates : Table Digest RegisteredCertificate}
    {nodeId : Identity} {spared : Option Digest} {fingerprint : Digest}
    {cert' : RegisteredCertificate}
    (h : (Records.revokeOthers certificates nodeId spared).lookup fingerprint = some cert') :
    ∃ cert, certificates.lookup fingerprint = some cert ∧ RevokedFrom nodeId spared cert cert' := by
  rw [Records.revokeOthers, Table.lookup_mapRows, Option.map_eq_some_iff] at h
  obtain ⟨cert, hcert, rfl⟩ := h
  refine ⟨cert, hcert, ?_⟩
  split_ifs with hdoomed
  · exact ⟨rfl, rfl, .inr rfl, fun _ _ => rfl⟩
  · refine ⟨rfl, rfl, .inl rfl, fun hnode hspared => ?_⟩
    by_contra hnot
    exact hdoomed ⟨hnode, hnot, hspared⟩

/-- Every row is under the key that it names. -/
structure Keyed (s : Authority) : Prop where
  contributors : s.records.contributors.KeyedBy Contributor.id
  invitations : s.records.invitations.KeyedBy Invitation.id
  certificates : s.records.certificates.KeyedBy fun cert => cert.fingerprint

theorem keyed_initial : Keyed initial := by
  refine ⟨⟨fun h => ?_⟩, ⟨fun h => ?_⟩, ⟨fun h => ?_⟩⟩ <;> cases h

theorem Keyed.shrinks (h : Keyed s) {records : Records} (hshrinks : Shrinks s.records records) :
    records.contributors.KeyedBy Contributor.id ∧ records.invitations.KeyedBy Invitation.id ∧
      records.certificates.KeyedBy fun cert => cert.fingerprint := by
  refine ⟨?_, ⟨fun hrow => ?_⟩, ⟨fun hcert => ?_⟩⟩
  · rw [hshrinks.contributors]
    exact h.contributors
  · exact h.invitations.key_eq (hshrinks.invitations hrow)
  · exact h.certificates.key_eq (hshrinks.certificates hcert)

/-- A change keeps the keys. -/
theorem Keyed.change (h : Keyed s) (hchange : Change s s') : Keyed s' := by
  cases hchange with
  | quiet hshrinks =>
    obtain ⟨hcontributors, hinvitations, hcertificates⟩ := h.shrinks hshrinks
    exact ⟨hcontributors, hinvitations, hcertificates⟩
  | invite row hshrinks hid hnode hunused =>
    obtain ⟨hcontributors, hinvitations, hcertificates⟩ := h.shrinks hshrinks
    exact ⟨hcontributors, hinvitations.insert rfl, hcertificates⟩
  | claim hshrinks hrow hunused hnew hnode henabled =>
    obtain ⟨hcontributors, hinvitations, hcertificates⟩ := h.shrinks hshrinks
    exact ⟨hcontributors.insert hnode, hinvitations.insert rfl, hcertificates⟩
  | issue cert hshrinks hnode henabled hcert hpending hnew =>
    obtain ⟨hcontributors, hinvitations, hcertificates⟩ := h.shrinks hshrinks
    exact ⟨hcontributors, hinvitations, hcertificates.insert rfl⟩
  | activate hcert hnode henabled hpending revision =>
    refine ⟨h.contributors.insert rfl, h.invitations, Table.KeyedBy.insert ?_ rfl⟩
    refine ⟨fun hlookup => ?_⟩
    obtain ⟨old, hold, hrevoked⟩ := lookup_revokeOthers hlookup
    exact hrevoked.fingerprint_eq.trans (h.certificates.key_eq hold)
  | disable revision hnode =>
    refine ⟨h.contributors.insert rfl, h.invitations, ⟨fun hlookup => ?_⟩⟩
    obtain ⟨old, hold, hrevoked⟩ := lookup_revokeOthers hlookup
    exact hrevoked.fingerprint_eq.trans (h.certificates.key_eq hold)
  | remove hnode hdisabled hshrinks hcontributors =>
    obtain ⟨-, hinvitations, hcertificates⟩ := h.shrinks hshrinks
    refine ⟨?_, hinvitations, hcertificates⟩
    rw [hcontributors]
    exact h.contributors.erase _

end Rows

section Enrollment

/-- Where contributors come from. -/
structure Enrolled (s : Authority) : Prop where
  contributor_drawn : ∀ {id node}, s.records.contributors.lookup id = some node → id ∈ s.drawn
  invitation_drawn : ∀ {id row}, s.records.invitations.lookup id = some row →
    id ∈ s.drawn ∧ row.nodeId ∈ s.drawn
  /-- Two invitations are for two contributors. -/
  invitation_unique : ∀ {id id' row row'}, s.records.invitations.lookup id = some row →
    s.records.invitations.lookup id' = some row' → row.nodeId = row'.nodeId → id = id'
  /-- The invitation of a contributor is used. -/
  invitation_used : ∀ {id row node}, s.records.invitations.lookup id = some row →
    s.records.contributors.lookup row.nodeId = some node → row.used = true
  claimed_nodup : (s.claimed.map Prod.fst).Nodup
  claimed_drawn : ∀ {id}, id ∈ s.claimed.map Prod.fst → id ∈ s.drawn
  claimed_used : ∀ {id row}, id ∈ s.claimed.map Prod.fst →
    s.records.invitations.lookup id = some row → row.used = true

theorem enrolled_initial : Enrolled initial := by
  refine ⟨fun h => ?_, fun h => ?_, fun h => ?_, fun h => ?_, List.nodup_nil, fun h => ?_,
    fun h => ?_⟩ <;> cases h

/-- Fewer invitations for the same contributors. -/
theorem Enrolled.shrinks (h : Enrolled s) {records : Records}
    (hshrinks : Shrinks s.records records) : Enrolled { s with records } where
  contributor_drawn hnode := h.contributor_drawn (hshrinks.contributors ▸ hnode)
  invitation_drawn hrow := h.invitation_drawn (hshrinks.invitations hrow)
  invitation_unique hrow hrow' := h.invitation_unique (hshrinks.invitations hrow)
    (hshrinks.invitations hrow')
  invitation_used hrow hnode := h.invitation_used (hshrinks.invitations hrow)
    (hshrinks.contributors ▸ hnode)
  claimed_nodup := h.claimed_nodup
  claimed_drawn := h.claimed_drawn
  claimed_used hmem hrow := h.claimed_used hmem (hshrinks.invitations hrow)

/-- The enrollment depends on the invitations and on which contributors there are. -/
theorem Enrolled.congr (h : Enrolled s) (hinvitations : s'.records.invitations =
      s.records.invitations)
    (hcontributors : ∀ {id node}, s'.records.contributors.lookup id = some node →
      ∃ old, s.records.contributors.lookup id = some old)
    (hdrawn : s'.drawn = s.drawn) (hclaimed : s'.claimed = s.claimed) : Enrolled s' where
  contributor_drawn hnode := by
    obtain ⟨old, hold⟩ := hcontributors hnode
    exact hdrawn ▸ h.contributor_drawn hold
  invitation_drawn hrow := hdrawn ▸ h.invitation_drawn (hinvitations ▸ hrow)
  invitation_unique hrow hrow' := h.invitation_unique (hinvitations ▸ hrow) (hinvitations ▸ hrow')
  invitation_used hrow hnode := by
    obtain ⟨old, hold⟩ := hcontributors hnode
    exact h.invitation_used (hinvitations ▸ hrow) hold
  claimed_nodup := hclaimed ▸ h.claimed_nodup
  claimed_drawn hmem := hdrawn ▸ h.claimed_drawn (hclaimed ▸ hmem)
  claimed_used hmem hrow := h.claimed_used (hclaimed ▸ hmem) (hinvitations ▸ hrow)

theorem Enrolled.invite (h : Enrolled s) {row : Invitation} (hid : row.id ∉ s.drawn)
    (hnode : row.nodeId ∉ s.drawn) :
    Enrolled { s with
      records := { s.records with invitations := s.records.invitations.insert row.id row }
      drawn := insert row.id (insert row.nodeId s.drawn) } where
  contributor_drawn hlookup :=
    Finset.mem_insert_of_mem (Finset.mem_insert_of_mem (h.contributor_drawn hlookup))
  invitation_drawn {id other} hlookup := by
    rw [Table.lookup_insert_eq] at hlookup
    split_ifs at hlookup with heq
    · obtain rfl := Option.some.inj hlookup
      exact ⟨by simp [heq], by simp⟩
    · obtain ⟨hmem, hmem'⟩ := h.invitation_drawn hlookup
      exact ⟨by simp [hmem], by simp [hmem']⟩
  invitation_unique {id id' first second} hfirst hsecond hsame := by
    rw [Table.lookup_insert_eq] at hfirst hsecond
    -- The new invitation is for a contributor that no other invitation names.
    have hnew : ∀ {k other}, s.records.invitations.lookup k = some other →
        other.nodeId ≠ row.nodeId := fun hother heq =>
      hnode (heq ▸ (h.invitation_drawn hother).2)
    split_ifs at hfirst hsecond with heq heq' heq'
    · exact heq.trans heq'.symm
    · obtain rfl := Option.some.inj hfirst
      exact absurd hsame.symm (hnew hsecond)
    · obtain rfl := Option.some.inj hsecond
      exact absurd hsame (hnew hfirst)
    · exact h.invitation_unique hfirst hsecond hsame
  invitation_used {id other node} hlookup hother := by
    rw [Table.lookup_insert_eq] at hlookup
    split_ifs at hlookup
    · obtain rfl := Option.some.inj hlookup
      exact absurd (h.contributor_drawn hother) hnode
    · exact h.invitation_used hlookup hother
  claimed_nodup := h.claimed_nodup
  claimed_drawn hmem := Finset.mem_insert_of_mem (Finset.mem_insert_of_mem (h.claimed_drawn hmem))
  claimed_used {id other} hmem hlookup := by
    rw [Table.lookup_insert_eq] at hlookup
    split_ifs at hlookup with heq
    · exact absurd (heq ▸ h.claimed_drawn hmem) hid
    · exact h.claimed_used hmem hlookup

/-- A claim enrols its node once. -/
theorem Enrolled.claim (h : Enrolled s) {id : Identity} {row : Invitation} {node : Contributor}
    {requests : Table Identity EnrollmentRequest}
    (hrow : s.records.invitations.lookup id = some row) (hid : row.id = id)
    (hunused : row.used = false) :
    Enrolled { s with
      records := { s.records with
        contributors := s.records.contributors.insert row.nodeId node, requests
        invitations := s.records.invitations.insert row.id { row with used := true } }
      claimed := (row.id, row.nodeId) :: s.claimed } := by
  subst hid
  -- An invitation keeps its contributor when it is marked as used.
  have hsame {k other} (hlookup : (s.records.invitations.insert row.id
      { row with used := true }).lookup k = some other) :
      ∃ old, s.records.invitations.lookup k = some old ∧ other.nodeId = old.nodeId ∧
        (other.used = true ∨ k ≠ row.id ∧ other = old) := by
    rw [Table.lookup_insert_eq] at hlookup
    split_ifs at hlookup with heq
    · obtain rfl := Option.some.inj hlookup
      exact ⟨row, heq ▸ hrow, rfl, .inl rfl⟩
    · exact ⟨other, hlookup, rfl, .inr ⟨heq, rfl⟩⟩
  have hfresh : row.id ∉ s.claimed.map Prod.fst := by
    intro hmem
    rw [h.claimed_used hmem hrow] at hunused
    cases hunused
  constructor
  case contributor_drawn =>
    intro k other hlookup
    rw [Table.lookup_insert_eq] at hlookup
    split_ifs at hlookup with heq
    · exact heq ▸ (h.invitation_drawn hrow).2
    · exact h.contributor_drawn hlookup
  case invitation_drawn =>
    intro k other hlookup
    obtain ⟨old, hold, hnode, -⟩ := hsame hlookup
    exact hnode ▸ h.invitation_drawn hold
  case invitation_unique =>
    intro k k' first second hfirst hsecond heq
    obtain ⟨old, hold, hnode, -⟩ := hsame hfirst
    obtain ⟨old', hold', hnode', -⟩ := hsame hsecond
    exact h.invitation_unique hold hold' (hnode.symm.trans (heq.trans hnode'))
  case invitation_used =>
    intro k other node' hlookup hother
    obtain ⟨old, hold, hnode, hused | ⟨hne, rfl⟩⟩ := hsame hlookup
    · exact hused
    · rw [Table.lookup_insert_eq] at hother
      split_ifs at hother with heq
      · exact absurd (h.invitation_unique hold hrow heq) hne
      · exact h.invitation_used hold hother
  case claimed_nodup => exact List.nodup_cons.mpr ⟨hfresh, h.claimed_nodup⟩
  case claimed_drawn =>
    intro k hmem
    obtain rfl | hmem := List.mem_cons.mp hmem
    · exact (h.invitation_drawn hrow).1
    · exact h.claimed_drawn hmem
  case claimed_used =>
    intro k other hmem hlookup
    obtain ⟨old, hold, -, hused | ⟨hne, rfl⟩⟩ := hsame hlookup
    · exact hused
    · exact h.claimed_used ((List.mem_cons.mp hmem).resolve_left hne) hold

/-- A change keeps the enrolments. -/
theorem Enrolled.change (h : Enrolled s) (hkeyed : Keyed s) (hchange : Change s s') :
    Enrolled s' := by
  cases hchange with
  | quiet hshrinks => exact h.shrinks hshrinks
  | invite row hshrinks hid hnode hunused =>
    have hmiddle := h.shrinks hshrinks
    exact hmiddle.invite hid hnode
  | claim hshrinks hrow hunused hnew hnode henabled =>
    have hmiddle := h.shrinks hshrinks
    have hid := (hkeyed.shrinks hshrinks).2.1.key_eq hrow
    exact hmiddle.claim hrow hid hunused
  | issue cert hshrinks hnode henabled hcert hpending hnew =>
    exact (h.shrinks hshrinks).congr rfl (fun hlookup => ⟨_, hlookup⟩) rfl rfl
  | activate hcert hnode henabled hpending revision =>
    refine h.congr rfl (fun {id node'} hlookup => ?_) rfl rfl
    rw [Table.lookup_insert_eq] at hlookup
    split_ifs at hlookup with heq
    · rw [heq, hkeyed.contributors.key_eq hnode]
      exact ⟨_, hnode⟩
    · exact ⟨_, hlookup⟩
  | disable revision hnode =>
    refine h.congr rfl (fun {id node'} hlookup => ?_) rfl rfl
    rw [Table.lookup_insert_eq] at hlookup
    split_ifs at hlookup with heq
    · rw [heq, hkeyed.contributors.key_eq hnode]
      exact ⟨_, hnode⟩
    · exact ⟨_, hlookup⟩
  | @remove identity node records hnode hdisabled hshrinks hcontributors =>
    refine (h.shrinks hshrinks).congr rfl (fun {id node'} hlookup => ?_) rfl rfl
    rw [hcontributors, Table.lookup_erase_eq] at hlookup
    split_ifs at hlookup
    exact ⟨_, hlookup⟩

end Enrollment

section Certification

/-- What the certificates of a contributor are. -/
structure Certified (s : Authority) : Prop where
  current_unique : ∀ {fingerprint fingerprint' cert cert'},
    s.records.certificates.lookup fingerprint = some cert →
    s.records.certificates.lookup fingerprint' = some cert' →
    cert.status = .current → cert'.status = .current → cert.nodeId = cert'.nodeId →
    fingerprint = fingerprint'
  disabled_revoked : ∀ {fingerprint cert node},
    s.records.certificates.lookup fingerprint = some cert →
    s.records.contributors.lookup cert.nodeId = some node → node.disabled = true →
    cert.status = .revoked
  registered_mem : ∀ {fingerprint cert},
    s.records.certificates.lookup fingerprint = some cert → fingerprint ∈ s.registered

theorem certified_initial : Certified initial := by
  refine ⟨fun h => ?_, fun h => ?_, fun h => ?_⟩ <;> cases h

/-- Fewer certificates of the same contributors. -/
theorem Certified.shrinks (h : Certified s) {records : Records}
    (hshrinks : Shrinks s.records records) : Certified { s with records } where
  current_unique hcert hcert' :=
    h.current_unique (hshrinks.certificates hcert) (hshrinks.certificates hcert')
  disabled_revoked hcert hnode :=
    h.disabled_revoked (hshrinks.certificates hcert) (hshrinks.contributors ▸ hnode)
  registered_mem hcert := h.registered_mem (hshrinks.certificates hcert)

variable {cert : RegisteredCertificate} {node : Contributor}

/-- A certificate is registered as pending for a contributor that is not disabled. -/
theorem Certified.issue (h : Certified s) {requests : Table Identity EnrollmentRequest}
    (hnode : s.records.contributors.lookup cert.nodeId = some node)
    (henabled : node.disabled = false) (hpending : cert.status = .pending) :
    Certified { s with
      records := { s.records with
        certificates := s.records.certificates.insert cert.fingerprint cert, requests }
      registered := insert cert.fingerprint s.registered } := by
  have hnotCurrent : cert.status ≠ .current := by simp [hpending]
  constructor
  case current_unique =>
    intro fingerprint fingerprint' first second hfirst hsecond hcurrent hcurrent' hsame
    rw [Table.lookup_insert_eq] at hfirst hsecond
    split_ifs at hfirst hsecond
    · obtain rfl := Option.some.inj hfirst
      exact absurd hcurrent hnotCurrent
    · obtain rfl := Option.some.inj hfirst
      exact absurd hcurrent hnotCurrent
    · obtain rfl := Option.some.inj hsecond
      exact absurd hcurrent' hnotCurrent
    · exact h.current_unique hfirst hsecond hcurrent hcurrent' hsame
  case disabled_revoked =>
    intro fingerprint other node' hother hnode' hdisabled
    rw [Table.lookup_insert_eq] at hother
    split_ifs at hother
    · obtain rfl := Option.some.inj hother
      rw [hnode] at hnode'
      obtain rfl := Option.some.inj hnode'
      rw [henabled] at hdisabled
      cases hdisabled
    · exact h.disabled_revoked hother hnode' hdisabled
  case registered_mem =>
    intro fingerprint other hother
    rw [Table.lookup_insert_eq] at hother
    split_ifs at hother with heq
    · simp [heq]
    · exact Finset.mem_insert_of_mem (h.registered_mem hother)

/-- After an activation, a current certificate is the one that was activated, or it was current
before and belongs to another contributor. -/
theorem current_of_activate (hkeyed : Keyed s) {other : RegisteredCertificate}
    {fingerprint : Digest}
    (hother : ((Records.revokeOthers s.records.certificates cert.nodeId (some cert.fingerprint)).insert cert.fingerprint { cert with status := .current }).lookup fingerprint = some other)
    (hcurrent : other.status = .current) :
    fingerprint = cert.fingerprint ∧ other.nodeId = cert.nodeId ∨
      other.nodeId ≠ cert.nodeId ∧ ∃ old, s.records.certificates.lookup fingerprint = some old ∧
        old.status = .current ∧ old.nodeId = other.nodeId := by
  rw [Table.lookup_insert_eq] at hother
  split_ifs at hother with heq
  · obtain rfl := Option.some.inj hother
    exact .inl ⟨heq, rfl⟩
  · obtain ⟨old, hold, hfrom⟩ := lookup_revokeOthers hother
    have hnotRevoked : other.status ≠ .revoked := by simp [hcurrent]
    have hstatus : old.status = .current :=
      (hfrom.status_eq.resolve_right hnotRevoked).symm.trans hcurrent
    have hne : some old.fingerprint ≠ some cert.fingerprint := by
      rw [hkeyed.certificates.key_eq hold]
      simpa using heq
    refine .inr ⟨fun hsame => ?_, old, hold, hstatus, hfrom.nodeId_eq.symm⟩
    exact hnotRevoked (hfrom.revoked (hfrom.nodeId_eq.symm.trans hsame) hne)

/-- The certificate that is used for the first time becomes the only current one. -/
theorem Certified.activate (h : Certified s) (hkeyed : Keyed s)
    (hcert : s.records.certificates.lookup cert.fingerprint = some cert)
    (henabled : node.disabled = false) :
    Certified { s with
      records := { s.records with
        certificates := (Records.revokeOthers s.records.certificates cert.nodeId
          (some cert.fingerprint)).insert cert.fingerprint { cert with status := .current }
        contributors := s.records.contributors.insert cert.nodeId node } } := by
  constructor
  case current_unique =>
    intro fingerprint fingerprint' first second hfirst hsecond hcurrent hcurrent' hsame
    obtain ⟨rfl, hnode⟩ | ⟨hne, old, hold, hstatus, hnode⟩ :=
        current_of_activate hkeyed hfirst hcurrent <;>
      obtain ⟨rfl, hnode'⟩ | ⟨hne', old', hold', hstatus', hnode'⟩ :=
        current_of_activate hkeyed hsecond hcurrent'
    · rfl
    · exact absurd (hsame.symm.trans hnode) hne'
    · exact absurd (hsame.trans hnode') hne
    · exact h.current_unique hold hold' hstatus hstatus' (hnode.trans (hsame.trans hnode'.symm))
  case disabled_revoked =>
    intro fingerprint other node' hother hnode' hdisabled
    rw [Table.lookup_insert_eq] at hnode'
    split_ifs at hnode' with hsame
    · obtain rfl := Option.some.inj hnode'
      exact absurd hdisabled (by simp [henabled])
    · rw [Table.lookup_insert_eq] at hother
      split_ifs at hother
      · obtain rfl := Option.some.inj hother
        exact absurd rfl hsame
      · obtain ⟨old, hold, hfrom⟩ := lookup_revokeOthers hother
        obtain hstatus | hstatus := hfrom.status_eq
        · exact hstatus.trans (h.disabled_revoked hold (hfrom.nodeId_eq ▸ hnode') hdisabled)
        · exact hstatus
  case registered_mem =>
    intro fingerprint other hother
    rw [Table.lookup_insert_eq] at hother
    split_ifs at hother with heq
    · rw [heq]
      exact h.registered_mem hcert
    · obtain ⟨old, hold, -⟩ := lookup_revokeOthers hother
      exact h.registered_mem hold

/-- Disabling a contributor leaves it without a certificate that is not revoked. -/
theorem Certified.disable (h : Certified s) {identity : Identity} :
    Certified { s with
      records := { s.records with
        contributors := s.records.contributors.insert identity node
        certificates := Records.revokeOthers s.records.certificates identity none } } := by
  constructor
  case current_unique =>
    intro fingerprint fingerprint' first second hfirst hsecond hcurrent hcurrent' hsame
    obtain ⟨old, hold, hfrom⟩ := lookup_revokeOthers hfirst
    obtain ⟨old', hold', hfrom'⟩ := lookup_revokeOthers hsecond
    have hstatus : old.status = .current :=
      (hfrom.status_eq.resolve_right (by simp [hcurrent])).symm.trans hcurrent
    have hstatus' : old'.status = .current :=
      (hfrom'.status_eq.resolve_right (by simp [hcurrent'])).symm.trans hcurrent'
    have hnode : old.nodeId = old'.nodeId :=
      hfrom.nodeId_eq.symm.trans (hsame.trans hfrom'.nodeId_eq)
    exact h.current_unique hold hold' hstatus hstatus' hnode
  case disabled_revoked =>
    intro fingerprint other node' hother hnode' hdisabled
    obtain ⟨old, hold, hfrom⟩ := lookup_revokeOthers hother
    rw [hfrom.nodeId_eq, Table.lookup_insert_eq] at hnode'
    split_ifs at hnode' with hsame
    · exact hfrom.revoked hsame (by simp)
    · obtain hstatus | hstatus := hfrom.status_eq
      · exact hstatus.trans (h.disabled_revoked hold hnode' hdisabled)
      · exact hstatus
  case registered_mem =>
    intro fingerprint other hother
    obtain ⟨old, hold, -⟩ := lookup_revokeOthers hother
    exact h.registered_mem hold

/-- It keeps the certificates. -/
theorem Certified.change (h : Certified s) (hkeyed : Keyed s) (hchange : Change s s') :
    Certified s' := by
  cases hchange with
  | quiet hshrinks => exact h.shrinks hshrinks
  | invite row hshrinks hid hnode hunused =>
    have hmiddle := h.shrinks hshrinks
    exact ⟨hmiddle.current_unique, hmiddle.disabled_revoked, hmiddle.registered_mem⟩
  | claim hshrinks hrow hunused hnew hnode henabled =>
    have hmiddle := h.shrinks hshrinks
    refine ⟨hmiddle.current_unique, fun hcert hlookup hdisabled => ?_, hmiddle.registered_mem⟩
    rw [Table.lookup_insert_eq] at hlookup
    split_ifs at hlookup
    · obtain rfl := Option.some.inj hlookup
      exact absurd hdisabled (by simp [henabled])
    · exact hmiddle.disabled_revoked hcert hlookup hdisabled
  | issue cert hshrinks hnode henabled hcert hpending hnew =>
    have hmiddle := h.shrinks hshrinks
    refine hmiddle.issue ?_ henabled hpending
    rw [hshrinks.contributors, hcert, hkeyed.contributors.key_eq hnode]
    exact hnode
  | activate hcert hnode henabled hpending revision =>
    obtain rfl := hkeyed.certificates.key_eq hcert
    rw [hkeyed.contributors.key_eq hnode]
    exact h.activate hkeyed hcert henabled
  | disable revision hnode =>
    rw [hkeyed.contributors.key_eq hnode]
    exact h.disable
  | remove hnode hdisabled hshrinks hcontributors =>
    have hmiddle := h.shrinks hshrinks
    refine ⟨hmiddle.current_unique, fun hcert hlookup => ?_, hmiddle.registered_mem⟩
    rw [hcontributors, Table.lookup_erase_eq] at hlookup
    split_ifs at hlookup
    exact hmiddle.disabled_revoked hcert hlookup

end Certification

section Finality

/-- The contributor was disabled, or it was removed after that. -/
structure Barred (identity : Identity) (s : Authority) : Prop where
  drawn : identity ∈ s.drawn
  disabled : ∀ {node}, s.records.contributors.lookup identity = some node → node.disabled = true
  revoked : ∀ {fingerprint cert}, s.records.certificates.lookup fingerprint = some cert →
    cert.nodeId = identity → cert.status = .revoked
  /-- No invitation can create it again. -/
  used : ∀ {id row}, s.records.invitations.lookup id = some row → row.nodeId = identity →
    row.used = true

theorem Barred.shrinks {identity : Identity} (h : Barred identity s) {records : Records}
    (hshrinks : Shrinks s.records records) : Barred identity { s with records } where
  drawn := h.drawn
  disabled hnode := h.disabled (hshrinks.contributors ▸ hnode)
  revoked hcert := h.revoked (hshrinks.certificates hcert)
  used hrow := h.used (hshrinks.invitations hrow)

/-- No step lets the contributor back in. -/
theorem Barred.change {identity : Identity} (h : Barred identity s) (hkeyed : Keyed s)
    (hchange : Change s s') : Barred identity s' := by
  -- A contributor that is not disabled is another one.
  have hother {id node} (hnode : s.records.contributors.lookup id = some node)
      (henabled : node.disabled = false) : id ≠ identity := by
    rintro rfl
    rw [h.disabled hnode] at henabled
    cases henabled
  cases hchange with
  | quiet hshrinks => exact h.shrinks hshrinks
  | invite row hshrinks hid hnode hunused =>
    have hmiddle := h.shrinks hshrinks
    refine ⟨by simp [h.drawn], hmiddle.disabled, hmiddle.revoked, fun {id other} hlookup heq => ?_⟩
    rw [Table.lookup_insert_eq] at hlookup
    split_ifs at hlookup
    · obtain rfl := Option.some.inj hlookup
      exact absurd (heq ▸ h.drawn) hnode
    · exact hmiddle.used hlookup heq
  | @claim middle requests id row node hshrinks hrow hunused hnew hnode henabled =>
    have hmiddle := h.shrinks hshrinks
    have hne : row.nodeId ≠ identity := fun heq => by
      rw [hmiddle.used hrow heq] at hunused
      cases hunused
    refine ⟨h.drawn, fun {node'} hlookup => ?_, hmiddle.revoked, fun {id' other} hlookup heq => ?_⟩
    · rw [Table.lookup_insert_eq, if_neg hne.symm] at hlookup
      exact hmiddle.disabled hlookup
    · rw [Table.lookup_insert_eq] at hlookup
      split_ifs at hlookup
      · obtain rfl := Option.some.inj hlookup
        exact absurd heq hne
      · exact hmiddle.used hlookup heq
  | @issue middle requests id node cert hshrinks hnode henabled hcert hpending hnew =>
    have hmiddle := h.shrinks hshrinks
    refine ⟨h.drawn, hmiddle.disabled, fun {fingerprint other} hlookup heq => ?_, hmiddle.used⟩
    rw [Table.lookup_insert_eq] at hlookup
    split_ifs at hlookup
    · obtain rfl := Option.some.inj hlookup
      have hid : node.id = identity := hcert.symm.trans heq
      exact absurd ((hkeyed.contributors.key_eq hnode).symm.trans hid) (hother hnode henabled)
    · exact hmiddle.revoked hlookup heq
  | @activate fingerprint node cert hcert hnode henabled hpending revision =>
    have hne := hother hnode henabled
    rw [hkeyed.contributors.key_eq hnode]
    refine ⟨h.drawn, fun {node'} hlookup => ?_, fun {fingerprint' other} hlookup heq => ?_, h.used⟩
    · rw [Table.lookup_insert_eq, if_neg hne.symm] at hlookup
      exact h.disabled hlookup
    · rw [Table.lookup_insert_eq] at hlookup
      split_ifs at hlookup
      · obtain rfl := Option.some.inj hlookup
        exact absurd heq hne
      · obtain ⟨old, hold, hfrom⟩ := lookup_revokeOthers hlookup
        obtain hstatus | hstatus := hfrom.status_eq
        · exact hstatus.trans (h.revoked hold (hfrom.nodeId_eq.symm.trans heq))
        · exact hstatus
  | @disable identity' node revision hnode =>
    rw [hkeyed.contributors.key_eq hnode]
    refine ⟨h.drawn, fun {node'} hlookup => ?_, fun {fingerprint' other} hlookup heq => ?_, h.used⟩
    · rw [Table.lookup_insert_eq] at hlookup
      split_ifs at hlookup
      · obtain rfl := Option.some.inj hlookup
        rfl
      · exact h.disabled hlookup
    · obtain ⟨old, hold, hfrom⟩ := lookup_revokeOthers hlookup
      obtain hstatus | hstatus := hfrom.status_eq
      · exact hstatus.trans (h.revoked hold (hfrom.nodeId_eq.symm.trans heq))
      · exact hstatus
  | remove hnode hdisabled hshrinks hcontributors =>
    have hmiddle := h.shrinks hshrinks
    refine ⟨h.drawn, fun {node'} hlookup => ?_, hmiddle.revoked, hmiddle.used⟩
    rw [hcontributors, Table.lookup_erase_eq] at hlookup
    split_ifs at hlookup
    exact hmiddle.disabled hlookup

/-- The certificate with the fingerprint was revoked, and may have been deleted after that. -/
structure Void (fingerprint : Digest) (s : Authority) : Prop where
  registered : fingerprint ∈ s.registered
  revoked : ∀ {cert}, s.records.certificates.lookup fingerprint = some cert →
    cert.status = .revoked

/-- A void fingerprint is not authorized, neither as a current nor as a pending one. -/
theorem Void.authenticate {fingerprint : Digest} (h : Void fingerprint s) (now : ℚ)
    (pending : Bool) (found : Contributor × RegisteredCertificate) :
    s.records.authenticate now fingerprint pending ≠ .ok found := by
  intro hok
  obtain ⟨hcert, -, -, hstatus⟩ := authenticate_eq_ok hok
  rw [h.revoked hcert] at hstatus
  simp at hstatus

theorem Void.shrinks {fingerprint : Digest} (h : Void fingerprint s) {records : Records}
    (hshrinks : Shrinks s.records records) : Void fingerprint { s with records } where
  registered := h.registered
  revoked hcert := h.revoked (hshrinks.certificates hcert)

/-- No step makes a void fingerprint valid. -/
theorem Void.change {fingerprint : Digest} (h : Void fingerprint s) (hkeyed : Keyed s)
    (hchange : Change s s') : Void fingerprint s' := by
  have hrevoke {nodeId spared cert'}
      (hlookup : (Records.revokeOthers s.records.certificates nodeId spared).lookup fingerprint =
        some cert') : cert'.status = .revoked := by
    obtain ⟨old, hold, hfrom⟩ := lookup_revokeOthers hlookup
    obtain hstatus | hstatus := hfrom.status_eq
    · exact hstatus.trans (h.revoked hold)
    · exact hstatus
  cases hchange with
  | quiet hshrinks => exact h.shrinks hshrinks
  | invite row hshrinks hid hnode hunused => exact ⟨h.registered, (h.shrinks hshrinks).revoked⟩
  | claim hshrinks hrow hunused hnew hnode henabled =>
    exact ⟨h.registered, (h.shrinks hshrinks).revoked⟩
  | issue cert hshrinks hnode henabled hcert hpending hnew =>
    -- The new certificate has another fingerprint.
    have hne : fingerprint ≠ cert.fingerprint := fun heq => hnew (heq ▸ h.registered)
    refine ⟨Finset.mem_insert_of_mem h.registered, fun {other} hlookup => ?_⟩
    rw [Table.lookup_insert_eq, if_neg hne] at hlookup
    exact (h.shrinks hshrinks).revoked hlookup
  | @activate fingerprint' node cert hcert hnode henabled hpending revision =>
    refine ⟨h.registered, fun {other} hlookup => ?_⟩
    rw [Table.lookup_insert_eq] at hlookup
    split_ifs at hlookup with heq
    · -- Only a pending certificate is activated.
      rw [heq, hkeyed.certificates.key_eq hcert] at h
      rw [h.revoked hcert] at hpending
      cases hpending
    · exact hrevoke hlookup
  | disable revision hnode => exact ⟨h.registered, hrevoke⟩
  | remove hnode hdisabled hshrinks hcontributors =>
    exact ⟨h.registered, (h.shrinks hshrinks).revoked⟩

end Finality

section Runs

variable {gateway : Gateway}

/-- All that is kept by every step. -/
structure Sound (s : Authority) : Prop where
  keyed : Keyed s
  enrolled : Enrolled s
  certified : Certified s

theorem sound_initial : Sound initial :=
  ⟨keyed_initial, enrolled_initial, certified_initial⟩

theorem Sound.step (h : Sound s) {action : Step} (hnew : Unrepeated s action) :
    Sound (step gateway s action) :=
  have hchange := change_step s action hnew
  ⟨h.keyed.change hchange, h.enrolled.change h.keyed hchange, h.certified.change h.keyed hchange⟩

/-- A run keeps the records sound. -/
theorem Sound.run (h : Sound s) {actions : List Step}
    (hrun : Along (Authority.step gateway) Unrepeated s actions) :
    Sound (Ficc.run (Authority.step gateway) s actions) :=
  Along.run_invariant (I := Sound) (fun _ _ h hnew => h.step hnew) h hrun

/-- What a step keeps of a sound state is kept by a run. -/
theorem Sound.run_keeps (h : Sound s) {P : Authority → Prop}
    (keeps : ∀ {s s'}, Keyed s → Change s s' → P s → P s') (hP : P s) {actions : List Step}
    (hrun : Along (Authority.step gateway) Unrepeated s actions) :
    P (Ficc.run (Authority.step gateway) s actions) :=
  (Along.run_invariant (I := fun s => Sound s ∧ P s)
    (fun s action h hnew => ⟨h.1.step hnew, keeps h.1.keyed (change_step s action hnew) h.2⟩)
    ⟨h, hP⟩ hrun).2

/-- A disabled contributor of a sound state is barred. -/
theorem Sound.barred (h : Sound s) {identity : Identity} {node : Contributor}
    (hnode : s.records.contributors.lookup identity = some node)
    (hdisabled : node.disabled = true) : Barred identity s where
  drawn := h.enrolled.contributor_drawn hnode
  disabled {node'} hnode' := by
    rw [hnode] at hnode'
    exact Option.some.inj hnode' ▸ hdisabled
  revoked hcert hid := h.certified.disabled_revoked hcert (hid ▸ hnode) hdisabled
  used hrow hid := h.enrolled.invitation_used hrow (hid ▸ hnode)

/-- A revoked certificate of a sound state makes its fingerprint void. -/
theorem Sound.void (h : Sound s) {fingerprint : Digest} {cert : RegisteredCertificate}
    (hcert : s.records.certificates.lookup fingerprint = some cert)
    (hrevoked : cert.status = .revoked) : Void fingerprint s where
  registered := h.certified.registered_mem hcert
  revoked {cert'} hcert' := by
    rw [hcert] at hcert'
    exact Option.some.inj hcert' ▸ hrevoked

/-- After every sequence of operations a contributor has at most one current certificate. What
was disabled before, at any time, has only revoked certificates and is not enabled again. What was
revoked before is not authorized. An invitation has created at most one contributor. -/
theorem certificates_sound (gateway : Gateway) (earlier later : List Step)
    (hrun : Along (Authority.step gateway) Unrepeated initial (earlier ++ later)) :
    let before := Ficc.run (Authority.step gateway) initial earlier
    let after := Ficc.run (Authority.step gateway) initial (earlier ++ later)
    (∀ fingerprint fingerprint' cert cert',
      after.records.certificates.lookup fingerprint = some cert →
      after.records.certificates.lookup fingerprint' = some cert' →
      cert.status = .current → cert'.status = .current → cert.nodeId = cert'.nodeId →
      fingerprint = fingerprint') ∧
    (∀ identity node, before.records.contributors.lookup identity = some node →
      node.disabled = true →
      (∀ node', after.records.contributors.lookup identity = some node' → node'.disabled = true) ∧
      (∀ fingerprint cert, after.records.certificates.lookup fingerprint = some cert →
        cert.nodeId = identity → cert.status = .revoked)) ∧
    (∀ fingerprint cert, before.records.certificates.lookup fingerprint = some cert →
      cert.status = .revoked →
      ∀ now pending found, after.records.authenticate now fingerprint pending ≠ .ok found) ∧
    (after.claimed.map Prod.fst).Nodup := by
  obtain ⟨hearlier, hlater⟩ := along_append.mp hrun
  have hbefore := sound_initial.run hearlier
  have hafter := sound_initial.run hrun
  rw [run_append] at hafter ⊢
  refine ⟨fun _ _ _ _ => hafter.certified.current_unique, ?_, ?_, hafter.enrolled.claimed_nodup⟩
  · intro identity node hnode hdisabled
    have hbarred := hbefore.run_keeps (fun hkeyed hchange h => h.change hkeyed hchange)
      (hbefore.barred hnode hdisabled) hlater
    exact ⟨fun _ => hbarred.disabled, fun _ _ => hbarred.revoked⟩
  · intro fingerprint cert hcert hrevoked
    have hvoid := hbefore.run_keeps (fun hkeyed hchange h => h.change hkeyed hchange)
      (hbefore.void hcert hrevoked) hlater
    exact hvoid.authenticate

end Runs

namespace Example

/-- A gateway that accepts every certificate request. -/
def gateway : Gateway :=
  { invitationSeconds := 3600, maxNodes := 64, request := fun _ _ => some 7, sha256 := fun _ => 9 }

/-- The request of contributor 2, after it was approved. -/
def pending : EnrollmentRequest :=
  { id := 3, nodeId := 2, csrPem := "csr", publicKey := 7, kind := .enroll, baseFingerprint := none
    status := .issuing, expiresAt := 3600, revision := 2, certificateFingerprint := none }

/-- The certificate of contributor 2. -/
def certificate : IssuedCertificate :=
  { fingerprint := 5, publicKey := 7, notBefore := 0, expiresAt := 3600, certificateChain := "pem" }

/-- A contributor enrolls, uses its certificate and is disabled. -/
def enrolled : List Step :=
  [.projects (AList.insert 1 false ∅),
    .invite 0 "worker" .voluntary ⟨1⟩ "0123456789012345678901234567890123456789012" 4 2,
    .claim 1 "0123456789012345678901234567890123456789012" "csr" 2 3,
    .beginIssue 2 3 7 1 (some ⟨1⟩), .issued 3 pending certificate, .activate 4 5,
    .disable 2 2 ⟨1⟩]

theorem certificates_sound_enrolled :
    let after := Ficc.run (Authority.step gateway) initial (enrolled ++ [.remove 2 3 ⟨1⟩ false])
    ∀ now waiting found, after.records.authenticate now 5 waiting ≠ .ok found :=
  (certificates_sound gateway enrolled [.remove 2 3 ⟨1⟩ false] (by decide +kernel)).2.2.1 5
    { certificate with nodeId := 2, requestId := 3, status := .revoked } (by decide +kernel) rfl

end Example

end Ficc.Contributors.Authority
