import Ficc.Access.Auth

/-!
# Publishers, packages and the policy state

`PolicyStore` keeps the trusted publishers, the installed packages, the role bindings and one
setting, the policy state. Every change of a publisher or of a binding, and every activation, counts
the revision of the policy state up, in the transaction that makes the change.

An archive is what the three functions of `Tools` say about it: its hash, the publisher that its
manifest names, and whether a key verifies it.
-/

namespace Ficc.Policies

open Execution (Identity Digest)
open Access (Scope ExternalCheck)

abbrev Key : Type := ℕ

abbrev Role : Type := String

structure Publisher where
  id : Identity
  publicKey : Key
  enabled : Bool
  revision : ℕ
deriving DecidableEq

structure Binding where
  roles : List Role
  revision : ℕ
deriving DecidableEq

structure Activated where
  revision : ℕ
  digest : Digest
deriving DecidableEq

/-- The setting `policy_state`. -/
structure PolicyState where
  revision : ℕ
  required : Bool
  active : Option Digest
  previous : Option Digest
  history : List Activated
deriving DecidableEq

def DEFAULT : PolicyState := ⟨0, false, none, none, []⟩

/-- What is known of an archive. -/
structure Tools (Archive : Type) where
  sha256 : Archive → Digest
  /-- The publisher that the manifest names. -/
  inspect : Archive → Except Error Identity
  verify : Archive → Key → Except Error Unit

structure Database (Archive : Type) where
  access : Access.State
  policy : PolicyState
  publishers : Table Identity Publisher
  packages : Table Digest Archive
  bindings : Table (Identity × Identity) Binding

/-! ### Checks -/

def revisionCheck (value : ℕ) : Except Error Unit :=
  raiseIf (¬value < 2 ^ 53 - 1) (.value "The policy revision is invalid.")

def stateValue (value : PolicyState) : Except Error PolicyState := do
  revisionCheck value.revision
  raiseIf (value.active.isSome = true ∧ value.required = false)
    (.value "An active policy must require enforcement.")
  raiseIf (64 < value.history.length) (.value "The policy history is invalid.")
  raiseIf (∃ item ∈ value.history, ¬(1 ≤ item.revision ∧ item.revision ≤ value.revision))
    (.value "A policy history entry is invalid.")
  return value

def roleIds (roles : List Role) : Except Error (List Role) := do
  raiseIf (64 < roles.length) (.value "Select at most 64 distinct policy roles.")
  raiseIf (¬roles.Nodup) (.value "Select distinct policy roles.")
  return roles.mergeSort

namespace Database

variable {Archive : Type} (tools : Tools Archive) (s : Database Archive)

def state : Except Error PolicyState := stateValue s.policy

/-- Counts the revision up. The new state is not validated until it is read. -/
def bump : Except Error (Database Archive) := do
  let value ← s.state
  revisionCheck value.revision
  return { s with policy := { value with revision := value.revision + 1 } }

/-! ### Publishers -/

def untrusted : Error :=
  .failure "policy_publisher_untrusted" "The policy publisher is not trusted." 403

/-- The record of a publisher that is trusted now. -/
def publisher (identity : Identity) : Except Error Publisher := do
  let value ← orRaise (s.publishers.lookup identity) untrusted
  raiseIf (value.enabled = false) untrusted
  return value

def trust (identity : Identity) (key : Key) (enabled : Bool) (expected : ℕ) :
    Except Error (Database Archive) := do
  revisionCheck expected
  let old := s.publishers.lookup identity
  raiseIf (old.elim 0 Publisher.revision ≠ expected)
    (.failure "revision_conflict" "Publisher trust changed. Reload it before saving." 409)
  raiseIf (old.any (fun old => decide (old.publicKey ≠ key)) = true)
    (.failure "policy_key_changed" "Use a new publisher identifier for a different key." 409)
  raiseIf (old = none ∧ 64 ≤ s.publishers.rows.length)
    (.failure "capacity" "The policy publisher limit was reached." 409)
  let row : Publisher := ⟨identity, key, enabled, expected + 1⟩
  bump { s with publishers := s.publishers.insert identity row }

/-! ### Packages -/

/-- A stored package that its publisher, trusted now, has signed. -/
def package (digest : Digest) : Except Error Publisher := do
  let raw ← orRaise (s.packages.lookup digest)
    (.failure "not_found" "The policy package was not found." 404)
  raiseIf (tools.sha256 raw ≠ digest)
    (.failure "policy_changed" "The stored policy package does not match its digest." 409)
  let manifest ← tools.inspect raw
  let publisher ← s.publisher manifest
  tools.verify raw publisher.publicKey
  return publisher

def install (raw : Archive) : Except Error (Database Archive) := do
  let manifest ← tools.inspect raw
  let publisher ← s.publisher manifest
  tools.verify raw publisher.publicKey
  let digest := tools.sha256 raw
  if (s.packages.lookup digest).isSome then return s
  raiseIf (64 ≤ s.packages.rows.length)
    (.failure "capacity" "The policy package limit was reached." 409)
  return { s with packages := s.packages.insert digest raw }

/-! ### Bindings -/

def roles (project subject : Identity) : List Role :=
  ((s.bindings.lookup (project, subject)).map Binding.roles).getD []

def bind (project subject : Identity) (roles : List Role) (expected : ℕ) :
    Except Error (Database Archive) := do
  let roles ← roleIds roles
  revisionCheck expected
  let _ ← s.access.access subject project
  let old := s.bindings.lookup (project, subject)
  raiseIf (old.elim 0 Binding.revision ≠ expected)
    (.failure "revision_conflict" "Policy roles changed. Reload them before saving." 409)
  raiseIf (old = none ∧ 4096 ≤ s.bindings.rows.length)
    (.failure "capacity" "The policy role binding limit was reached." 409)
  bump { s with bindings := s.bindings.insert (project, subject) ⟨roles, expected + 1⟩ }

/-! ### Activation -/

/-- The last 64 items of a list. -/
def recent {α : Type} (items : List α) : List α := items.drop (items.length - 64)

def activate (digest : Digest) (expected : ℕ) : Except Error (Database Archive) := do
  let value ← s.state
  revisionCheck expected
  raiseIf (value.revision ≠ expected)
    (.failure "revision_conflict" "Policy state changed. Reload it before activation." 409)
  let value ← stateValue {
    revision := expected + 1
    required := true
    active := some digest
    previous := value.active
    history := recent (value.history ++ [⟨expected + 1, digest⟩]) }
  return { s with policy := value }

/-! ### What the operations do -/

variable {s} {s' : Database Archive}

theorem stateValue_eq_ok {value value' : PolicyState} (h : stateValue value = .ok value') :
    value' = value := by
  simp only [stateValue, bind_eq_ok, pure, Except.pure, Except.ok.injEq] at h
  obtain ⟨-, -, -, -, -, -, -, -, rfl⟩ := h
  rfl

theorem state_eq_ok {value : PolicyState} (h : s.state = .ok value) : value = s.policy :=
  stateValue_eq_ok h

/-- The revision has been counted up and nothing else has changed. -/
theorem bump_eq_ok (h : s.bump = .ok s') :
    s' = { s with policy := { s.policy with revision := s.policy.revision + 1 } } := by
  simp only [bump, bind_eq_ok, pure, Except.pure, Except.ok.injEq] at h
  obtain ⟨value, hvalue, -, -, rfl⟩ := h
  rw [state_eq_ok hvalue]

theorem publisher_eq_ok {identity : Identity} {value : Publisher}
    (h : s.publisher identity = .ok value) :
    s.publishers.lookup identity = some value ∧ value.enabled = true := by
  simp only [publisher, bind_eq_ok, orRaise_eq_ok, raiseIf_eq_ok, pure, Except.pure,
    Except.ok.injEq] at h
  obtain ⟨found, hfound, -, henabled, rfl⟩ := h
  exact ⟨hfound, by simpa using henabled⟩

/-- The record is written with a higher revision, and the revision of the state is counted up. -/
theorem trust_eq_ok {identity : Identity} {key : Key} {enabled : Bool} {expected : ℕ}
    (h : s.trust identity key enabled expected = .ok s') :
    (s.publishers.lookup identity).elim 0 Publisher.revision = expected ∧
      s' = { s with
        publishers := s.publishers.insert identity ⟨identity, key, enabled, expected + 1⟩
        policy := { s.policy with revision := s.policy.revision + 1 } } := by
  simp only [trust, bind_eq_ok, raiseIf_eq_ok, ne_eq, not_not] at h
  obtain ⟨-, -, -, hexpected, -, -, -, -, hbump⟩ := h
  exact ⟨hexpected, bump_eq_ok hbump⟩

theorem package_eq_ok {digest : Digest} {value : Publisher}
    (h : s.package tools digest = .ok value) :
    ∃ raw identity, s.packages.lookup digest = some raw ∧ tools.sha256 raw = digest ∧
      tools.inspect raw = .ok identity ∧ s.publisher identity = .ok value ∧
      tools.verify raw value.publicKey = .ok () := by
  simp only [package, bind_eq_ok, orRaise_eq_ok, raiseIf_eq_ok, ne_eq, not_not, pure, Except.pure,
    Except.ok.injEq] at h
  obtain ⟨raw, hraw, -, hhash, identity, hinspect, found, hfound, ⟨⟩, hverify, rfl⟩ := h
  exact ⟨raw, identity, hraw, hhash, hinspect, hfound, hverify⟩

theorem install_eq_ok {raw : Archive} (h : s.install tools raw = .ok s') :
    s' = { s with packages := s'.packages } := by
  simp only [install, bind_eq_ok] at h
  obtain ⟨identity, -, found, -, -, -, h⟩ := h
  split_ifs at h
  · obtain rfl := Except.ok.inj h
    rfl
  · simp only [bind_eq_ok, pure, Except.pure, Except.ok.injEq] at h
    obtain ⟨-, -, rfl⟩ := h
    rfl

theorem bind_database_eq_ok {project subject : Identity} {roles : List Role} {expected : ℕ}
    (h : s.bind project subject roles expected = .ok s') :
    s' = { s with
      bindings := s'.bindings
      policy := { s.policy with revision := s.policy.revision + 1 } } := by
  simp only [bind, bind_eq_ok] at h
  obtain ⟨sorted, -, -, -, -, -, -, -, -, -, hbump⟩ := h
  have hbump := bump_eq_ok hbump
  rw [hbump]

theorem activate_eq_ok {digest : Digest} {expected : ℕ} (h : s.activate digest expected = .ok s') :
    s.policy.revision = expected ∧ s' = { s with policy := s'.policy } ∧
      s'.policy.revision = expected + 1 ∧ s'.policy.required = true ∧
      s'.policy.active = some digest := by
  simp only [activate, bind_eq_ok, raiseIf_eq_ok, ne_eq, not_not, pure, Except.pure,
    Except.ok.injEq] at h
  obtain ⟨value, hvalue, -, -, -, hexpected, written, hwritten, rfl⟩ := h
  rw [state_eq_ok hvalue] at hexpected
  rw [stateValue_eq_ok hwritten]
  exact ⟨hexpected, rfl, rfl, rfl, rfl⟩

end Database

end Ficc.Policies
