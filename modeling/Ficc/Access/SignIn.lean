import Mathlib.Data.List.Sort
import Ficc.Access.Auth

/-!
# External sign-in

`remote_auth.py`, with `assertion` of `identity_provider.py` and `save` of
`external_identity_store.py`. A sign-in is begun for a browser, completed with a code, and bound to
a credential. Its assertion is renewed in batches by a worker thread, and a rotated credential takes
the binding with it. Credentials are rows of the database and bindings are kept in memory, so a
transaction that is rolled back takes back the one and not the other.

A binding is an object with a number, which is the number of its sign-in. Bindings refer to objects,
and a batch of renewals keeps the objects that it was made for. The secret of a browser is known by
its digest.

The last fields of `System` are never read: they record what happened.
-/

namespace Ficc.Access.External

open Execution (Identity)

/-! ### Assertions -/

/-- A row of `external_identities`. -/
structure Mapping where
  id : Identity
  subjectId : Identity
  disabled : Bool
  revision : ℕ
deriving DecidableEq

/-- An issuer and a subject of it. -/
abbrev Key : Type := String × String

/-- The fields of an assertion apart from the handle. -/
structure Claims where
  issuer : String
  subject : String
  authTime : ℕ
  expiresAt : ℕ
  validUntil : ℕ
deriving DecidableEq

structure Assertion extends Claims where
  handle : String
deriving DecidableEq

def Assertion.key (value : Assertion) : Key := (value.issuer, value.subject)

/-- `subject`. -/
def subjectFormed (value : String) : Bool :=
  1 ≤ value.length ∧ value.length ≤ 255 ∧
    value.toList.all fun char => 32 ≤ char.toNat ∧ char.toNat ≠ 127

/-- The pattern of a handle. -/
def handleFormed (value : String) : Bool :=
  32 ≤ value.length ∧ value.length ≤ 128 ∧
    value.toList.all fun char => char.isAlphanum ∨ char = '_' ∨ char = '-'

/-- What a renewal may not change. -/
def sameSession (value previous : Assertion) : Prop :=
  value.handle = previous.handle ∧ value.issuer = previous.issuer ∧
    value.subject = previous.subject ∧ value.authTime = previous.authTime ∧
    value.expiresAt = previous.expiresAt

instance (value previous : Assertion) : Decidable (sameSession value previous) :=
  inferInstanceAs (Decidable (_ ∧ _))

/-- `assertion`. A value with other fields, or with other types, is `none`. -/
def assertion (now : ℕ) (value : Option Assertion) (issuer : String)
    (previous : Option Assertion) : Except Error Assertion := do
  let value ← orRaise value
    (.value "The identity provider returned an invalid assertion.")
  raiseIf (value.issuer ≠ issuer) (.value "The identity provider returned an invalid assertion.")
  raiseIf (handleFormed value.handle = false)
    (.value "The external session handle is invalid.")
  raiseIf (subjectFormed value.subject = false)
    (.value "Use an external subject identifier of 1 to 255 characters.")
  raiseIf (¬(0 < value.authTime ∧ value.authTime ≤ now + 30) ∨
      ¬(now < value.validUntil ∧ value.validUntil ≤ now + 30) ∨
      ¬(value.validUntil ≤ value.expiresAt ∧ value.expiresAt ≤ now + 86400))
    (.value "The external authority expired or exceeds its verification lease.")
  raiseIf (∃ bound ∈ previous, ¬sameSession value bound)
    (.value "External renewal changed the bound identity or session lifetime.")
  return value

/-! ### State -/

/-- A driver that was loaded. -/
structure Provider where
  number : ℕ
  issuer : String
deriving DecidableEq

/-- A sign-in that was begun. -/
structure Pending where
  nonce : String
  verifier : String
  browser : String
  deadline : ℕ
  provider : ℕ
deriving DecidableEq

/-- A binding. -/
structure Bound where
  assertion : Assertion
  mapping : Mapping
deriving DecidableEq

/-- A sign-in whose code is with the provider, or that waits to be bound. -/
inductive Exchange
  | asked
  | verified (assertion : Assertion)
deriving DecidableEq

/-- A batch that is with the provider. -/
structure Renewal where
  provider : Option Provider
  batch : List ℕ
deriving DecidableEq

structure System where
  store : State
  mappings : Table Key Mapping
  provider : Option Provider
  /-- The number of drivers loaded so far. -/
  loaded : ℕ
  pending : Table String Pending
  exchanges : Table ℕ Exchange
  /-- The number of codes exchanged so far. -/
  started : ℕ
  objects : Table ℕ Bound
  bindings : Table Identity ℕ
  retired : List String
  /-- The bindings that are still to be renewed in this round. -/
  selected : List ℕ
  renewal : Option Renewal
  /-- The browser that each state was drawn for. -/
  begun : Table String String
  /-- The states that were consumed, with the browser of the request. -/
  exchanged : List (String × String)
  /-- The sign-in that each handle belongs to. -/
  handles : Table String ℕ
  /-- The assertions that were accepted, the latest first. -/
  accepted : List (ℕ × Assertion)
  saves : List Key
  /-- The mapping of each sign-in, and how many were saved before. -/
  signIns : Table ℕ (Key × ℕ)
  /-- The sign-in that a credential comes from. -/
  origins : Table Identity ℕ

/-- The controller has started. The sessions of the last start are deleted. -/
def System.initial (store : State) (mappings : Table Key Mapping) : System :=
  { store := store.deleteCredentials fun row => row.kind = .remote
    mappings, provider := none, loaded := 0, pending := ∅, exchanges := ∅, started := 0
    objects := ∅, bindings := ∅, retired := [], selected := [], renewal := none, begun := ∅
    exchanged := [], handles := ∅, accepted := [], saves := [], signIns := ∅, origins := ∅ }

namespace System

variable (s : System)

def now : ℕ := s.store.now

/-! ### Authentication -/

/-- `check`. -/
def check : ExternalCheck := fun credential subjectId =>
  match s.bindings.lookup credential with
  | none => false
  | some number =>
    match s.objects.lookup number with
    | none => false
    | some bound =>
      s.now < bound.assertion.validUntil ∧
        s.mappings.lookup bound.assertion.key = some bound.mapping ∧
        bound.mapping.disabled = false ∧ bound.mapping.subjectId = subjectId

def current (identity : Identity) : Except Error Principal := s.store.current s.check identity

def resolve (digest : Execution.Digest) (kinds : List CredentialKind) : Except Error Principal :=
  s.store.resolve s.check digest kinds

/-! ### Sign-in -/

/-- `start`, when the driver can be loaded. -/
def load (issuer : String) : System :=
  if s.provider.isSome then s
  else { s with provider := some ⟨s.loaded, issuer⟩, loaded := s.loaded + 1 }

/-- `begin`. The state is drawn at random and is a new one. -/
def begin (state browser nonce verifier : String) : System :=
  match s.provider with
  | none => s
  | some provider =>
    let pending := s.pending.discard fun _ value => value.deadline ≤ s.now
    if 128 ≤ pending.entries.length ∨ (s.begun.lookup state).isSome then { s with pending }
    else { s with
      pending := pending.insert state ⟨nonce, verifier, browser, s.now + 300, provider.number⟩
      begun := s.begun.insert state browser }

/-- The provider gives no address for the sign-in. -/
def abandon (state : String) : System := { s with pending := s.pending.erase state }

/-- `complete`, as far as the exchange of the code. -/
def complete (state browser : String) (issuer : Option String) (busy : Bool) : System :=
  let s' := { s with pending := s.pending.erase state }
  match s.pending.lookup state, s.provider with
  | some pending, some provider =>
    if pending.deadline ≤ s.now ∨ pending.browser ≠ browser ∨ pending.provider ≠ provider.number ∨
        (∃ named ∈ issuer, named ≠ provider.issuer) ∨ busy = true then s'
    else { s' with
      exchanges := s.exchanges.insert s.started .asked
      started := s.started + 1
      exchanged := s.exchanged ++ [(state, browser)] }
  | _, _ => s'

/-- The provider has answered, and its assertion is checked. -/
def accept (number : ℕ) (value : Option Assertion) : System :=
  match s.exchanges.lookup number with
  | some .asked =>
    let failed := { s with exchanges := s.exchanges.erase number }
    match s.provider with
    | none => failed
    | some provider =>
      match assertion s.now value provider.issuer none with
      | .error _ => failed
      | .ok value => { s with
          exchanges := s.exchanges.insert number (.verified value)
          handles := s.handles.insert value.handle number
          accepted := (number, value) :: s.accepted }
  | _ => s

/-- `projects`: the enabled projects that the user is a member of. -/
def projects (subjectId : Identity) : List Identity :=
  let rows := s.store.projects.rows.filter fun row =>
    row.2.disabled = false ∧ s.store.memberScopes row.1 subjectId ≠ []
  (rows.map Prod.fst).insertionSort fun first second => first.toNat ≤ second.toNat

def unapproved (message : String) : Error := .failure "identity_unapproved" message 403

/-- The transaction of `complete`, and the binding that is made in it. -/
def enrolled (number : ℕ) (assertion : Assertion) (draw : State.Draw) : Except Error System := do
  let mapping ← orRaise (s.mappings.lookup assertion.key)
    (unapproved "An administrator must approve this identity before sign-in.")
  raiseIf (mapping.disabled = true ∨ mapping.subjectId = LOCAL_OWNER)
    (unapproved "An administrator must approve this identity before sign-in.")
  let user ← s.store.user mapping.subjectId
  raiseIf (user.disabled = true) (unapproved "This local identity is disabled.")
  let project ← orRaise (s.projects mapping.subjectId).head?
    (unapproved "An administrator must assign this identity to a project.")
  let lifetime := max 1 (assertion.expiresAt - s.now)
  let store ← s.store.issue
    { kind := .remote, lifetime, subjectId := mapping.subjectId, projectId := project } draw []
  return { s with
    store
    objects := s.objects.insert number ⟨assertion, mapping⟩
    bindings := s.bindings.insert draw.id number
    signIns := s.signIns.insert number (assertion.key, s.saves.length)
    origins := s.origins.insert draw.id number }

/-- How a transaction ends: it is committed, it is rolled back, or it is committed and the commit
raises. -/
inductive Commit
  | done | rolledBack | lost
deriving DecidableEq

/-- The random values of a transaction that was rolled back are not drawn again. -/
def spent (store : State) (draw : State.Draw) : State :=
  { store with drawn := (draw.id :: store.drawn.1, draw.digest :: store.drawn.2) }

/-- The rest of `complete`. -/
def enroll (number : ℕ) (draw : State.Draw) (commit : Commit) : System :=
  match s.exchanges.lookup number with
  | some (.verified assertion) =>
    let s := { s with exchanges := s.exchanges.erase number }
    let failed := { s with retired := assertion.handle :: s.retired }
    match s.enrolled number assertion draw with
    | .error _ => failed
    | .ok s' =>
      match commit with
      | .done => s'
      | .rolledBack => { failed with store := spent s.store draw }
      | .lost => { failed with store := s'.store }
  | _ => s

/-! ### Rotation and revocation -/

/-- `rotate`. -/
def rotate (previous current : Identity) : System :=
  match s.bindings.lookup previous with
  | none => s
  | some number => { s with
      bindings := (s.bindings.erase previous).insert current number
      origins := s.origins.insert current number }

/-- `switch_project`. The new credential is checked by the binding of the old one. -/
def switchProject (identity project : Identity) (draw : State.Draw) (commit : Commit) : System :=
  let external : ExternalCheck := fun credential subjectId =>
    s.check (if credential = draw.id then identity else credential) subjectId
  match s.store.switchProject external identity project draw, s.store.credentials.lookup identity
  with
  | .ok store, some row =>
    let moved := if row.kind = .remote then s.rotate identity draw.id else s
    match commit with
    | .rolledBack => { moved with store := spent s.store draw }
    | _ => { moved with store }
  | _, _ => s

/-- `remove`. -/
def remove (credential : Identity) : System :=
  match s.bindings.lookup credential with
  | none => s
  | some number =>
    let handle := (s.objects.lookup number).map fun bound => bound.assertion.handle
    { s with
      bindings := s.bindings.erase credential
      retired := handle.toList ++ s.retired }

/-- Where `revoke` raises: when the row is deleted, between the row and the binding, or after
both. -/
inductive Fault
  | none | refused | cut | late
deriving DecidableEq

/-- `revoke`. -/
def revoke (credential : Identity) (fault : Fault) : System :=
  let deleted := { s with store := s.store.revoke credential }
  match fault with
  | .refused => s
  | .cut => deleted
  | _ => deleted.remove credential

/-- Revokes one after the other, until one raises. The flag says that none did. -/
def revokeAll (faults : Identity → Fault) : List Identity → System → System × Bool
  | [], s => (s, true)
  | credential :: rest, s =>
    let s := s.revoke credential (faults credential)
    if faults credential = .none then revokeAll faults rest s else (s, false)

/-! ### Renewal -/

/-- Revokes what does not authenticate any more. -/
def sweep (faults : Identity → Fault) : List Identity → System → System × Bool
  | [], s => (s, true)
  | credential :: rest, s =>
    if faults credential = .refused then (s, false) else
    match s.current credential with
    | .ok _ => sweep faults rest s
    | .error _ =>
      let s := s.revoke credential (faults credential)
      if faults credential = .none then sweep faults rest s else (s, false)

/-- The first part of a round of `poll`. -/
def poll (faults : Identity → Fault) : System :=
  if s.provider.isNone ∨ s.renewal.isSome then s else
  match sweep faults (s.bindings.rows.map Prod.fst) s with
  | (s, true) => { s with selected := s.bindings.values }
  | (s, false) => { s with selected := [] }

/-- `renew`, as far as the request. -/
def renew : System :=
  if s.renewal.isSome ∨ s.selected = [] then s
  else { s with
    renewal := some ⟨s.provider, s.selected.take 64⟩
    selected := s.selected.drop 64 }

/-- One value of the answer to a batch. -/
structure Value where
  handle : String
  valid : Bool
  /-- The other fields, when they are those of an assertion. -/
  claims : Option Claims
  /-- There are no other fields. -/
  bare : Bool
deriving DecidableEq

/-- What a value says about a binding: a new assertion, or that it is refused. -/
def renewed (issuer : String) (previous : Assertion) (value : Value) :
    Except Error (Option Assertion) :=
  if value.valid then do
    let claimed := value.claims.map fun claims => (⟨claims, value.handle⟩ : Assertion)
    let checked ← assertion s.now claimed issuer (some previous)
    return some checked
  else do
    raiseIf (value.bare = false) (.value "Invalid renewal refusal")
    return none

/-- What the values of a batch say. Nothing is an answer that raised, or another type. -/
def checkedValues (renewal : Renewal) (values : Option (List (Option Value))) :
    Except Error (List (ℕ × Option Assertion)) := do
  let provider ← orRaise renewal.provider (.value "Identity provider unavailable")
  let values ← orRaise values (.value "Invalid renewal batch")
  raiseIf (values.length ≠ renewal.batch.length) (.value "Invalid renewal batch")
  (renewal.batch.zip values).mapM fun pair => do
    let bound ← orRaise (s.objects.lookup pair.1) (.value "Invalid renewal batch")
    let value ← orRaise pair.2 (.value "Invalid renewal batch")
    raiseIf (value.handle ≠ bound.assertion.handle) (.value "Invalid renewal batch")
    let result ← s.renewed provider.issuer bound.assertion value
    return (pair.1, result)

/-- A batch that raises refuses everything in it. -/
def checked (renewal : Renewal) (values : Option (List (Option Value))) :
    List (ℕ × Option Assertion) :=
  match s.checkedValues renewal values with
  | .ok checked => checked
  | .error _ => renewal.batch.map fun number => (number, none)

/-- The credentials with a binding. -/
def active (number : ℕ) : List Identity :=
  (s.bindings.rows.filter fun row => row.2 = number).map Prod.fst

/-- `previous["assertion"] = result`. -/
def update (number : ℕ) (value : Assertion) : System :=
  { s with
    objects := s.objects.modify number fun bound => { bound with assertion := value }
    accepted := (number, value) :: s.accepted }

/-- What is done with the checked values, until a revocation raises. -/
def settle (faults : Identity → Fault) : List (ℕ × Option Assertion) → System → System
  | [], s => s
  | (number, none) :: rest, s =>
    match revokeAll faults (s.active number) s with
    | (s, true) => settle faults rest s
    | (s, false) => s
  | (number, some value) :: rest, s =>
    settle faults rest (if s.active number = [] then s else s.update number value)

/-- The rest of `renew`. -/
def answer (values : Option (List (Option Value))) (faults : Identity → Fault) : System :=
  match s.renewal with
  | none => s
  | some renewal =>
    settle faults (s.checked renewal values) { s with renewal := none }

/-- Handles that the provider is asked to forget. -/
def forget (handles : List String) : System :=
  { s with retired := s.retired.filter fun handle => handle ∉ handles }

/-! ### Administration -/

/-- `save`. The flag says that the issuer is a complete address. -/
def save (key : Key) (subjectId : Identity) (disabled : Bool) (revision : ℕ) (drawn : Identity)
    (formed : Bool) : System :=
  let before := s.mappings.lookup key
  if formed = false ∨ subjectFormed key.2 = false ∨ subjectId = LOCAL_OWNER ∨
      s.store.users.lookup subjectId = none ∨ (before.map Mapping.revision).getD 0 ≠ revision ∨
      before = none ∧ 1024 ≤ s.mappings.entries.length then s
  else { s with
    mappings := s.mappings.insert key
      ⟨(before.map Mapping.id).getD drawn, subjectId, disabled, revision + 1⟩
    saves := s.saves ++ [key] }

/-- An event that has nothing to do with external sessions. -/
def ordinary : Event → Bool
  | .issue arguments _ => arguments.kind ≠ .remote
  | .revoke _ => false
  | .switchProject _ _ _ _ => false
  | .retireRemote => false
  | _ => true

/-- Another event of the database, or the clock. -/
def local_ (event : Event) : System :=
  if ordinary event then { s with store := Access.step s.store event } else s

/-- `close`. -/
def close : System :=
  { s with pending := ∅, bindings := ∅, retired := [], provider := none }

/-- The controller stops and starts again. -/
def restart : System :=
  { s with
    store := s.store.deleteCredentials fun row => row.kind = .remote
    provider := none, pending := ∅, exchanges := ∅, objects := ∅, bindings := ∅, retired := []
    selected := [], renewal := none }

end System

inductive Action
  | load (issuer : String)
  | begin (state browser nonce verifier : String)
  | abandon (state : String)
  | complete (state browser : String) (issuer : Option String) (busy : Bool)
  | accept (number : ℕ) (value : Option Assertion)
  | enroll (number : ℕ) (draw : State.Draw) (commit : System.Commit)
  | switchProject (identity project : Identity) (draw : State.Draw) (commit : System.Commit)
  | revoke (credential : Identity) (fault : System.Fault)
  | poll (faults : Identity → System.Fault)
  | renew
  | answer (values : Option (List (Option System.Value))) (faults : Identity → System.Fault)
  | forget (handles : List String)
  | save (key : Key) (subjectId : Identity) (disabled : Bool) (revision : ℕ) (drawn : Identity)
    (formed : Bool)
  | local_ (event : Event)
  | close
  | restart

def step (s : System) : Action → System
  | .load issuer => s.load issuer
  | .begin state browser nonce verifier => s.begin state browser nonce verifier
  | .abandon state => s.abandon state
  | .complete state browser issuer busy => s.complete state browser issuer busy
  | .accept number value => s.accept number value
  | .enroll number draw commit => s.enroll number draw commit
  | .switchProject identity project draw commit => s.switchProject identity project draw commit
  | .revoke credential fault => s.revoke credential fault
  | .poll faults => s.poll faults
  | .renew => s.renew
  | .answer values faults => s.answer values faults
  | .forget handles => s.forget handles
  | .save key subjectId disabled revision drawn formed =>
    s.save key subjectId disabled revision drawn formed
  | .local_ event => s.local_ event
  | .close => s.close
  | .restart => s.restart

end Ficc.Access.External
