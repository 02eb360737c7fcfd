import Ficc.Access.Containment
import Ficc.Workloads.Delegations

/-!
# Delegations are faithful

A delegation gives a principal only while nothing that it rests on has changed: each row has a
revision that grows with every change and never falls, so equal revisions at two moments mean that
the row has been the same all the time in between. What the principal is permitted lies within
what was captured and what the membership gives now.

The principal of a delegation has none of the machines and folders of its project. It reads what
its submitter can read exactly when the submitter is the local owner, who needs none.
-/

namespace Ficc.Workloads.Delegations

open Execution (Identity Digest)
open Access (Scope Principal ExternalCheck LOCAL_OWNER Party Membership)
open Policies (Database Tools Binding)

variable {Archive : Type}

/-! ### Versions -/

section Rises

variable {α : Type} (version : α → ℕ)

/-- The value is the same, or its version has grown. -/
def Rises (a b : α) : Prop := b = a ∨ version a < version b

variable {version} {a b c : α}

theorem Rises.refl (a : α) : Rises version a a := .inl rfl

theorem Rises.trans (h : Rises version a b) (h' : Rises version b c) : Rises version a c := by
  obtain rfl | hlt := h
  · exact h'
  · obtain rfl | hlt' := h'
    · exact .inr hlt
    · exact .inr (hlt.trans hlt')

/-- A value of the same version is the same value. -/
theorem Rises.eq (h : Rises version a b) (heq : version b = version a) : b = a := by
  obtain heq' | hlt := h
  · exact heq'
  · omega

/-- Between two moments of the same version the value has not changed either. -/
theorem Rises.between (h : Rises version a b) (h' : Rises version b c)
    (heq : version c = version a) : b = a := by
  refine h.eq ?_
  obtain rfl | hlt := h
  · rfl
  · obtain rfl | hlt' := h'
    · exact heq
    · omega

end Rises

/-- The version of a user or a project. One that is created has grown. -/
def partyVersion (row : Option Party) : ℕ := row.elim 0 fun row => row.revision + 1

def membershipVersion (row : Option Membership) : ℕ := row.elim 0 Membership.revision

def bindingVersion (row : Option Binding) : ℕ := row.elim 0 Binding.revision

/-- What later states of the identities keep. -/
structure PartiesGrow (s s' : Access.State) : Prop where
  users : ∀ identity, Rises partyVersion (s.users.lookup identity) (s'.users.lookup identity)
  projects : ∀ identity,
    Rises partyVersion (s.projects.lookup identity) (s'.projects.lookup identity)
  memberships : ∀ key,
    Rises membershipVersion (s.memberships.lookup key) (s'.memberships.lookup key)

theorem PartiesGrow.of_eq {s s' : Access.State} (husers : s'.users = s.users)
    (hprojects : s'.projects = s.projects) (hmemberships : s'.memberships = s.memberships) :
    PartiesGrow s s' where
  users _ := by rw [husers]; exact .refl _
  projects _ := by rw [hprojects]; exact .refl _
  memberships _ := by rw [hmemberships]; exact .refl _

theorem rises_insert {κ α : Type} [DecidableEq κ] {version : Option α → ℕ} {t : Table κ α}
    {key : κ} {row : α} (h : version (t.lookup key) < version (some row)) (key' : κ) :
    Rises version (t.lookup key') ((t.insert key row).lookup key') := by
  rw [Table.lookup_insert_eq]
  split_ifs with heq
  · exact heq ▸ .inr h
  · exact .refl _

theorem parties_insertCredential {s s' : Access.State} {draw : Access.State.Draw}
    {row : Access.Credential} {issued : List Access.Grant}
    (h : s.insertCredential draw row issued = .ok s') : PartiesGrow s s' := by
  simp only [Access.State.insertCredential, bind_eq_ok, pure, Except.pure, Except.ok.injEq] at h
  obtain ⟨-, -, rfl⟩ := h
  exact .of_eq rfl rfl rfl

theorem parties_issue {s s' : Access.State} {arguments : Access.State.Issue}
    {draw : Access.State.Draw} {issued : List Access.Grant}
    (h : s.issue arguments draw issued = .ok s') : PartiesGrow s s' := by
  simp only [Access.State.issue, bind_eq_ok] at h
  obtain ⟨_, -, _, -, _, -, _, -, _, -, _, -, _, -, _, -, _, -, hinsert⟩ := h
  obtain ⟨husers, hprojects, hmemberships⟩ := parties_insertCredential hinsert
  exact ⟨husers, hprojects, hmemberships⟩

/-- What one event does to users, projects and memberships. -/
theorem parties_perform {s s' : Access.State} {event : Access.Event}
    (h : Access.perform s event = .ok s') : PartiesGrow s s' := by
  cases event with
  | tick seconds =>
    obtain rfl := Except.ok.inj h
    exact .of_eq rfl rfl rfl
  | create kind label drawn =>
    simp only [Access.perform, Access.State.create, bind_eq_ok] at h
    obtain ⟨-, -, h⟩ := h
    cases kind with
    | user =>
      simp only [bind_eq_ok, raiseIf_eq_ok, pure, Except.pure, Except.ok.injEq, ne_eq,
        not_not] at h
      obtain ⟨-, -, -, hnone, rfl⟩ := h
      exact ⟨rises_insert (by simp [hnone, partyVersion]), fun _ => .refl _, fun _ => .refl _⟩
    | project =>
      simp only [bind_eq_ok, raiseIf_eq_ok, pure, Except.pure, Except.ok.injEq, ne_eq,
        not_not] at h
      obtain ⟨-, -, -, hnone, rfl⟩ := h
      exact ⟨fun _ => .refl _, rises_insert (by simp [hnone, partyVersion]), fun _ => .refl _⟩
  | update kind identity label disabled revision =>
    simp only [Access.perform, Access.State.update, bind_eq_ok, pure, Except.pure,
      Except.ok.injEq] at h
    obtain ⟨-, -, -, -, before, hbefore, -, -, rfl⟩ := h
    have hput : PartiesGrow s (s.putParty kind identity
        ⟨Access.State.strip label, disabled, before.revision + 1⟩) := by
      cases kind with
      | user =>
        have hlookup : s.users.lookup identity = some before := by
          simpa [Access.State.party, Access.State.user] using hbefore
        exact ⟨rises_insert (by simp [hlookup, partyVersion]), fun _ => .refl _, fun _ => .refl _⟩
      | project =>
        have hlookup : s.projects.lookup identity = some before := by
          simpa [Access.State.party, Access.State.project] using hbefore
        exact ⟨fun _ => .refl _, rises_insert (by simp [hlookup, partyVersion]), fun _ => .refl _⟩
    split
    · cases kind <;> exact ⟨hput.users, hput.projects, hput.memberships⟩
    · exact hput
  | membership project subject scopes revision =>
    simp only [Access.perform, Access.State.membership, bind_eq_ok, raiseIf_eq_ok, pure,
      Except.pure, Except.ok.injEq, ne_eq, not_not] at h
    obtain ⟨-, -, -, -, -, -, -, -, -, hrevision, -, -, rfl⟩ := h
    have hrow : PartiesGrow s { s with
        memberships := s.memberships.insert (project, subject)
          ⟨scopes.dedup, revision + 1⟩ } := by
      refine ⟨fun _ => .refl _, fun _ => .refl _, rises_insert ?_⟩
      cases hlookup : s.memberships.lookup (project, subject) with
      | none => exact Nat.succ_pos _
      | some row =>
        rw [hlookup] at hrevision
        simp only [Option.map_some, Option.getD_some] at hrevision
        simp only [membershipVersion, Option.elim_some]
        omega
    split
    · exact ⟨hrow.users, hrow.projects, hrow.memberships⟩
    · exact hrow
  | assign project nodes roots revision =>
    simp only [Access.perform, Access.State.assign, bind_eq_ok, pure, Except.pure,
      Except.ok.injEq] at h
    obtain ⟨-, -, -, -, -, -, -, -, -, -, rfl⟩ := h
    exact .of_eq rfl rfl rfl
  | registerNode node =>
    obtain rfl := Except.ok.inj h
    exact .of_eq rfl rfl rfl
  | registerRoot root node =>
    obtain rfl := Except.ok.inj h
    exact .of_eq rfl rfl rfl
  | removeResource kind identity =>
    obtain rfl := Except.ok.inj h
    cases kind <;> exact .of_eq rfl rfl rfl
  | issue arguments draw => exact parties_issue h
  | consume external digest =>
    simp only [Access.perform, Access.State.consume, bind_eq_ok, pure, Except.pure,
      Except.ok.injEq] at h
    obtain ⟨-, -, rfl⟩ := h
    exact .of_eq rfl rfl rfl
  | login pending draw =>
    simp only [Access.perform, Access.State.login, bind_eq_ok] at h
    obtain ⟨-, -, h⟩ := h
    obtain ⟨husers, hprojects, hmemberships⟩ := parties_issue h
    exact ⟨husers, hprojects, hmemberships⟩
  | revoke identity =>
    obtain rfl := Except.ok.inj h
    exact .of_eq rfl rfl rfl
  | switchProject external identity project draw =>
    simp only [Access.perform, Access.State.switchProject, bind_eq_ok, orRaise_eq_ok, pure,
      Except.pure, Except.ok.injEq] at h
    obtain ⟨_, -, _, -, _, -, _, -, inserted, hinsert, -, -, rfl⟩ := h
    obtain ⟨husers, hprojects, hmemberships⟩ := parties_insertCredential hinsert
    exact ⟨husers, hprojects, hmemberships⟩
  | retireRemote =>
    obtain rfl := Except.ok.inj h
    exact .of_eq rfl rfl rfl

/-- An event lets the versions of the parties rise. -/
theorem parties_step (s : Access.State) (event : Access.Event) :
    PartiesGrow s (Access.step s event) := by
  unfold Access.step
  split
  · rename_i h
    exact parties_perform h
  · exact .of_eq rfl rfl rfl

/-- What later states keep. -/
structure Grows (s s' : Site Archive) : Prop where
  access : PartiesGrow s.database.access s'.database.access
  bindings : ∀ key, Rises bindingVersion (s.database.bindings.lookup key)
    (s'.database.bindings.lookup key)

theorem Grows.refl (s : Site Archive) : Grows s s :=
  ⟨.of_eq rfl rfl rfl, fun _ => .refl _⟩

theorem Grows.trans {s s' s'' : Site Archive} (h : Grows s s') (h' : Grows s' s'') :
    Grows s s'' where
  access := {
    users := fun identity => (h.access.users identity).trans (h'.access.users identity)
    projects := fun identity => (h.access.projects identity).trans (h'.access.projects identity)
    memberships := fun key => (h.access.memberships key).trans (h'.access.memberships key) }
  bindings key := (h.bindings key).trans (h'.bindings key)

theorem Grows.of_eq {s s' : Site Archive} (haccess : s'.database.access = s.database.access)
    (hbindings : s'.database.bindings = s.database.bindings) : Grows s s' := by
  refine ⟨?_, fun key => ?_⟩
  · rw [haccess]
    exact .of_eq rfl rfl rfl
  · rw [hbindings]
    exact .refl _

variable {project subject actor drawn : Identity} {external : ExternalCheck}
  {nodeIds : List Identity} {principal : Principal}

theorem bindings_bind {d d' : Database Archive} {roles : List Policies.Role} {expected : ℕ}
    (h : d.bind project subject roles expected = .ok d') :
    d'.access = d.access ∧ ∀ key, Rises bindingVersion (d.bindings.lookup key)
      (d'.bindings.lookup key) := by
  simp only [Database.bind, bind_eq_ok, raiseIf_eq_ok, ne_eq, not_not] at h
  obtain ⟨sorted, -, _, -, _, -, _, hexpected, _, -, hbump⟩ := h
  rw [Database.bump_eq_ok hbump]
  refine ⟨rfl, rises_insert ?_⟩
  have hversion : bindingVersion (d.bindings.lookup (project, subject)) = expected := hexpected
  rw [hversion]
  exact Nat.lt_succ_self expected

/-- A change lets every revision rise. -/
theorem grows_step (tools : Tools Archive) (s : Site Archive) (change : Change Archive) :
    Grows s (step tools s change) := by
  cases change with
  | access event => exact ⟨parties_step _ event, fun _ => .refl _⟩
  | bind project subject roles expected =>
    simp only [step, transact]
    split
    · rename_i database h
      obtain ⟨haccess, hbindings⟩ := bindings_bind h
      refine ⟨?_, hbindings⟩
      rw [haccess]
      exact .of_eq rfl rfl rfl
    · exact .refl s
  | trust identity key enabled expected =>
    simp only [step, transact]
    split
    · rename_i database h
      obtain ⟨-, rfl⟩ := Database.trust_eq_ok h
      exact .of_eq rfl rfl
    · exact .refl s
  | install raw =>
    simp only [step, transact]
    split
    · rename_i database h
      have heq := Database.install_eq_ok tools h
      have haccess : database.access = s.database.access := by rw [heq]
      have hbindings : database.bindings = s.database.bindings := by rw [heq]
      exact .of_eq haccess hbindings
    · exact .refl s
  | activate digest expected =>
    simp only [step, transact]
    split
    · rename_i database h
      obtain ⟨-, heq, -⟩ := Database.activate_eq_ok h
      have haccess : database.access = s.database.access := by rw [heq]
      have hbindings : database.bindings = s.database.bindings := by rw [heq]
      exact .of_eq haccess hbindings
    · exact .refl s
  | contributor identity value => exact .of_eq rfl rfl
  | register identity root =>
    exact ⟨parties_step s.database.access (.registerRoot identity root.nodeId), fun _ => .refl _⟩
  | unregister identity =>
    exact ⟨parties_step s.database.access (.removeResource .roots identity), fun _ => .refl _⟩
  | dataset identity value => exact .of_eq rfl rfl

/-- So does a run. -/
theorem grows_run (tools : Tools Archive) (s : Site Archive) (changes : List (Change Archive)) :
    Grows s (run (step tools) s changes) :=
  run_relates (I := fun _ => True) .refl .trans (fun _ _ _ => trivial)
    (fun s change _ => grows_step tools s change) trivial changes

/-! ### What a delegation rests on -/

/-- The subject, the project, the membership and the roles are what they were. -/
structure Unchanged (s s' : Site Archive) (subject project : Identity) : Prop where
  user : s'.database.access.users.lookup subject = s.database.access.users.lookup subject
  space : s'.database.access.projects.lookup project =
    s.database.access.projects.lookup project
  membership : s'.database.access.memberships.lookup (project, subject) =
    s.database.access.memberships.lookup (project, subject)
  roles : s'.database.bindings.lookup (project, subject) =
    s.database.bindings.lookup (project, subject)

/-- What a stamp says about the rows. -/
structure Stamped (s : Site Archive) (subject project : Identity) (stamp : Stamp) : Prop where
  user : ∃ row, s.database.access.users.lookup subject = some row ∧
    stamp.subjectRevision = row.revision
  space : ∃ row, s.database.access.projects.lookup project = some row ∧
    stamp.projectRevision = row.revision
  membership : stamp.membershipRevision =
    membershipVersion (s.database.access.memberships.lookup (project, subject))
  roles : stamp.roleRevision = bindingVersion (s.database.bindings.lookup (project, subject))

theorem stamp_eq_ok {tools : Tools Archive} {s : Site Archive} {scopes : List Scope} {stamp : Stamp}
    (h : s.stamp tools subject project = .ok (scopes, stamp)) :
    s.database.access.access subject project = .ok scopes ∧ Stamped s subject project stamp := by
  simp only [Site.stamp, bind_eq_ok, pure, Except.pure, Except.ok.injEq, Prod.mk.injEq,
    Access.State.user, Access.State.project, orRaise_eq_ok] at h
  obtain ⟨found, haccess, user, huser, space, hspace, state, -, _, -, rfl, rfl⟩ := h
  exact ⟨haccess, ⟨user, huser, rfl⟩, ⟨space, hspace, rfl⟩, rfl, rfl⟩

/-- Two equal stamps at the two ends of a run: the rows have not changed at any moment of it. -/
theorem Unchanged.of_stamps {s mid s' : Site Archive} {stamp stamp' : Stamp} (hfirst : Grows s mid)
    (hlast : Grows mid s') (h : Stamped s subject project stamp)
    (h' : Stamped s' subject project stamp')
    (hsubject : stamp'.subjectRevision = stamp.subjectRevision)
    (hproject : stamp'.projectRevision = stamp.projectRevision)
    (hmembership : stamp'.membershipRevision = stamp.membershipRevision)
    (hroles : stamp'.roleRevision = stamp.roleRevision) : Unchanged s mid subject project := by
  obtain ⟨user, huser, hrevision⟩ := h.user
  obtain ⟨user', huser', hrevision'⟩ := h'.user
  obtain ⟨space, hspace, hversion⟩ := h.space
  obtain ⟨space', hspace', hversion'⟩ := h'.space
  refine ⟨?_, ?_, ?_, ?_⟩
  · refine (hfirst.access.users subject).between (hlast.access.users subject) ?_
    rw [huser, huser']
    simp only [partyVersion, Option.elim_some]
    omega
  · refine (hfirst.access.projects project).between (hlast.access.projects project) ?_
    rw [hspace, hspace']
    simp only [partyVersion, Option.elim_some]
    omega
  · refine (hfirst.access.memberships _).between (hlast.access.memberships _) ?_
    rw [← h'.membership, ← h.membership, hmembership]
  · refine (hfirst.bindings _).between (hlast.bindings _) ?_
    rw [← h'.roles, ← h.roles, hroles]

/-- What a capture has read. -/
theorem capture_eq_ok {tools : Tools Archive} {s : Site Archive} {policy : PolicyCheck}
    {delegation : Delegation}
    (h : s.capture tools external policy actor nodeIds drawn = .ok delegation) :
    ∃ current scopes, s.database.access.current external actor = .ok current ∧
      s.stamp tools delegation.subjectId delegation.projectId =
        .ok (scopes, Site.kept delegation) ∧
      current.nodeIds = none ∧ current.rootIds = none ∧
      delegation.subjectId = current.subjectId ∧ delegation.projectId = current.projectId ∧
      delegation.scopes = current.scopes := by
  simp only [Site.capture, bind_eq_ok, raiseIf_eq_ok, not_or, ne_eq, not_not, pure, Except.pure,
    Except.ok.injEq] at h
  obtain ⟨current, hcurrent, -, -, -, -, -, ⟨hnodes, hroots⟩, ⟨scopes, stamp⟩, hstamp, -, -, rfl⟩ := h
  exact ⟨current, scopes, hcurrent, hstamp, hnodes, hroots, rfl, rfl, rfl⟩

/-- What has been checked when a delegation gives a principal. -/
theorem current_eq_ok {tools : Tools Archive} {s : Site Archive} {delegation : Delegation}
    (h : s.current tools delegation = .ok principal) :
    ∃ scopes stamp, s.stamp tools delegation.subjectId delegation.projectId =
        .ok (scopes, stamp) ∧
      { Site.kept delegation with policyRevision := stamp.policyRevision } = stamp ∧
      principal.scopes = delegation.scopes.filter (· ∈ scopes) ∧ principal.nodeIds = none ∧
      principal.rootIds = none ∧ principal.subjectId = delegation.subjectId ∧
      principal.projectId = delegation.projectId ∧ principal.projectNodes = [] ∧
      principal.projectRoots = [] := by
  simp only [Site.current, bind_eq_ok, raiseIf_eq_ok, ne_eq, not_not, pure, Except.pure,
    Except.ok.injEq] at h
  obtain ⟨⟨scopes, stamp⟩, hstamp, -, hsame, rfl⟩ := h
  exact ⟨scopes, stamp, hstamp, hsame, rfl, rfl, rfl, rfl, rfl, rfl, rfl⟩

/-- The scopes of a member are scopes of the membership. -/
theorem access_eq_ok {s : Access.State} {scopes : List Scope}
    (h : s.access subject project = .ok scopes) :
    (subject = LOCAL_OWNER → scopes = Access.SCOPES) ∧
      (subject ≠ LOCAL_OWNER → scopes =
        (s.memberScopes project subject).filter (· ∈ Access.PROJECT_SCOPES)) := by
  simp only [Access.State.access, bind_eq_ok] at h
  obtain ⟨_, -, _, -, _, -, h⟩ := h
  split_ifs at h with howner
  · exact ⟨fun _ => (Except.ok.inj h).symm, fun hne => absurd howner hne⟩
  · simp only [bind_eq_ok, pure, Except.pure, Except.ok.injEq] at h
    obtain ⟨-, -, rfl⟩ := h
    exact ⟨fun heq => absurd heq howner, fun _ => rfl⟩

/-- A principal of a delegation: nothing has changed at any moment since the capture, and what it
is permitted was captured and is still given. -/
theorem current_unchanged {tools : Tools Archive} {s : Site Archive} {policy : PolicyCheck}
    {delegation : Delegation}
    (h : s.capture tools external policy actor nodeIds drawn = .ok delegation)
    (first rest : List (Change Archive))
    (hcurrent : (run (step tools) s (first ++ rest)).current tools delegation = .ok principal) :
    Unchanged s (run (step tools) s first) delegation.subjectId delegation.projectId ∧
      ∀ scope ∈ principal.scopes, scope ∈ delegation.scopes ∧
        (delegation.subjectId ≠ LOCAL_OWNER →
          scope ∈ (run (step tools) s (first ++ rest)).database.access.memberScopes
            delegation.projectId delegation.subjectId) := by
  obtain ⟨-, captured, -, hkept, -⟩ := capture_eq_ok h
  obtain ⟨scopes, stamp, hstamp, hsame, hscopes, -⟩ := current_eq_ok hcurrent
  obtain ⟨-, hfirst⟩ := stamp_eq_ok hkept
  obtain ⟨haccess, hlast⟩ := stamp_eq_ok hstamp
  rw [run_append] at hlast
  constructor
  · exact .of_stamps (grows_run tools s first) (grows_run tools _ rest) hfirst hlast
      (congrArg Stamp.subjectRevision hsame).symm (congrArg Stamp.projectRevision hsame).symm
      (congrArg Stamp.membershipRevision hsame).symm (congrArg Stamp.roleRevision hsame).symm
  · intro scope hscope
    rw [hscopes, List.mem_filter] at hscope
    refine ⟨hscope.1, fun hmember => ?_⟩
    have hgiven : scope ∈ scopes := of_decide_eq_true hscope.2
    rw [(access_eq_ok haccess).2 hmember, List.mem_filter] at hgiven
    exact hgiven.1

/-! ### Reading datasets -/

section Reading

variable {s : Site Archive} {actor : Actor} {identity : Identity}

variable {node : Option Identity} {principal : Principal} {scope : Scope} {value : Dataset}

theorem requireHost_iff {root : Option Identity} :
    principal.requireHost scope node root = .ok () ↔ scope ∈ principal.scopes ∧
      (∀ n, node = some n → principal.permitsNode n) ∧
      ∀ r, root = some r → ¬principal.deniesRoot node r := by
  refine ⟨Access.Principal.requireHost_eq_ok, fun ⟨hscope, hnode, hroot⟩ => ?_⟩
  simp only [Access.Principal.requireHost, raiseIf_eq_ok, not_or, not_not]
  refine ⟨hscope, ?_, ?_⟩
  · cases node with
    | none => simp
    | some n => simpa using hnode n rfl
  · cases root with
    | none => simp
    | some r => simpa using hroot r rfl

/-- Whatever policy is checked, the grants of the host are checked first. -/
theorem require_host {policy : Option PolicyCheck} {root : Option Identity}
    (h : require policy principal scope node root = .ok ()) :
    principal.requireHost scope node root = .ok () := by
  simp only [require, bind_eq_ok] at h
  obtain ⟨_, hhost, -⟩ := h
  exact hhost

theorem require_none {root : Option Identity} (h : principal.requireHost scope node root = .ok ()) :
    require none principal scope node root = .ok () := by
  simp only [require, h, ok_bind]

/-- What is checked of a file. -/
theorem capability_eq_ok {source : Source} (h : s.capability actor source = .ok ()) :
    ∃ root current, s.roots.lookup source.rootId = some root ∧ actor.current = .ok current ∧
      current.requireHost "files:read" root.nodeId (some source.rootId) = .ok () ∧
      source.provider.getD s.provider = s.provider ∧ root.revision = source.rootRevision := by
  simp only [Site.capability, Site.checkPrincipal, bind_eq_ok, orRaise_eq_ok, raiseIf_eq_ok,
    ne_eq, not_not] at h
  obtain ⟨_, hprovider, root, hroot, current, hcurrent, _, ⟨_, hrequire, -⟩, hrevision⟩ := h
  exact ⟨root, current, hroot, hcurrent, require_host hrequire, hprovider, hrevision⟩

/-- The local owner without a list of machines or folders may read a file that is as it was
registered. -/
theorem capability_owner {source : Source} {root : Root}
    (hroot : s.roots.lookup source.rootId = some root)
    (hprovider : source.provider.getD s.provider = s.provider)
    (hrevision : root.revision = source.rootRevision) (hcurrent : actor.current = .ok principal)
    (hpolicy : actor.policy = none) (howner : principal.subjectId = LOCAL_OWNER)
    (hnodes : principal.nodeIds = none) (hroots : principal.rootIds = none)
    (hscope : "files:read" ∈ principal.scopes) :
    s.capability actor source = .ok () := by
  have hhost : principal.requireHost "files:read" root.nodeId (some source.rootId) = .ok () := by
    refine requireHost_iff.mpr ⟨hscope, fun n _ => ⟨?_, .inl howner⟩, fun r _ => ?_⟩
    · simp [Access.allows, hnodes]
    · simp [Access.Principal.deniesRoot, Access.allows, Access.Principal.localOwner, hnodes,
        hroots, howner]
  have hrequire := require_none hhost
  simp only [Site.capability, Site.checkPrincipal, bind_eq_ok, orRaise_eq_ok, raiseIf_eq_ok,
    ne_eq, not_not]
  refine ⟨(), hprovider, root, hroot, principal, hcurrent, (), ⟨(), hpolicy ▸ hrequire, (), ?_,
    (), by simp, root, hroot, rfl⟩, hrevision⟩
  simp [hnodes]

theorem get_eq_ok :
    s.get actor identity = .ok value ↔ ∃ current, actor.current = .ok current ∧
      s.datasets.lookup identity = some value ∧ value.projectId = current.projectId ∧
      require actor.policy current "files:read" none none = .ok () ∧
      ∀ source ∈ value.files, s.capability actor source = .ok () := by
  simp only [Site.get, bind_eq_ok, orRaise_eq_ok, raiseIf_eq_ok, ne_eq, not_not, pure, Except.pure,
    Except.ok.injEq]
  constructor
  · rintro ⟨current, hcurrent, found, hfound, _, hproject, _, hrequire, _, hall, rfl⟩
    exact ⟨current, hcurrent, hfound, hproject, hrequire, forM_eq_ok.mp hall⟩
  · rintro ⟨current, hcurrent, hfound, hproject, hrequire, hall⟩
    exact ⟨current, hcurrent, value, hfound, (), hproject, (), hrequire, (),
      forM_eq_ok.mpr hall, rfl⟩

/-- A principal without the machines and folders of its project reads a dataset only as the local
owner. -/
theorem owner_of_get (h : s.get actor identity = .ok value)
    (hcurrent : actor.current = .ok principal) (hroots : principal.projectRoots = []) :
    principal.subjectId = LOCAL_OWNER := by
  obtain ⟨-, -, -, -, -, hall⟩ := get_eq_ok.mp h
  obtain ⟨source, hsource⟩ := List.exists_mem_of_ne_nil _ value.files_ne
  obtain ⟨root, current, -, hsame, hhost, -⟩ := capability_eq_ok (hall source hsource)
  obtain rfl := Except.ok.inj (hsame.symm.trans hcurrent)
  have hdenied := (requireHost_iff.mp hhost).2.2 source.rootId rfl
  by_contra hmember
  exact hdenied (.inr (.inr ⟨hmember, by simp [hroots]⟩))

/-- What one credential may read, the local owner may read. -/
theorem get_of_get {reader : Actor} {current : Principal} (h : s.get actor identity = .ok value)
    (hactor : actor.current = .ok current) (hcurrent : reader.current = .ok principal)
    (hpolicy : reader.policy = none) (hproject : principal.projectId = current.projectId)
    (howner : principal.subjectId = LOCAL_OWNER) (hnodes : principal.nodeIds = none)
    (hroots : principal.rootIds = none) (hscope : "files:read" ∈ principal.scopes) :
    s.get reader identity = .ok value := by
  obtain ⟨found, hfound, hlookup, hsame, -, hall⟩ := get_eq_ok.mp h
  obtain rfl := Except.ok.inj (hactor.symm.trans hfound)
  refine get_eq_ok.mpr ⟨principal, hcurrent, hlookup, hsame.trans hproject.symm, ?_, ?_⟩
  · rw [hpolicy]
    exact require_none (requireHost_iff.mpr ⟨hscope, by simp, by simp⟩)
  · intro source hsource
    obtain ⟨root, -, hroot, -, -, hprovider, hrevision⟩ := capability_eq_ok (hall source hsource)
    exact capability_owner hroot hprovider hrevision hcurrent hpolicy howner hnodes hroots hscope

variable {Data : Type} {outside : Site.Outside Data} {index offset limit : ℕ} {data : Data}

/-- Who reads a dataset may see it. -/
theorem get_of_read (h : s.read outside actor identity index offset limit = .ok data) :
    ∃ value, s.get actor identity = .ok value := by
  simp only [Site.read, bind_eq_ok] at h
  obtain ⟨value, hvalue, -⟩ := h
  exact ⟨value, hvalue⟩

/-- Two who get the same manifest, and of whom the second has the capability of every file, read
the same. -/
theorem read_of_get {reader : Actor}
    (h : s.read outside actor identity index offset limit = .ok data)
    (hactor : s.get actor identity = .ok value) (hreader : s.get reader identity = .ok value) :
    s.read outside reader identity index offset limit = .ok data := by
  obtain ⟨-, -, -, -, -, hall⟩ := get_eq_ok.mp hreader
  simp only [Site.read, Site.readSource, bind_eq_ok, orRaise_eq_ok, pure, Except.pure,
    Except.ok.injEq] at h ⊢
  obtain ⟨found, hfound, _, hsafe, source, hsource, _, ⟨_, hrange, _, -, hfetch⟩, again, hagain, _,
    hsafe', rfl⟩ := h
  obtain rfl := Except.ok.inj (hfound.symm.trans hactor)
  obtain rfl := Except.ok.inj (hagain.symm.trans hactor)
  exact ⟨again, hreader, (), hsafe, source, hsource, _,
    ⟨(), hrange, (), hall source (List.mem_of_getElem? hsource), hfetch⟩, again, hreader, (),
    hsafe', rfl⟩

end Reading

/-! ### Reading under a delegation -/

/-- While nothing changes a credential has the same principal. -/
theorem current_tick {s : Access.State} {external' : ExternalCheck} {seconds : ℕ}
    {later : Principal} (h : s.current external actor = .ok principal)
    (hlater : (Access.step s (.tick seconds)).current external' actor = .ok later) :
    later = principal := by
  obtain ⟨row, hrow, hprincipal⟩ := Access.State.current_eq_ok h
  obtain ⟨row', hrow', hprincipal'⟩ := Access.State.current_eq_ok hlater
  obtain rfl : row' = row := Option.some.inj (hrow'.symm.trans hrow)
  simp only [Access.State.principal, bind_eq_ok, pure, Except.pure, Except.ok.injEq]
    at hprincipal hprincipal'
  obtain ⟨_, -, _, -, _, -, _, -, _, -, rfl⟩ := hprincipal
  obtain ⟨_, -, _, -, _, -, _, -, _, -, rfl⟩ := hprincipal'
  rfl

/-- A delegation gives a principal while nothing changes. -/
theorem current_of_capture {tools : Tools Archive} {s : Site Archive} {policy : PolicyCheck}
    {delegation : Delegation}
    (h : s.capture tools external policy actor nodeIds drawn = .ok delegation) (seconds : ℕ) :
    ∃ principal, (step tools s (.access (.tick seconds))).current tools delegation =
      .ok principal := by
  obtain ⟨-, scopes, -, hstamp, -⟩ := capture_eq_ok h
  have hlater : (step tools s (.access (.tick seconds))).stamp tools delegation.subjectId
      delegation.projectId = .ok (scopes, Site.kept delegation) := hstamp
  cases hresult : (step tools s (.access (.tick seconds))).current tools delegation with
  | ok principal => exact ⟨principal, rfl⟩
  | error e =>
    simp [Site.current, hlater, bind_eq_error, pure, Except.pure] at hresult

variable {Data : Type}

/-- A delegation gives a principal only while nothing that it rests on has changed at any moment
since it was captured, and permits no more than was captured and is given now. While nothing
changes, what its submitter can read of a dataset can be read under it exactly when the submitter
is the local owner. -/
theorem delegations_faithful (tools : Tools Archive) (s : Site Archive) (external : ExternalCheck)
    (policy : PolicyCheck) (actor : Identity) (nodeIds : List Identity) (drawn : Identity)
    (delegation : Delegation)
    (h : s.capture tools external policy actor nodeIds drawn = .ok delegation) :
    (∀ first rest principal,
      (run (step tools) s (first ++ rest)).current tools delegation = .ok principal →
      Unchanged s (run (step tools) s first) delegation.subjectId delegation.projectId ∧
        ∀ scope ∈ principal.scopes, scope ∈ delegation.scopes ∧
          (delegation.subjectId ≠ LOCAL_OWNER →
            scope ∈ (run (step tools) s (first ++ rest)).database.access.memberScopes
              delegation.projectId delegation.subjectId)) ∧
    ∀ (seconds : ℕ) (external' : ExternalCheck) (policy' : PolicyCheck)
      (outside : Site.Outside Data) (identity : Identity) (index offset limit : ℕ) (data : Data),
      let later := step tools s (.access (.tick seconds))
      later.read outside (later.credential external' policy' actor) identity index offset limit =
        .ok data →
      (later.read outside (later.delegate tools delegation) identity index offset limit =
        .ok data ↔ delegation.subjectId = LOCAL_OWNER) := by
  refine ⟨fun first rest principal => current_unchanged h first rest, ?_⟩
  intro seconds external' policy' outside identity index offset limit data later hread
  obtain ⟨principal, hprincipal⟩ := current_of_capture h seconds
  obtain ⟨scopes, stamp, hstamp, -, hscopes, hnodes, hroots, hsubject, hproject, -, hfolders⟩ :=
    current_eq_ok hprincipal
  constructor
  · intro hdelegated
    obtain ⟨value, hvalue⟩ := get_of_read hdelegated
    rw [← hsubject]
    exact owner_of_get hvalue hprincipal hfolders
  · intro howner
    obtain ⟨value, hvalue⟩ := get_of_read hread
    -- The credential still has the principal that was captured.
    obtain ⟨captured, -, hcaptured, -, -, -, -, hsame, hkept⟩ := capture_eq_ok h
    obtain ⟨current, hcurrent, -, -, hrequire, -⟩ := get_eq_ok.mp hvalue
    obtain rfl : current = captured := current_tick hcaptured hcurrent
    refine read_of_get hread hvalue (get_of_get hvalue hcurrent hprincipal rfl
      (hproject.trans hsame) (hsubject.trans howner) hnodes hroots ?_)
    have hscope := (requireHost_iff.mp (require_host hrequire)).1
    rw [hscopes, List.mem_filter, hkept, (access_eq_ok (stamp_eq_ok hstamp).1).1 howner]
    exact ⟨hscope, by decide⟩

namespace Example

/-- No package is installed. -/
def tools : Tools Unit := ⟨fun _ => 0, fun _ => .error .os, fun _ _ => .error .os⟩

def policy : PolicyCheck := fun _ _ _ _ => .ok ()

def outside : Site.Outside ℕ := ⟨fun _ => .ok (), fun _ _ _ => .ok 0⟩

/-- The local project has one folder, and a dataset with a file in it. A user, who is a member of
the project or the local owner, has a token. -/
def site (subject : Identity) : Site Unit where
  database := {
    access := { Access.State.initial with
      users := AList.insert 10 ⟨"Member", false, 0⟩ Access.State.initial.users
      memberships := AList.insert (Access.LOCAL_PROJECT, 10)
        ⟨["contributors:read", "files:read", "jobs:execute"], 1⟩ ∅
      resources := AList.insert Access.LOCAL_PROJECT ⟨[], [5], 1⟩ ∅
      credentials := AList.insert 7
        ⟨0, .token, "Token", ["contributors:read", "files:read", "jobs:execute"], none, 3600, "",
          none, subject, Access.LOCAL_PROJECT⟩ ∅ }
    policy := Policies.DEFAULT
    publishers := ∅
    packages := ∅
    bindings := ∅ }
  contributors := ∅
  roots := AList.insert 5 ⟨none, 1, false⟩ ∅
  datasets := AList.insert 9 ⟨Access.LOCAL_PROJECT, 0, [⟨none, 5, 1, "data", 3⟩], by decide⟩ ∅
  provider := "filesystem"

/-- What the token captures. -/
def delegation (subject : Identity) : Delegation where
  id := 11
  subjectId := subject
  projectId := Access.LOCAL_PROJECT
  credentialId := 7
  scopes := ["contributors:read", "files:read", "jobs:execute"]
  subjectRevision := 0
  projectRevision := 0
  membershipRevision := if subject = 10 then 1 else 0
  policyRevision := 0
  roleRevision := 0
  policyDigest := none
  publisherRevision := 0

end Example

/-- The local owner reads the file under a delegation. -/
theorem delegations_faithful_owner :
    let later := step Example.tools (Example.site LOCAL_OWNER) (.access (.tick 60))
    later.read Example.outside
      (later.delegate Example.tools (Example.delegation LOCAL_OWNER)) 9 0 0 3 = .ok 0 :=
  ((delegations_faithful Example.tools (Example.site LOCAL_OWNER) (fun _ _ => true)
    Example.policy 7 [] 11 (Example.delegation LOCAL_OWNER) (by decide +kernel)).2 60
    (fun _ _ => true) Example.policy Example.outside 9 0 0 3 0 (by decide +kernel)).mpr rfl

/-- A member reads the file with a token, and cannot read it under the delegation that the token
has just captured. -/
theorem member_refused :
    ¬∀ (s : Site Unit) (actor drawn : Identity) (delegation : Delegation),
      s.capture Example.tools (fun _ _ => true) Example.policy actor [] drawn = .ok delegation →
      ∀ identity index offset limit data,
        s.read Example.outside (s.credential (fun _ _ => true) Example.policy actor)
          identity index offset limit = .ok data →
        s.read Example.outside (s.delegate Example.tools delegation)
          identity index offset limit = .ok data := by
  intro h
  have hread := h (Example.site 10) 7 11 (Example.delegation 10) (by decide +kernel) 9 0 0 3 0
    (by decide +kernel)
  exact absurd hread (by decide +kernel)

end Ficc.Workloads.Delegations
