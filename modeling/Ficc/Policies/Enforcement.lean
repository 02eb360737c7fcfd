import Ficc.Policies.Gate

/-!
# Enforcement is permanent and fails closed

Once an activation has committed, `check_many` returns only when the host's grants allow every
requirement and the active package has allowed every one, with the same policy state and the same
authority at the end of the call as at its start.

* `Advances` is what every step does to the database: revisions only grow, and while the revision of
  the policy state is the same nothing else has changed.
* `CallChange` is what a step does to a call, and `Held` are the evaluators that a later call can
  ask.
* `History` is the invariant. It relates the machine to the events that have led to it, because an
  evaluator has to be traced to its preparation and a call to its start.
-/

namespace Ficc.Policies

open Execution (Identity Digest)
open Access (Scope ExternalCheck Principal)

variable {Archive : Type}

/-! ### The database -/

/-- What later databases keep. -/
structure Advances (d d' : Database Archive) : Prop where
  revision_le : d.policy.revision ≤ d'.policy.revision
  required : d.policy.required = true → d'.policy.required = true
  publishers : ∀ {identity value}, d.publishers.lookup identity = some value →
    ∃ value', d'.publishers.lookup identity = some value' ∧
      (value' = value ∨ value.revision < value'.revision)
  unchanged : d'.policy.revision = d.policy.revision → d'.publishers = d.publishers
  keyed : d.publishers.KeyedBy Publisher.id → d'.publishers.KeyedBy Publisher.id

namespace Advances

variable {d d' d'' : Database Archive}

theorem refl (d : Database Archive) : Advances d d where
  revision_le := le_rfl
  required := id
  publishers h := ⟨_, h, .inl rfl⟩
  unchanged _ := rfl
  keyed := id

/-- Advances compose. -/
theorem trans (h : Advances d d') (h' : Advances d' d'') : Advances d d'' where
  revision_le := h.revision_le.trans h'.revision_le
  required hrequired := h'.required (h.required hrequired)
  publishers hlookup := by
    obtain ⟨middle, hmiddle, hstep⟩ := h.publishers hlookup
    obtain ⟨last, hlast, hstep'⟩ := h'.publishers hmiddle
    refine ⟨last, hlast, ?_⟩
    rcases hstep with rfl | hlt
    · exact hstep'
    · rcases hstep' with rfl | hlt'
      · exact .inr hlt
      · exact .inr (hlt.trans hlt')
  unchanged heq := by
    have hle := h.revision_le
    have hle' := h'.revision_le
    rw [h'.unchanged (by omega), h.unchanged (by omega)]
  keyed hkeyed := h'.keyed (h.keyed hkeyed)

/-- A change that leaves the publishers and the policy state alone. -/
theorem of_eq (hpolicy : d'.policy = d.policy) (hpublishers : d'.publishers = d.publishers) :
    Advances d d' where
  revision_le := by rw [hpolicy]
  required := by rw [hpolicy]; exact id
  publishers h := ⟨_, hpublishers ▸ h, .inl rfl⟩
  unchanged _ := hpublishers
  keyed hkeyed := hpublishers ▸ hkeyed

/-- A publisher is written under its next revision. -/
theorem of_trust {identity : Identity} {key : Key} {enabled : Bool} {expected : ℕ}
    (h : d.trust identity key enabled expected = .ok d') : Advances d d' := by
  obtain ⟨hexpected, rfl⟩ := Database.trust_eq_ok h
  refine ⟨Nat.le_succ _, id, ?_, fun heq => ?_, fun hkeyed => hkeyed.insert rfl⟩
  · intro identity' value hlookup
    rw [Table.lookup_insert_eq]
    split_ifs with hidentity
    · -- The record that is written has the revision of the old one plus one.
      subst hidentity
      rw [hlookup, Option.elim_some] at hexpected
      exact ⟨_, rfl, .inr (by simp only; omega)⟩
    · exact ⟨value, hlookup, .inl rfl⟩
  · exact absurd heq (Nat.succ_ne_self _)

/-- The bindings get their next revision. -/
theorem of_bind {project subject : Identity} {roles : List Role} {expected : ℕ}
    (h : d.bind project subject roles expected = .ok d') : Advances d d' := by
  have hd' := Database.bind_database_eq_ok h
  rw [hd']
  exact ⟨Nat.le_succ _, id, fun hlookup => ⟨_, hlookup, .inl rfl⟩, fun _ => rfl, id⟩

/-- Only a package is added. -/
theorem of_install {tools : Tools Archive} {raw : Archive} (h : d.install tools raw = .ok d') :
    Advances d d' := by
  have hd' := Database.install_eq_ok tools h
  rw [hd']
  exact .of_eq rfl rfl

/-- The state gets its next revision. -/
theorem of_activate {digest : Digest} {expected : ℕ} (h : d.activate digest expected = .ok d') :
    Advances d d' := by
  obtain ⟨hrevision, hd', hnext, hrequired, -⟩ := Database.activate_eq_ok h
  have hpublishers : d'.publishers = d.publishers := by rw [hd']
  refine ⟨by omega, fun _ => hrequired, fun hlookup => ?_, fun _ => hpublishers, fun hkeyed => ?_⟩
  · rw [hpublishers]
    exact ⟨_, hlookup, .inl rfl⟩
  · rwa [hpublishers]

/-- A record that is the same at two moments is the same at every moment in between. -/
theorem between (h : Advances d d') (h' : Advances d' d'') {identity : Identity}
    {value : Publisher} (hfirst : d.publishers.lookup identity = some value)
    (hlast : d''.publishers.lookup identity = some value) :
    d'.publishers.lookup identity = some value := by
  obtain ⟨middle, hmiddle, hstep⟩ := h.publishers hfirst
  obtain ⟨last, hlast', hstep'⟩ := h'.publishers hmiddle
  obtain rfl : last = value := Option.some.inj (hlast'.symm.trans hlast)
  rcases hstep with rfl | hlt
  · exact hmiddle
  · rcases hstep' with rfl | hlt'
    · exact hmiddle
    · omega

end Advances

/-! ### Steps -/

namespace Machine

variable {tools : Tools Archive} {s : Machine Archive}

/-- An evaluator that a later call can ask. -/
def Held (s : Machine Archive) (prepared : Prepared) : Prop :=
  (∃ memory, s.memory = some memory ∧ memory.prepared = some prepared) ∨
    ∃ thread expected actor, s.activations.lookup thread = some (.candidate prepared expected actor)

/-- The event prepares an evaluator, for an activation or at the start of the controller. -/
def Prepares (tools : Tools Archive) (s : Machine Archive) (event : Event Archive)
    (prepared : Prepared) : Prop :=
  (∃ thread external digest expected actor closed prepares memory,
    event = .prepare thread external digest expected actor closed prepares ∧
      s.memory = some memory ∧ Policies.prepare tools s.database memory external digest expected
        actor closed prepares = .ok (.candidate prepared expected actor)) ∨
    ∃ prepares memory, event = .restart prepares ∧
      init tools s.database prepares = .ok memory ∧ memory.prepared = some prepared

/-- The event commits an activation. -/
def Activates (s : Machine Archive) (event : Event Archive) : Prop :=
  ∃ thread external memory prepared expected actor database,
    event = .commit thread external ∧ s.memory = some memory ∧
      s.activations.lookup thread = some (.candidate prepared expected actor) ∧
      Policies.commit s.database external prepared expected actor = .ok database

/-- The event is the normal return of a call of `check_many`. -/
def Returns (s : Machine Archive) (event : Event Archive) (external : ExternalCheck)
    (credential : Identity) (requirements : List Requirement) : Prop :=
  (∃ thread draw memory, event = .enter thread external credential requirements draw ∧
    s.memory = some memory ∧
      Policies.enter s.database memory external credential requirements draw = .ok none) ∨
    ∃ thread call, event = .leave thread external ∧ s.calls.lookup thread = some call ∧
      call.asked = none ∧ call.pending = [] ∧ call.credential = credential ∧
      call.requirements = requirements ∧ Policies.leave s.database external call = .ok ()

/-- How a call came to be what it is after an event. -/
inductive CallChange (s : Machine Archive) (event : Event Archive) (thread : ℕ) (call' : Call) :
    Prop
  | kept (h : s.calls.lookup thread = some call')
  | entered (memory : Memory) (external : ExternalCheck) (credential : Identity)
    (requirements : List Requirement) (draw : Requirement → Identity)
    (hevent : event = .enter thread external credential requirements draw)
    (h : Policies.enter s.database memory external credential requirements draw =
      .ok (some call'))
  | asked (memory : Memory) (call : Call) (prepared : Prepared) (hmemory : s.memory = some memory)
    (hcall : s.calls.lookup thread = some call)
    (hevaluator : evaluator s.database memory call.state = some prepared)
    (h : call' = { call with asked := some prepared })
  | answered (call : Call) (prepared : Prepared) (items : List Item) (results : List Answer)
    (hcall : s.calls.lookup thread = some call) (hasked : call.asked = some prepared)
    (hanswers : answers prepared (call.pending.take 64) items = some results)
    (h : call' = { call with
      pending := call.pending.drop 64
      asked := none
      results := call.results ++ results })

/-- What is in memory belongs together, and the flag is the one of the database. -/
structure Sound (s : Machine Archive) : Prop where
  required : ∀ {memory}, s.memory = some memory → memory.required = s.database.policy.required
  prepared : ∀ {memory prepared}, s.memory = some memory → memory.prepared = some prepared →
    memory.digest = some prepared.package ∧ memory.publisher = some prepared.publisher

/-- Everything that a step does. -/
structure Moves (tools : Tools Archive) (s : Machine Archive) (event : Event Archive)
    (s' : Machine Archive) : Prop where
  database : Advances s.database s'.database
  sound : s.Sound → s'.Sound
  held : ∀ {prepared}, s'.Held prepared → s.Held prepared ∨ Prepares tools s event prepared
  calls : ∀ {thread call}, s'.calls.lookup thread = some call → CallChange s event thread call

end Machine

/-- The memory has the same attributes, or no evaluator any more. -/
structure Memory.Fades (memory memory' : Memory) : Prop where
  required : memory'.required = memory.required
  prepared : memory'.prepared = memory.prepared ∨ memory'.prepared = none
  digest : memory'.digest = memory.digest
  publisher : memory'.publisher = memory.publisher

theorem Memory.Fades.refl (memory : Memory) : memory.Fades memory := ⟨rfl, .inl rfl, rfl, rfl⟩

/-- A cleanup at most clears the prepared policy. -/
theorem Memory.Fades.cleanup (memory : Memory) (previous : Prepared) (closes : Bool) :
    memory.Fades (memory.cleanup previous closes) := by
  unfold Memory.cleanup
  split
  · exact .refl memory
  · exact ⟨rfl, .inl rfl, rfl, rfl⟩

/-- So does the distrust of a publisher. -/
theorem Memory.Fades.distrust (memory : Memory) (identity : Identity) (closes : Bool) :
    memory.Fades (memory.distrust identity closes) := by
  unfold Memory.distrust
  split
  · split_ifs
    · have h := Memory.Fades.cleanup { memory with prepared := none } ‹Prepared› closes
      refine ⟨h.required, .inr ?_, h.digest, h.publisher⟩
      rcases h.prepared with hprepared | hprepared <;> exact hprepared
    · exact .refl memory
  · exact .refl memory

namespace Machine

variable {tools : Tools Archive} {s s' : Machine Archive} {event : Event Archive} {memory : Memory}

/-- A memory that has faded stays sound. -/
theorem Sound.of_fades (h : s.Sound) (hmemory : s.memory = some memory) {memory' : Memory}
    (hfades : memory.Fades memory') (hmemory' : s'.memory = some memory')
    (hrequired : s'.database.policy.required = s.database.policy.required) : s'.Sound := by
  refine ⟨fun hfound => ?_, fun hfound hprepared => ?_⟩
  · obtain rfl := Option.some.inj (hmemory'.symm.trans hfound)
    rw [hfades.required, hrequired, h.required hmemory]
  · obtain rfl := Option.some.inj (hmemory'.symm.trans hfound)
    rcases hfades.prepared with heq | hnone
    · rw [hfades.digest, hfades.publisher]
      exact h.prepared hmemory (heq ▸ hprepared)
    · rw [hnone] at hprepared
      cases hprepared

/-- A step that prepares nothing and activates nothing. -/
theorem Moves.of_fades (hmemory : s.memory = some memory) {memory' : Memory}
    (hfades : memory.Fades memory') (hmemory' : s'.memory = some memory')
    (hdatabase : Advances s.database s'.database)
    (hrequired : s'.database.policy.required = s.database.policy.required)
    (hactivations : ∀ {thread prepared expected actor},
      s'.activations.lookup thread = some (.candidate prepared expected actor) →
        s.activations.lookup thread = some (.candidate prepared expected actor))
    (hcalls : ∀ {thread call}, s'.calls.lookup thread = some call →
      CallChange s event thread call) : Moves tools s event s' where
  database := hdatabase
  sound h := h.of_fades hmemory hfades hmemory' hrequired
  held := by
    rintro prepared (⟨found, hfound, hprepared⟩ | ⟨thread, expected, actor, hlookup⟩)
    · obtain rfl := Option.some.inj (hmemory'.symm.trans hfound)
      rcases hfades.prepared with heq | hnone
      · exact .inl (.inl ⟨memory, hmemory, heq ▸ hprepared⟩)
      · rw [hnone] at hprepared
        cases hprepared
    · exact .inl (.inr ⟨thread, expected, actor, hactivations hlookup⟩)
  calls := hcalls

/-- An event that is refused. -/
theorem Moves.refl (hmemory : s.memory = some memory) : Moves tools s event s :=
  .of_fades hmemory (.refl memory) hmemory (.refl _) rfl id .kept

/-- A step that only changes the database, in a transaction. -/
theorem Moves.of_transact (hmemory : s.memory = some memory)
    {result : Except Error (Database Archive)}
    (h : ∀ {database}, result = .ok database → Advances s.database database ∧
      database.policy.required = s.database.policy.required) :
    Moves tools s event (s.transact result) := by
  unfold transact
  split
  · next database =>
    obtain ⟨hadvances, hrequired⟩ := h rfl
    exact .of_fades hmemory (.refl memory) hmemory hadvances hrequired id fun h => .kept h
  · exact .refl hmemory

/-- A step that only changes calls. -/
theorem Moves.of_calls (hmemory : s.memory = some memory) {calls : Table ℕ Call}
    (hcalls : ∀ {thread call}, calls.lookup thread = some call → CallChange s event thread call) :
    Moves tools s event { s with calls := calls } :=
  .of_fades hmemory (.refl memory) hmemory (.refl _) rfl id hcalls

/-- A call ends. -/
theorem CallChange.of_erase {thread thread' : ℕ} {call : Call}
    (h : (s.calls.erase thread).lookup thread' = some call) : CallChange s event thread' call := by
  rw [Table.lookup_erase_eq] at h
  split_ifs at h
  exact .kept h

/-- A call is written. -/
theorem CallChange.of_insert {thread thread' : ℕ} {call call' : Call}
    (h : (s.calls.insert thread call').lookup thread' = some call)
    (hchange : CallChange s event thread call') : CallChange s event thread' call := by
  rw [Table.lookup_insert_eq] at h
  split_ifs at h with heq
  · obtain rfl := Option.some.inj h
    exact heq ▸ hchange
  · exact .kept h

theorem Moves.fail (hmemory : s.memory = some memory) (thread : ℕ) :
    Moves tools s event (s.fail memory thread) :=
  have hfades : memory.Fades { memory with error := some unavailable } :=
    ⟨rfl, .inl rfl, rfl, rfl⟩
  .of_fades hmemory hfades rfl (.refl _) rfl id .of_erase

theorem Moves.trust (hmemory : s.memory = some memory) (external : ExternalCheck)
    (identity : Identity) (key : Key) (enabled : Bool) (expected : ℕ) (actor : Identity)
    (closes : Bool) :
    Moves tools s event (s.trust memory external identity key enabled expected actor closes) := by
  unfold Machine.trust
  split
  · next database _ htrust =>
    have hadvances := Advances.of_trust htrust
    obtain ⟨-, rfl⟩ := Database.trust_eq_ok htrust
    exact .of_fades hmemory (.distrust memory identity closes) rfl hadvances rfl id
      fun h => .kept h
  · exact .refl hmemory

/-- A prepared policy is of an enabled publisher. -/
theorem prepare_eq_ok {external : ExternalCheck} {digest : Digest} {expected : ℕ}
    {actor : Identity} {closed : ℕ} {prepares : Bool} {activation : Activation}
    (h : Policies.prepare tools s.database memory external digest expected actor closed prepares =
      .ok activation) :
    ∃ publisher, s.database.package tools digest = .ok publisher ∧
      activation = .candidate ⟨digest, publisher⟩ expected actor := by
  simp only [Policies.prepare, bind_eq_ok, pure, Except.pure, Except.ok.injEq] at h
  obtain ⟨-, -, -, -, publisher, hpublisher, -, -, rfl⟩ := h
  exact ⟨publisher, hpublisher, rfl⟩

theorem Moves.prepare (hmemory : s.memory = some memory) (thread : ℕ) (external : ExternalCheck)
    (digest : Digest) (expected : ℕ) (actor : Identity) (closed : ℕ) (prepares : Bool) :
    Moves tools s (.prepare thread external digest expected actor closed prepares)
      (s.prepare tools memory thread external digest expected actor closed prepares) := by
  set event : Event Archive := .prepare thread external digest expected actor closed prepares
    with hevent
  -- The retired evaluators do not matter: what follows is the same for every such state.
  have hretired {s₁ : Machine Archive} (hdatabase : s₁.database = s.database)
      (hcalls : s₁.calls = s.calls) (hactivations : s₁.activations = s.activations)
      (hfaded : ∃ memory₁, s₁.memory = some memory₁ ∧ memory.Fades memory₁) :
      Moves tools s event s₁ ∧ ∀ activation,
        Policies.prepare tools s₁.database memory external digest expected actor closed prepares =
          .ok activation →
        Moves tools s event { s₁ with activations := s₁.activations.insert thread activation } := by
    obtain ⟨memory₁, hmemory₁, hfades⟩ := hfaded
    have hkept : Moves tools s event s₁ := .of_fades hmemory hfades hmemory₁
      (hdatabase ▸ .refl _) (by rw [hdatabase]) (fun h => hactivations ▸ h)
      fun h => .kept (hcalls ▸ h)
    refine ⟨hkept, fun activation hprepare => ?_⟩
    rw [hdatabase] at hprepare
    obtain ⟨publisher, hpackage, hactivation⟩ := prepare_eq_ok hprepare
    subst hactivation
    refine ⟨hkept.database, fun h => ⟨(hkept.sound h).required, (hkept.sound h).prepared⟩, ?_,
      hkept.calls⟩
    rintro prepared (hheld | ⟨thread', expected', actor', hlookup⟩)
    · exact hkept.held (.inl hheld)
    · rw [Table.lookup_insert_eq] at hlookup
      split_ifs at hlookup
      · obtain ⟨rfl, rfl, rfl⟩ := Activation.candidate.inj (Option.some.inj hlookup)
        exact .inr (.inl ⟨thread, external, digest, expected, actor, closed, prepares, memory,
          hevent, hmemory, hprepare⟩)
      · exact hkept.held (.inr ⟨thread', expected', actor', hlookup⟩)
  unfold Machine.prepare
  split
  · let memory₁ : Memory := { memory with retired := memory.retired.drop closed }
    obtain ⟨hkept, hactivated⟩ := @hretired { s with memory := some memory₁ } rfl rfl rfl
      ⟨memory₁, rfl, rfl, .inl rfl, rfl, rfl⟩
    dsimp only
    split
    · next activation hprepare => exact hactivated activation hprepare
    · exact hkept
  · obtain ⟨hkept, hactivated⟩ := @hretired s rfl rfl rfl ⟨memory, hmemory, .refl memory⟩
    dsimp only
    split
    · next activation hprepare => exact hactivated activation hprepare
    · exact hkept

/-- A commit finds the publisher unchanged. -/
theorem commit_eq_ok {external : ExternalCheck} {prepared : Prepared} {expected : ℕ}
    {actor : Identity} {database : Database Archive}
    (h : Policies.commit s.database external prepared expected actor = .ok database) :
    s.database.publisher prepared.publisher.id = .ok prepared.publisher ∧
      s.database.activate prepared.package expected = .ok database := by
  simp only [Policies.commit, bind_eq_ok, raiseIf_eq_ok, ne_eq, not_not] at h
  obtain ⟨-, -, publisher, hpublisher, -, rfl, hactivate⟩ := h
  exact ⟨hpublisher, hactivate⟩

theorem Moves.commit (hmemory : s.memory = some memory) (thread : ℕ) (external : ExternalCheck) :
    Moves tools s event (s.commit memory thread external) := by
  unfold Machine.commit
  split
  · next evaluator expected actor hthread =>
    split
    · next database hcommit =>
      obtain ⟨-, hactivate⟩ := commit_eq_ok hcommit
      obtain ⟨-, -, -, hrequired, -⟩ := Database.activate_eq_ok hactivate
      refine ⟨.of_activate hactivate, fun _ => ⟨fun hfound => ?_, fun hfound hprepared => ?_⟩, ?_,
        fun h => .kept h⟩
      · obtain rfl := Option.some.inj hfound
        exact hrequired.symm
      · obtain rfl := Option.some.inj hfound
        obtain rfl := Option.some.inj hprepared
        exact ⟨rfl, rfl⟩
      · -- The evaluator in memory was the candidate of this activation.
        rintro prepared (⟨found, hfound, hprepared⟩ | ⟨thread', expected', actor', hlookup⟩)
        · obtain rfl := Option.some.inj hfound
          obtain rfl := Option.some.inj hprepared
          exact .inl (.inr ⟨thread, expected, actor, hthread⟩)
        · refine .inl (.inr ⟨thread', expected', actor', ?_⟩)
          dsimp only [retire] at hlookup
          split at hlookup
          · rw [Table.lookup_insert_eq] at hlookup
            split_ifs at hlookup
            · cases hlookup
            · exact hlookup
          · rw [Table.lookup_erase_eq] at hlookup
            split_ifs at hlookup
            exact hlookup
    · refine .of_fades hmemory (.refl memory) hmemory (.refl _) rfl (fun hlookup => ?_)
        fun h => .kept h
      rw [Table.lookup_erase_eq] at hlookup
      split_ifs at hlookup
      exact hlookup
  · exact .refl hmemory

theorem Moves.clean (hmemory : s.memory = some memory) (thread : ℕ) (closes : Bool) :
    Moves tools s event (s.clean memory thread closes) := by
  unfold Machine.clean
  split
  · next previous hthread =>
    refine .of_fades hmemory (.cleanup memory previous closes) rfl (.refl _) rfl
      (fun hlookup => ?_) fun h => .kept h
    rw [Table.lookup_erase_eq] at hlookup
    split_ifs at hlookup
    exact hlookup
  · exact .refl hmemory

theorem Moves.stop : Moves tools s event s.stop := by
  refine ⟨.refl _, fun _ => ⟨fun hfound => ?_, fun hfound => ?_⟩, ?_, fun h => ?_⟩
  · cases hfound
  · cases hfound
  · rintro prepared (⟨found, hfound, -⟩ | ⟨thread, expected, actor, hlookup⟩)
    · cases hfound
    · cases hlookup
  · cases h

/-- What the controller holds when it has started. -/
theorem init_eq_ok {prepares : Bool} (h : init tools s.database prepares = .ok memory) :
    memory.required = s.database.policy.required ∧
      ∀ prepared, memory.prepared = some prepared →
        memory.digest = some prepared.package ∧ memory.publisher = some prepared.publisher ∧
          s.database.package tools prepared.package = .ok prepared.publisher := by
  simp only [init, bind_eq_ok] at h
  obtain ⟨state, hstate, h⟩ := h
  rw [Database.state_eq_ok hstate] at h
  split at h
  · obtain rfl := Except.ok.inj h
    exact ⟨rfl, fun prepared hprepared => by cases hprepared⟩
  · split at h
    · next digest publisher _ _ hpackage =>
      obtain rfl := Except.ok.inj h
      refine ⟨rfl, fun prepared hprepared => ?_⟩
      obtain rfl := Option.some.inj hprepared
      exact ⟨rfl, rfl, hpackage⟩
    · obtain rfl := Except.ok.inj h
      exact ⟨rfl, fun prepared hprepared => by cases hprepared⟩

theorem Moves.restart (prepares : Bool) :
    Moves tools s (.restart prepares) (s.restart tools prepares) := by
  unfold Machine.restart
  split
  · next memory hinit =>
    obtain ⟨hrequired, hprepared⟩ := init_eq_ok hinit
    refine ⟨.refl _, fun _ => ⟨fun hfound => ?_, fun hfound hheld => ?_⟩, ?_, fun h => ?_⟩
    · obtain rfl := Option.some.inj hfound
      exact hrequired
    · obtain rfl := Option.some.inj hfound
      obtain ⟨hdigest, hpublisher, -⟩ := hprepared _ hheld
      exact ⟨hdigest, hpublisher⟩
    · rintro prepared (⟨found, hfound, hheld⟩ | ⟨thread, expected, actor, hlookup⟩)
      · obtain rfl := Option.some.inj hfound
        exact .inr (.inr ⟨prepares, memory, rfl, hinit, hheld⟩)
      · cases hlookup
    · cases h
  · exact .stop

theorem Moves.enter (hmemory : s.memory = some memory) (thread : ℕ) (external : ExternalCheck)
    (credential : Identity) (requirements : List Requirement) (draw : Requirement → Identity) :
    Moves tools s (.enter thread external credential requirements draw)
      (s.enter memory thread external credential requirements draw) := by
  unfold Machine.enter
  split
  · next call henter =>
    exact .of_calls hmemory fun h =>
      .of_insert h (.entered memory external credential requirements draw rfl henter)
  · exact .refl hmemory

theorem Moves.ask (hmemory : s.memory = some memory) {thread : ℕ} {call : Call}
    (hcall : s.calls.lookup thread = some call) (fits : Bool) :
    Moves tools s event (s.ask memory thread call fits) := by
  unfold Machine.ask
  split_ifs
  · exact .of_calls hmemory .of_erase
  · split
    · next prepared hevaluator =>
      exact .of_calls hmemory fun h =>
        .of_insert h (.asked memory call prepared hmemory hcall hevaluator rfl)
    · exact .fail hmemory thread

theorem Moves.answer (hmemory : s.memory = some memory) {thread : ℕ} {call : Call}
    (hcall : s.calls.lookup thread = some call) {prepared : Prepared}
    (hasked : call.asked = some prepared) (reply : Option (List Item)) :
    Moves tools s event (s.answer memory thread call prepared reply) := by
  unfold Machine.answer
  split
  · next results hreply =>
    obtain ⟨items, -, hanswers⟩ := Option.bind_eq_some_iff.mp hreply
    exact .of_calls hmemory fun h =>
      .of_insert h (.answered call prepared items results hcall hasked hanswers rfl)
  · exact .fail hmemory thread

/-- Every event does what `Moves` allows. -/
theorem step_moves (tools : Tools Archive) (s : Machine Archive) (event : Event Archive) :
    Moves tools s event (s.step tools event) := by
  unfold step
  split
  · next memory hmemory =>
    cases event with
    | access event =>
      exact .of_fades hmemory (.refl memory) hmemory (.of_eq rfl rfl) rfl id fun h => .kept h
    | trust external identity key enabled expected actor closes =>
      exact .trust hmemory external identity key enabled expected actor closes
    | bind external project subject roles expected actor =>
      refine .of_transact hmemory fun {database} hresult => ?_
      obtain ⟨-, -, hbind⟩ := bind_eq_ok.mp hresult
      refine ⟨.of_bind hbind, ?_⟩
      rw [Database.bind_database_eq_ok hbind]
    | install external raw actor =>
      refine .of_transact hmemory fun {database} hresult => ?_
      obtain ⟨-, -, hinstall⟩ := bind_eq_ok.mp hresult
      refine ⟨.of_install hinstall, ?_⟩
      rw [Database.install_eq_ok tools hinstall]
    | prepare thread external digest expected actor closed prepares =>
      dsimp only [perform]
      split_ifs
      · exact .refl hmemory
      · exact .prepare hmemory thread external digest expected actor closed prepares
    | commit thread external => exact .commit hmemory thread external
    | clean thread closes => exact .clean hmemory thread closes
    | stop => exact .stop
    | restart prepares => exact .restart prepares
    | enter thread external credential requirements draw =>
      dsimp only [perform]
      split_ifs
      · exact .refl hmemory
      · exact .enter hmemory thread external credential requirements draw
    | ask thread fits =>
      dsimp only [perform]
      split
      · next call hcall =>
        split_ifs
        · exact .ask hmemory hcall fits
        · exact .refl hmemory
      · exact .refl hmemory
    | answer thread reply =>
      dsimp only [perform]
      split
      · next call hcall =>
        split
        · next prepared hasked => exact .answer hmemory hcall hasked reply
        · exact .refl hmemory
      · exact .refl hmemory
    | leave thread external =>
      dsimp only [perform]
      split
      · split_ifs
        · exact .of_calls hmemory .of_erase
        · exact .refl hmemory
      · exact .refl hmemory
  · next hmemory =>
    split
    · exact .restart _
    · exact ⟨.refl _, id, .inl, .kept⟩

/-- A run only advances the database. -/
theorem advances_run (tools : Tools Archive) (s : Machine Archive) (events : List (Event Archive)) :
    Advances s.database (run (step tools) s events).database :=
  run_relates (I := fun _ => True) (R := fun s s' => Advances s.database s'.database)
    (fun s => .refl s.database) .trans (fun _ _ _ => trivial)
    (fun s event _ => (step_moves tools s event).database) trivial events

/-- The record of a publisher stands in the database when an evaluator is prepared. -/
theorem Prepares.recorded {prepared : Prepared} (h : Prepares tools s event prepared)
    (hkeyed : s.database.publishers.KeyedBy Publisher.id) :
    s.database.publishers.lookup prepared.publisher.id = some prepared.publisher := by
  have hpackage : s.database.package tools prepared.package = .ok prepared.publisher := by
    rcases h with ⟨thread, external, digest, expected, actor, closed, prepares, memory, -, -, h⟩ |
      ⟨prepares, memory, -, hinit, hprepared⟩
    · obtain ⟨publisher, hpublisher, hcandidate⟩ := prepare_eq_ok h
      obtain ⟨rfl, -, -⟩ := Activation.candidate.inj hcandidate
      exact hpublisher
    · exact ((init_eq_ok hinit).2 prepared hprepared).2.2
  obtain ⟨-, identity, -, -, -, hpublisher, -⟩ := Database.package_eq_ok tools hpackage
  obtain ⟨hlookup, -⟩ := Database.publisher_eq_ok hpublisher
  rwa [hkeyed.key_eq hlookup]

end Machine

/-! ### Calls -/

theorem mem_distinct {requirement : Requirement} {requirements : List Requirement} :
    requirement ∈ distinct requirements ↔ requirement ∈ requirements := by
  induction requirements with
  | nil => rfl
  | cons first rest ih =>
    by_cases h : requirement = first
    · simp [distinct, h]
    · simp [distinct, h, ih]

variable {items : List Item} {results : List Answer} {credential : Identity}
  {database : Database Archive} {draw : Requirement → Identity} {memory : Memory}

/-- Every request has an answer, by the evaluator that was asked. -/
theorem answers_eq_some {prepared : Prepared} {requests : List Request}
    (h : answers prepared requests items = some results) :
    results.map Answer.request = requests ∧ ∀ answer ∈ results, answer.evaluator = prepared := by
  fun_induction answers prepared requests items generalizing results with
  | case1 =>
    obtain rfl := Option.some.inj h
    exact ⟨rfl, by simp⟩
  | case2 request requests id allow reason items hvalid ih =>
    obtain ⟨rest, hrest, rfl⟩ := Option.map_eq_some_iff.mp h
    obtain ⟨hrequests, hevaluator⟩ := ih hrest
    refine ⟨by rw [List.map_cons, hrequests], ?_⟩
    simpa using hevaluator
  | case3 => cases h
  | case4 => cases h

/-- What `enter` has read when it starts a call. -/
theorem enter_eq_some {external : ExternalCheck} {requirements : List Requirement} {call : Call}
    (h : enter database memory external credential requirements draw = .ok (some call)) :
    ∃ current, database.access.current external credential = .ok current ∧
      call = {
        credential := credential
        requirements := requirements
        state := database.policy
        authority := authority database current none none
        pending := requests (authority database current none none) draw (distinct requirements)
        asked := none
        results := [] } := by
  unfold enter at h
  split_ifs at h
  · cases h
  · simp only [bind_eq_ok] at h
    obtain ⟨current, hcurrent, -, -, h⟩ := h
    refine ⟨current, hcurrent, ?_⟩
    unfold evaluation at h
    split_ifs at h
    · cases h
    · simp only [bind_eq_ok, pure, Except.pure, Except.ok.injEq] at h
      obtain ⟨state, hstate, h⟩ := h
      obtain rfl := Database.state_eq_ok hstate
      split_ifs at h
      exact (Option.some.inj h).symm

/-- Without a call `enter` has returned because nothing was asked or no policy is required. -/
theorem enter_eq_none {external : ExternalCheck} {requirements : List Requirement}
    (h : enter database memory external credential requirements draw = .ok none) :
    requirements = [] ∨ memory.required = false ∨ database.policy.required = false := by
  unfold enter at h
  split_ifs at h with hnil
  · refine .inl (List.eq_nil_iff_forall_not_mem.mpr fun requirement hmem => ?_)
    rw [← mem_distinct, hnil] at hmem
    cases hmem
  · simp only [bind_eq_ok] at h
    obtain ⟨current, -, -, -, h⟩ := h
    unfold evaluation at h
    split_ifs at h with hrequired
    · exact .inr (.inl hrequired)
    · simp only [bind_eq_ok, pure, Except.pure, Except.ok.injEq] at h
      obtain ⟨state, hstate, h⟩ := h
      obtain rfl := Database.state_eq_ok hstate
      split_ifs at h with hpolicy
      exact .inr (.inr hpolicy)

/-- The evaluator is of the active policy, and its publisher is unchanged. -/
theorem evaluator_eq_some {state : PolicyState} {prepared : Prepared}
    (h : evaluator database memory state = some prepared) :
    memory.prepared = some prepared ∧ memory.digest = state.active ∧
      ∃ publisher, memory.publisher = some publisher ∧
        database.publisher publisher.id = .ok publisher := by
  unfold evaluator at h
  split at h
  · next found publisher hprepared hpublisher =>
    split_ifs at h with hcheck
    obtain rfl := Option.some.inj h
    exact ⟨hprepared, hcheck.2.1, publisher, hpublisher, hcheck.2.2⟩
  · cases h

/-- The evaluators that have a part in a call. -/
def Call.Asks (call : Call) (prepared : Prepared) : Prop :=
  call.asked = some prepared ∨ ∃ answer ∈ call.results, answer.evaluator = prepared

/-- What holds of a call under way, as the database is now. -/
structure Call.Valid (database : Database Archive) (call : Call) : Prop where
  revision_le : call.state.revision ≤ database.policy.revision
  covered : ∀ requirement ∈ call.requirements, ∃ id,
    request call.authority id requirement ∈ call.results.map Answer.request ++ call.pending
  active : ∀ {prepared}, call.Asks prepared → call.state.active = some prepared.package
  trusted : ∀ {prepared}, call.Asks prepared →
    database.policy.revision = call.state.revision →
      database.publishers.lookup prepared.publisher.id = some prepared.publisher ∧
        prepared.publisher.enabled = true

/-- A call stays valid while the database changes. -/
theorem Call.Valid.advances {database' : Database Archive} {call : Call} (h : call.Valid database)
    (hadvances : Advances database database') :
    call.Valid database' where
  revision_le := h.revision_le.trans hadvances.revision_le
  covered := h.covered
  active := h.active
  trusted hasks hrevision := by
    have hle := h.revision_le
    have hle' := hadvances.revision_le
    -- The revision was the same before the change, so the publishers have not changed.
    have hbefore : database.policy.revision = call.state.revision := by omega
    rw [hadvances.unchanged (by omega)]
    exact h.trusted hasks hbefore

/-- A call starts valid. -/
theorem Call.Valid.entered {external : ExternalCheck} {requirements : List Requirement}
    {call : Call}
    (h : enter database memory external credential requirements draw = .ok (some call)) :
    call.Valid database := by
  obtain ⟨current, -, rfl⟩ := enter_eq_some h
  refine ⟨le_rfl, fun requirement hmem => ⟨draw requirement, ?_⟩, ?_, ?_⟩
  · exact List.mem_map_of_mem (mem_distinct.mpr hmem)
  · rintro prepared (hasked | ⟨answer, hmem, -⟩)
    · cases hasked
    · cases hmem
  · rintro prepared (hasked | ⟨answer, hmem, -⟩)
    · cases hasked
    · cases hmem

/-- Asking an evaluator that `decisions` accepts. -/
theorem Call.Valid.asked {s : Machine Archive} (hsound : s.Sound) (hmemory : s.memory = some memory)
    {call : Call} (h : call.Valid s.database) {prepared : Prepared}
    (hevaluator : evaluator s.database memory call.state = some prepared) :
    { call with asked := some prepared }.Valid s.database := by
  obtain ⟨hprepared, hdigest, publisher, hpublisher, htrusted⟩ := evaluator_eq_some hevaluator
  obtain ⟨hpackage, hrecord⟩ := hsound.prepared hmemory hprepared
  obtain rfl : publisher = prepared.publisher := Option.some.inj (hpublisher.symm.trans hrecord)
  refine ⟨h.revision_le, h.covered, ?_, ?_⟩
  · rintro other (hasked | hanswered)
    · obtain rfl := Option.some.inj hasked
      exact hdigest.symm.trans hpackage
    · exact h.active (.inr hanswered)
  · rintro other (hasked | hanswered) hrevision
    · obtain rfl := Option.some.inj hasked
      exact Database.publisher_eq_ok htrusted
    · exact h.trusted (.inr hanswered) hrevision

/-- The evaluators of a call after a batch has been answered had a part in it before. -/
theorem Call.asks_of_answered {call : Call} {prepared : Prepared} {requests : List Request}
    {pending : List Request} (hasked : call.asked = some prepared)
    (hanswers : answers prepared requests items = some results) {other : Prepared}
    (h : { call with pending, asked := none, results := call.results ++ results }.Asks other) :
    call.Asks other := by
  rcases h with hnone | ⟨answer, hmem, rfl⟩
  · cases hnone
  · rcases List.mem_append.mp hmem with hold | hnew
    · exact .inr ⟨answer, hold, rfl⟩
    · rw [(answers_eq_some hanswers).2 answer hnew]
      exact .inl hasked

/-- An answer keeps the call valid. -/
theorem Call.Valid.answered {call : Call} (h : call.Valid database) {prepared : Prepared}
    (hasked : call.asked = some prepared)
    (hanswers : answers prepared (call.pending.take 64) items = some results) :
    { call with
      pending := call.pending.drop 64
      asked := none
      results := call.results ++ results }.Valid database where
  revision_le := h.revision_le
  covered requirement hmem := by
    -- The answered batch and the rest are together what was pending.
    obtain ⟨id, hrequest⟩ := h.covered requirement hmem
    refine ⟨id, ?_⟩
    rwa [List.map_append, (answers_eq_some hanswers).1, List.append_assoc,
      List.take_append_drop]
  active hasks := h.active (Call.asks_of_answered hasked hanswers hasks)
  trusted hasks := h.trusted (Call.asks_of_answered hasked hanswers hasks)

/-! ### Histories -/

section Histories

variable (tools : Tools Archive)

/-- The machine after the events. -/
def after (events : List (Event Archive)) : Machine Archive :=
  run (Machine.step tools) .initial events

/-- The evaluator was prepared in the course of the events. -/
def Made (events : List (Event Archive)) (prepared : Prepared) : Prop :=
  ∃ earlier event later, events = earlier ++ event :: later ∧
    Machine.Prepares tools (after tools earlier) event prepared

/-- The call was entered in the course of the events, with the policy state and the authority that
it holds, and has been under way since. -/
def Begun (events : List (Event Archive)) (thread : ℕ) (call : Call) : Prop :=
  ∃ earlier external draw later current,
    events = earlier ++ .enter thread external call.credential call.requirements draw :: later ∧
      (after tools earlier).database.policy = call.state ∧
      (after tools earlier).database.access.current external call.credential = .ok current ∧
      authority (after tools earlier).database current none none = call.authority ∧
      ∀ first, first <+: later → ((after tools (earlier ++
        .enter thread external call.credential call.requirements draw :: first)).calls.lookup
          thread).isSome = true

variable {tools}

theorem after_append_singleton (events : List (Event Archive)) (event : Event Archive) :
    after tools (events ++ [event]) = (after tools events).step tools event := by
  rw [after, run_append]
  rfl

/-- What has been made stays made. -/
theorem Made.append {events : List (Event Archive)} {prepared : Prepared}
    (h : Made tools events prepared) (event : Event Archive) :
    Made tools (events ++ [event]) prepared := by
  obtain ⟨earlier, made, later, rfl, hprepares⟩ := h
  exact ⟨earlier, made, later ++ [event], by simp, hprepares⟩

/-- A call that is still under way after an event. Only what it was entered with matters. -/
theorem Begun.append {events : List (Event Archive)} {thread : ℕ} {call call' : Call}
    (h : Begun tools events thread call) {event : Event Archive}
    (hcredential : call'.credential = call.credential)
    (hrequirements : call'.requirements = call.requirements) (hstate : call'.state = call.state)
    (hauthority : call'.authority = call.authority)
    (hcall : ((after tools (events ++ [event])).calls.lookup thread).isSome = true) :
    Begun tools (events ++ [event]) thread call' := by
  obtain ⟨earlier, external, draw, later, current, rfl, hpolicy, hcurrent, hread, hduring⟩ := h
  rw [Begun, hcredential, hrequirements, hstate, hauthority]
  refine ⟨earlier, external, draw, later ++ [event], current, by simp, hpolicy, hcurrent, hread,
    fun first hfirst => ?_⟩
  rcases List.prefix_concat_iff.mp hfirst with rfl | hprefix
  · rwa [List.append_assoc] at hcall
  · exact hduring first hprefix

/-- The machine and the events that have led to it. -/
structure History (tools : Tools Archive) (events : List (Event Archive)) (s : Machine Archive) :
    Prop where
  reached : s = after tools events
  keyed : s.database.publishers.KeyedBy Publisher.id
  sound : s.Sound
  held : ∀ {prepared}, s.Held prepared → Made tools events prepared
  valid : ∀ {thread call}, s.calls.lookup thread = some call → call.Valid s.database
  begun : ∀ {thread call}, s.calls.lookup thread = some call → Begun tools events thread call
  made : ∀ {thread call prepared}, s.calls.lookup thread = some call → call.Asks prepared →
    Made tools events prepared

namespace History

variable {events : List (Event Archive)} {s : Machine Archive} {event : Event Archive}

/-- Nothing has happened yet. -/
theorem initial : History tools [] (Machine.initial : Machine Archive) where
  reached := rfl
  keyed := ⟨fun h => by cases h⟩
  sound := ⟨(by cases ·), fun h => by cases h⟩
  held := by
    rintro prepared (⟨memory, hmemory, -⟩ | ⟨thread, expected, actor, hlookup⟩)
    · cases hmemory
    · cases hlookup
  valid h := by cases h
  begun h := by cases h
  made h := by cases h

/-- A step keeps every call valid. -/
theorem valid_step (h : History tools events s) {thread : ℕ} {call : Call}
    (hchange : s.CallChange event thread call) : call.Valid s.database := by
  cases hchange with
  | kept hcall => exact h.valid hcall
  | entered memory external credential requirements draw hevent henter => exact .entered henter
  | asked memory old prepared hmemory hcall hevaluator heq =>
    rw [heq]
    exact (h.valid hcall).asked h.sound hmemory hevaluator
  | answered old prepared items results hcall hasked hanswers heq =>
    rw [heq]
    exact (h.valid hcall).answered hasked hanswers

/-- Every call has been begun. -/
theorem begun_step (h : History tools events s) {thread : ℕ} {call : Call}
    (hchange : s.CallChange event thread call)
    (hcall' : ((after tools (events ++ [event])).calls.lookup thread).isSome = true) :
    Begun tools (events ++ [event]) thread call := by
  cases hchange with
  | kept hcall => exact (h.begun hcall).append rfl rfl rfl rfl hcall'
  | entered memory external credential requirements draw hevent henter =>
    rw [h.reached] at henter
    obtain ⟨current, hcurrent, rfl⟩ := enter_eq_some henter
    subst hevent
    refine ⟨events, external, draw, [], current, rfl, rfl, hcurrent, rfl, fun first hfirst => ?_⟩
    obtain rfl := List.prefix_nil.mp hfirst
    exact hcall'
  | asked memory old prepared hmemory hcall hevaluator heq =>
    subst heq
    exact (h.begun hcall).append rfl rfl rfl rfl hcall'
  | answered old prepared items results hcall hasked hanswers heq =>
    subst heq
    exact (h.begun hcall).append rfl rfl rfl rfl hcall'

/-- A call only asks a policy that has been made. -/
theorem made_step (h : History tools events s) {thread : ℕ} {call : Call}
    (hchange : s.CallChange event thread call) {prepared : Prepared} (hasks : call.Asks prepared) :
    Made tools events prepared := by
  cases hchange with
  | kept hcall => exact h.made hcall hasks
  | entered memory external credential requirements draw hevent henter =>
    obtain ⟨current, -, rfl⟩ := enter_eq_some henter
    rcases hasks with hasked | ⟨answer, hmem, -⟩
    · cases hasked
    · cases hmem
  | asked memory old found hmemory hcall hevaluator heq =>
    subst heq
    rcases hasks with hasked | hanswered
    · obtain rfl := Option.some.inj hasked
      exact h.held (.inl ⟨memory, hmemory, (evaluator_eq_some hevaluator).1⟩)
    · exact h.made hcall (.inr hanswered)
  | answered old found items results hcall hasked hanswers heq =>
    subst heq
    exact h.made hcall (Call.asks_of_answered hasked hanswers hasks)

/-- A step keeps the history. -/
theorem step (h : History tools events s) (event : Event Archive) :
    History tools (events ++ [event]) (s.step tools event) := by
  have hmoves := Machine.step_moves tools s event
  have hreached : s.step tools event = after tools (events ++ [event]) := by
    rw [after_append_singleton, ← h.reached]
  refine ⟨hreached, hmoves.database.keyed h.keyed, hmoves.sound h.sound, fun hheld => ?_,
    fun hcall => ?_, fun hcall => ?_, fun hcall hasks => ?_⟩
  · rcases hmoves.held hheld with hold | hnew
    · exact (h.held hold).append event
    · exact ⟨events, event, [], rfl, h.reached ▸ hnew⟩
  · exact (h.valid_step (hmoves.calls hcall)).advances hmoves.database
  · refine h.begun_step (hmoves.calls hcall) ?_
    rw [← hreached, hcall]
    rfl
  · exact (h.made_step (hmoves.calls hcall) hasks).append event

/-- So does a run. -/
theorem run (events : List (Event Archive)) :
    History tools events (after tools events) := by
  have hrun : Along (Machine.step tools) (fun _ _ => True) .initial events := .trivial _ events
  exact hrun.run_history (fun _ _ event h _ => h.step event) .initial

end History

end Histories

/-! ### Enforcement -/

section Enforcement

variable (tools : Tools Archive)

/-- An activation has committed. -/
def Committed (events : List (Event Archive)) : Prop :=
  ∃ earlier event later, events = earlier ++ event :: later ∧
    Machine.Activates (after tools earlier) event

/-- Enforcement is required, in the database and in a running controller. -/
def Required (s : Machine Archive) : Prop :=
  s.database.policy.required = true ∧ ∀ memory, s.memory = some memory → memory.required = true

/-- The evaluator was prepared in the course of the events, and from then on the record of its
publisher has been in the database as it was, and enabled. -/
def Unchanged (events : List (Event Archive)) (prepared : Prepared) : Prop :=
  prepared.publisher.enabled = true ∧ ∃ earlier event later, events = earlier ++ event :: later ∧
    Machine.Prepares tools (after tools earlier) event prepared ∧
      ∀ first, first <+: event :: later →
        (after tools (earlier ++ first)).database.publishers.lookup prepared.publisher.id =
          some prepared.publisher

/-- What has been established of a requirement when a call returns after the events: the host's
grants allow it now, and the active package has allowed it for an authority and a policy state that
are the same now as when the call was entered. -/
def Allowed (events : List (Event Archive)) (external : ExternalCheck) (credential : Identity)
    (requirements : List Requirement) (requirement : Requirement) : Prop :=
  ∃ thread call current, ∃ answer ∈ call.results,
    (after tools events).database.access.current external credential = .ok current ∧
    current.requireHost requirement.action requirement.nodeId requirement.rootId = .ok () ∧
    (after tools events).calls.lookup thread = some call ∧ call.credential = credential ∧
    call.requirements = requirements ∧ Begun tools events thread call ∧
    call.state = (after tools events).database.policy ∧
    call.authority = authority (after tools events).database current none none ∧
    (∃ id, answer.request = request call.authority id requirement) ∧ answer.allow = true ∧
    (after tools events).database.policy.active = some answer.evaluator.package ∧
    Unchanged tools events answer.evaluator

variable {tools}

/-- After the first commit a policy is required. -/
theorem required_of_committed {events : List (Event Archive)} (h : Committed tools events) :
    Required (after tools events) := by
  have hrequired : (after tools events).database.policy.required = true := by
    obtain ⟨earlier, event, later, rfl, thread, external, memory, prepared, expected, actor,
      database, rfl, hmemory, hthread, hcommit⟩ := h
    -- The step of the activation sets the flag, and the later steps keep it.
    have hstep : ((after tools earlier).step tools (.commit thread external)).database =
        database := by
      simp only [Machine.step, hmemory, Machine.perform, Machine.commit, hthread, hcommit]
    obtain ⟨-, hactivate⟩ := Machine.commit_eq_ok hcommit
    obtain ⟨-, -, -, hset, -⟩ := Database.activate_eq_ok hactivate
    have hlater := Machine.advances_run tools
      ((after tools earlier).step tools (.commit thread external)) later
    rw [after, run_append, run_cons]
    exact hlater.required (by rw [hstep, hset])
  refine ⟨hrequired, fun memory hmemory => ?_⟩
  rw [(History.run events).sound.required hmemory, hrequired]

/-- A publisher that is as it was has not changed since. -/
theorem unchanged_of_made {events : List (Event Archive)} {prepared : Prepared}
    (h : Made tools events prepared) (henabled : prepared.publisher.enabled = true)
    (hnow : (after tools events).database.publishers.lookup prepared.publisher.id =
      some prepared.publisher) : Unchanged tools events prepared := by
  obtain ⟨earlier, event, later, rfl, hprepares⟩ := h
  refine ⟨henabled, earlier, event, later, rfl, hprepares, fun first hfirst => ?_⟩
  obtain ⟨rest, hrest⟩ := hfirst
  have hthen := hprepares.recorded (History.run earlier).keyed
  have hto := Machine.advances_run tools (after tools earlier) first
  have hon := Machine.advances_run tools (after tools (earlier ++ first)) rest
  rw [← hrest, ← List.append_assoc, after, run_append] at hnow
  rw [after, run_append] at hon ⊢
  rw [run_append] at hnow
  exact hto.between hon hthen hnow

/-- What `leave` has checked when it returns. -/
theorem leave_eq_ok {database : Database Archive} {external : ExternalCheck} {call : Call}
    (h : leave database external call = .ok ()) :
    ∃ fresh, database.access.current external call.credential = .ok fresh ∧
      (∀ requirement ∈ call.requirements,
        fresh.requireHost requirement.action requirement.nodeId requirement.rootId = .ok ()) ∧
      call.authority = authority database fresh none none ∧ call.state = database.policy ∧
      ∀ answer ∈ call.results, answer.allow = true := by
  simp only [leave, bind_eq_ok, raiseIf_eq_ok, ne_eq, not_not] at h
  obtain ⟨fresh, hcurrent, ⟨⟩, hhost, ⟨⟩, hauthority, state, hstate, ⟨⟩, hsame, hdenied⟩ := h
  obtain rfl := Database.state_eq_ok hstate
  refine ⟨fresh, hcurrent, fun requirement hmem => ?_, hauthority, hsame, ?_⟩
  · exact forM_eq_ok.mp hhost requirement (mem_distinct.mpr hmem)
  · unfold denied at hdenied
    split at hdenied
    · cases hdenied
    · next hfind => simpa using List.find?_eq_none.mp hfind

end Enforcement

/-- Policy enforcement is permanent and fails closed. In every run in which an activation has
committed, enforcement is required, and a call of `check_many` that returns has every requirement
allowed, by the host's grants and by the active package. -/
theorem policy_enforced (tools : Tools Archive) (events : List (Event Archive))
    (hcommitted : Committed tools events) :
    Required (after tools events) ∧ ∀ event external credential requirements,
      Machine.Returns (after tools events) event external credential requirements →
        ∀ requirement ∈ requirements,
          Allowed tools events external credential requirements requirement := by
  have hrequired := required_of_committed hcommitted
  refine ⟨hrequired, ?_⟩
  rintro event external credential requirements hreturns requirement hmem
  rcases hreturns with ⟨thread, draw, memory, -, hmemory, henter⟩ |
    ⟨thread, call, -, hcall, -, hpending, rfl, rfl, hleave⟩
  · -- A call that returns at once asked nothing, or no policy was required.
    rcases enter_eq_none henter with rfl | hnot | hnot
    · cases hmem
    · rw [hrequired.2 memory hmemory] at hnot
      cases hnot
    · rw [hrequired.1] at hnot
      cases hnot
  · have hhistory : History tools events _ := History.run events
    obtain ⟨fresh, hcurrent, hhost, hauthority, hstate, hallow⟩ := leave_eq_ok hleave
    have hvalid := hhistory.valid hcall
    obtain ⟨id, hrequest⟩ := hvalid.covered requirement hmem
    rw [hpending, List.append_nil] at hrequest
    obtain ⟨answer, hanswer, hfor⟩ := List.mem_map.mp hrequest
    have hasks : call.Asks answer.evaluator := .inr ⟨answer, hanswer, rfl⟩
    obtain ⟨hlookup, henabled⟩ := hvalid.trusted hasks (by rw [hstate])
    refine ⟨thread, call, fresh, answer, hanswer, hcurrent, hhost requirement hmem, hcall, rfl, rfl,
      hhistory.begun hcall, hstate, hauthority, ⟨id, hfor⟩, hallow answer hanswer, ?_, ?_⟩
    · rw [← hstate]
      exact hvalid.active hasks
    · exact unchanged_of_made (hhistory.made hcall hasks) henabled hlookup

/-! ### An activation and a check -/

namespace Example

/-- Packages of one publisher. -/
def tools : Tools Unit where
  sha256 _ := 7
  inspect _ := .ok 5
  verify _ _ := .ok ()

def external : ExternalCheck := fun _ _ => false

/-- The owner trusts the publisher, installs its package and activates it. -/
def activation : List (Event Unit) := [
  .restart true,
  .access (.issue { kind := .token, scopes := some ["policies:manage", "nodes:read"] }
    ⟨3, 4, "csrf"⟩),
  .trust external 5 9 true 0 3 true,
  .install external () 3,
  .prepare 0 external 7 1 3 0 true]

def evaluator : Prepared := ⟨7, 5, 9, true, 1⟩

/-- Two requirements, of which one is given twice. -/
def requirements : List Requirement :=
  [⟨"nodes:read", none, none⟩, ⟨"nodes:read", some 8, none⟩, ⟨"nodes:read", none, none⟩]

def check : List (Event Unit) := [
  .enter 0 external 3 requirements fun requirement => requirement.nodeId.getD 1,
  .ask 0 true,
  .answer 0 (some [.decision 1 true ['o', 'k'], .decision 8 true ['o', 'k']])]

def events : List (Event Unit) := activation ++ .commit 0 external :: check

theorem activates : Committed tools events := by
  have hmemory : (after tools activation).memory = some ⟨none, none, none, none, [], false⟩ := by
    decide +kernel
  have hthread : (after tools activation).activations.lookup 0 =
      some (.candidate evaluator 1 3) := by decide +kernel
  have hcommit : (commit (after tools activation).database external evaluator 1 3).isOk = true := by
    decide +kernel
  obtain ⟨database, hdatabase⟩ : ∃ database,
      commit (after tools activation).database external evaluator 1 3 = .ok database := by
    cases hresult : commit (after tools activation).database external evaluator 1 3 with
    | ok database => exact ⟨database, rfl⟩
    | error error =>
      rw [hresult] at hcommit
      cases hcommit
  exact ⟨activation, _, check, rfl, 0, external, _, _, _, _, database, rfl, hmemory, hthread,
    hdatabase⟩

/-- The call in the state in which it returns. -/
def call : Call := (((after tools events).calls.lookup 0).getD
  ⟨0, [], DEFAULT, ⟨0, 0, 0, false, [], [], none, none, false⟩, [], none, []⟩)

theorem returns : Machine.Returns (after tools events) (.leave 0 external) external 3
    requirements := by
  have hcall : (after tools events).calls.lookup 0 = some call := by decide +kernel
  have hstate : call.asked = none ∧ call.pending = [] ∧ call.credential = 3 ∧
      call.requirements = requirements := by decide +kernel
  have hleave : leave (after tools events).database external call = .ok () := by decide +kernel
  exact .inr ⟨0, call, rfl, hcall, hstate.1, hstate.2.1, hstate.2.2.1, hstate.2.2.2, hleave⟩

/-- The theorem at a run with an activation and a call that returns. -/
theorem policy_enforced_check :
    Committed tools events ∧
      Machine.Returns (after tools events) (.leave 0 external) external 3 requirements ∧
      Required (after tools events) ∧
      ∀ requirement ∈ requirements, Allowed tools events external 3 requirements requirement := by
  obtain ⟨hrequired, hallowed⟩ := policy_enforced tools events activates
  exact ⟨activates, returns, hrequired, hallowed _ external 3 requirements returns⟩

end Example

end Ficc.Policies
