import Ficc.System.Provenance

/-!
# Lease containment

The controller records a lease before it sends it, so every lease of an attempt that is on its
way or at an executor was recorded once. The leases of an attempt form a chain in which a later
sequence number comes with a later expiry, and the stored lease is the last of the chain. An
executor only ever moves up in the chain, whatever is lost and in whatever order it receives the
rest.
-/

namespace Ficc

open Execution Workloads

/-- The sequence number and the expiry of a lease. A record without a lease has `⟨0, 0⟩`. -/
structure Stamp where
  sequence : ℕ
  expiresAt : ℚ

namespace Stamp

/-- The lease before the first one. -/
def zero : Stamp := ⟨0, 0⟩

/-- Both components are smaller. -/
def Before (first second : Stamp) : Prop :=
  first.sequence < second.sequence ∧ first.expiresAt < second.expiresAt

/-- The first lease is the second one or an earlier one. -/
def Upto (first second : Stamp) : Prop := first = second ∨ first.Before second

theorem Upto.refl (stamp : Stamp) : stamp.Upto stamp := .inl rfl

theorem Upto.le {first second : Stamp} (h : first.Upto second) :
    first.sequence ≤ second.sequence ∧ first.expiresAt ≤ second.expiresAt := by
  obtain rfl | ⟨hsequence, hexpires⟩ := h
  · exact ⟨le_rfl, le_rfl⟩
  · exact ⟨hsequence.le, hexpires.le⟩

theorem Upto.trans {first second third : Stamp} (h₁ : first.Upto second)
    (h₂ : second.Upto third) : first.Upto third := by
  obtain rfl | hbefore := h₂
  · exact h₁
  · exact .inr ⟨h₁.le.1.trans_lt hbefore.1, h₁.le.2.trans_lt hbefore.2⟩

theorem Upto.trans_before {first second third : Stamp} (h : first.Upto second)
    (hnext : second.Before third) : first.Before third := by
  obtain ⟨hsequence, hexpires⟩ := h.le
  exact ⟨hsequence.trans_lt hnext.1, hexpires.trans_lt hnext.2⟩

end Stamp

/-- The sequence number and the expiry of a lease. -/
def Execution.Renewal.stamp (lease : Renewal) : Stamp := ⟨lease.sequence, lease.expiresAt⟩

/-- The lease that the executor has recorded. -/
def Execution.Value.stamp (value : Value) : Stamp := ⟨value.leaseSequence, value.leaseExpiresAt⟩

theorem Stamp.zero_before (lease : Renewal) : Stamp.zero.Before lease.stamp :=
  ⟨lease.sequence_pos, lease.expiresAt_pos⟩

/-- Only a renewal changes the lease of a record. -/
theorem Execution.Move.stamp_apply (value : Value) (move : Move) :
    (move.apply value).stamp = value.stamp ∨
      ∃ request timing, move = .renew request timing ∧ (move.apply value).stamp = request.stamp := by
  cases move with
  | annotate fields =>
    obtain ⟨_, _, _, _, _, h⟩ := AnnotatedField.foldl_apply fields value
    simp only [Move.apply, h]
    exact .inl rfl
  | recover before binding observedAt =>
    simp only [Move.apply]
    split_ifs <;> exact .inl rfl
  | renew request timing => exact .inr ⟨request, timing, rfl, rfl⟩
  | _ => exact .inl rfl

namespace System

variable [Hash Plan]

/-- A lease of the attempt is stored, on its way, or recorded by an executor. -/
inductive Leased (s : System) (id : Identity) : Stamp → Prop
  | stored {attempt : Attempt} (found : s.store.lookupAttempt id = some attempt) :
    Leased s id attempt.lease.stamp
  | renewed {lease : Renewal} (mem : Command.renew lease ∈ s.commands)
    (names : lease.attemptId = id) : Leased s id lease.stamp
  | admitted {installationId ledgerId : Identity} {admission : Admission}
    (mem : Command.prepare installationId ledgerId admission ∈ s.commands)
    (names : admission.lease.attemptId = id) : Leased s id admission.lease.stamp
  | recorded {ledger : Identity} {value : Value} (found : s.record ledger id = some value) :
    Leased s id value.stamp

/-- The leases of every attempt form a chain with the stored lease at its end. -/
structure Chained (s : System) : Prop where
  drawn : ∀ {id : Identity} {stamp : Stamp}, s.Leased id stamp → id ∈ s.drawn
  positive : ∀ {id : Identity} {stamp : Stamp}, s.Leased id stamp → Stamp.zero.Upto stamp
  chain : ∀ {id : Identity} {first second : Stamp}, s.Leased id first → s.Leased id second →
    first.Upto second ∨ second.Upto first
  last : ∀ {id : Identity} {stamp : Stamp} {attempt : Attempt}, s.Leased id stamp →
    s.store.lookupAttempt id = some attempt → stamp.Upto attempt.lease.stamp

variable {careful : Prop} {s s' : System}

/-- The controller has recorded the first lease of a new attempt, or the next lease of a stored
one. -/
def Grants (s s' : System) (id : Identity) (attempt' : Attempt) : Prop :=
  s'.store.lookupAttempt id = some attempt' ∧
    (id ∉ s.drawn ∧ id ∈ s'.drawn ∨
      ∃ attempt, s.store.lookupAttempt id = some attempt ∧
        attempt.lease.stamp.Before attempt'.lease.stamp)

/-- Where a lease comes from in a change. -/
inductive Extends (s s' : System) (id : Identity) (stamp : Stamp) : Prop
  /-- The lease was there. -/
  | old (leased : s.Leased id stamp)
  /-- An executor has a new record, without a lease. -/
  | empty (drawn : id ∈ s.drawn) (zero : stamp = .zero)
  | granted {attempt' : Attempt} (grants : Grants s s' id attempt')
    (eq : stamp = attempt'.lease.stamp)

variable {executor : Supervisor} {ledger id : Identity} {value' : Value} {attempt' : Attempt}

/-- A record gets its leases from the commands that name it. -/
theorem leased_of_develops {value : Value}
    (h : Ledger.Develops (s.Allows careful ledger executor) value value') :
    value'.stamp = value.stamp ∨ s.Leased value.plan.attemptId value'.stamp := by
  induction h with
  | refl => exact .inl rfl
  | @tail middle last hfirst hlast ih =>
    obtain rfl | ⟨move, -, hpermitted, rfl⟩ := hlast
    · exact ih
    obtain hsame | ⟨request, timing, rfl, hstamp⟩ := Move.stamp_apply middle move
    · rwa [hsame]
    -- The request names the plan of the record, which no move changes.
    refine .inr ?_
    rw [hstamp]
    obtain ⟨hfence, hmem | ⟨installationId, ledgerId, admission, rfl, hmem⟩⟩ := hpermitted
    · refine .renewed hmem ?_
      rw [← hfence, ← Ledger.Develops.plan hfirst]
      rfl
    · refine .admitted hmem ?_
      rw [← hfence, ← Ledger.Develops.plan hfirst]
      rfl

/-- Only a renewal changes the lease of a stored attempt. -/
theorem lease_of_act {action : Workloads.Action} {attempt : Attempt}
    (h : (action.applyAttempt attempt).Touches attempt') :
    attempt'.lease = attempt.lease ∨ ∃ lease, action = .renew lease ∧ attempt'.lease = lease := by
  obtain ⟨updatedAt, rfl⟩ := h
  cases action with
  | renew lease => exact .inr ⟨lease, rfl, rfl⟩
  | _ => exact .inl rfl

variable [Hash Submission]

/-- The lease of a stored attempt after an event of the store. -/
theorem lease_of_changes (hs : s.Sound) {event : Store.Event} {store' : Store}
    (permitted : s.Permits event) (changes : event.Changes s.store store')
    (found : store'.lookupAttempt id = some attempt') :
    (∃ attempt, s.store.lookupAttempt id = some attempt ∧ attempt'.lease = attempt.lease) ∨
      Grants s
        { s with
          store := store', commands := sends event ++ s.commands, drawn := draws event ∪ s.drawn }
        id attempt' := by
  cases hbefore : s.store.lookupAttempt id with
  | none =>
    obtain ⟨job, rfl, rfl⟩ := Store.reserve_of_changes hs.linked changes hbefore found
    exact .inr ⟨found, .inl ⟨permitted.1,
      Finset.mem_union_left _ (Finset.mem_singleton_self _)⟩⟩
  | some attempt =>
    obtain hkept | ⟨action, job, touched, rfl, htouches, hnew⟩ | ⟨job, -, -, hnone⟩ :=
      Store.lookupAttempt_of_changes hs.linked changes hbefore
    · obtain rfl := Option.some.inj (hkept.symm.trans found)
      exact .inl ⟨attempt, rfl, rfl⟩
    · obtain rfl := Option.some.inj (hnew.symm.trans found)
      obtain hsame | ⟨lease, rfl, hlease⟩ := lease_of_act htouches
      · exact .inl ⟨attempt, rfl, hsame⟩
      · obtain ⟨-, hsequence, hexpires⟩ := Store.Acts.allowed changes
        refine .inr ⟨found, .inr ⟨attempt, hbefore, ?_⟩⟩
        rw [hlease]
        have hless : attempt.lease.sequence < lease.sequence := by omega
        exact ⟨hless, hexpires⟩
    · exact absurd (hnone.symm.trans found) (by simp)

/-- A lease is the old one, or it has been renewed. -/
theorem lease_of_change (hs : s.Sound) (h : Change careful s s')
    (found : s'.store.lookupAttempt id = some attempt') :
    (∃ attempt, s.store.lookupAttempt id = some attempt ∧ attempt'.lease = attempt.lease) ∨
      Grants s s' id attempt' := by
  cases h with
  | records permitted changes => exact lease_of_changes hs permitted changes found
  | administer same => exact .inl ⟨attempt', (same.lookupAttempt id).symm.trans found, rfl⟩
  | _ => exact .inl ⟨attempt', found, rfl⟩

/-- A stored lease after a change. -/
theorem extends_stored (hs : s.Sound) (h : Change careful s s')
    (found : s'.store.lookupAttempt id = some attempt') :
    Extends s s' id attempt'.lease.stamp := by
  obtain ⟨attempt, hattempt, hlease⟩ | hgrants := lease_of_change hs h found
  · rw [hlease]
    exact .old (.stored hattempt)
  · exact .granted hgrants rfl

/-- A lease that the store sends is the one that it has just recorded. -/
theorem stored_of_sends (hs : s.Sound) {event : Store.Event} {store' : Store}
    (changes : event.Changes s.store store') {lease : Renewal}
    (hmem : Command.renew lease ∈ sends event) :
    ∃ attempt', store'.lookupAttempt lease.attemptId = some attempt' ∧ attempt'.lease = lease := by
  unfold sends at hmem
  split at hmem
  · rename_i sent job attempt
    obtain rfl := Command.renew.inj (List.mem_singleton.mp hmem)
    obtain ⟨job', attempt', -, htouches, -, hkeeps, -, -, hwrites⟩ :=
      Store.Acts.writes_keeps hs.linked changes
    have hlease : attempt'.lease = lease := by
      obtain ⟨updatedAt, rfl⟩ := htouches
      rfl
    -- A valid attempt has a lease for its own plan.
    have hnames : lease.attemptId = attempt'.id := by
      have hbound := congrArg Fence.attemptId hkeeps.valid.lease_bound
      rw [hlease] at hbound
      exact hbound.trans (Prod.mk.inj hkeeps.valid.plan_bound).1.symm
    exact ⟨attempt', by rw [hwrites.attempts, if_pos hnames], hlease⟩
  · cases List.mem_singleton.mp hmem
  · cases hmem

/-- The lease of a record after an executor has acted. -/
theorem extends_recorded (hs : s.Sound) (ht : s.Traced) {ledger' : Ledger}
    (found : s.executors.lookup ledger = some executor)
    (changes : Ledger.Changes (s.Allows careful ledger executor) executor.ledger ledger')
    (get : ledger'.get id = some value') :
    Extends s s' id value'.stamp := by
  have hbound := (hs.installed found).invariant.ledger.bound
  obtain ⟨value, hvalue, hdevelops⟩ | ⟨middle, first, -, hinserted, hdevelops⟩ :=
    changes.backward hbound get
  · have hid := hbound.key hvalue
    obtain hsame | hleased := leased_of_develops hdevelops
    · rw [hsame]
      exact .old (.recorded (record_eq_some.mpr ⟨executor, found, hvalue⟩))
    · exact .old (hid ▸ hleased)
  · have hid : value'.plan.attemptId = id := (changes.bound hbound).key get
    rw [hdevelops.plan] at hid
    have hdrawn := ht.attempt_drawn (known_of_inserted hinserted)
    have hzero : first.stamp = .zero := by cases hinserted <;> rfl
    obtain hsame | hleased := leased_of_develops hdevelops
    · exact .empty (hid ▸ hdrawn) (hsame.trans hzero)
    · exact .old (hid ▸ hleased)

/-- Every lease after a change was there before, is the zero lease of a new record, or has just
been recorded by the controller. -/
theorem extends_of_change (hs : s.Sound) (ht : s.Traced) (h : Change careful s s') {stamp : Stamp}
    (hleased : s'.Leased id stamp) : Extends s s' id stamp := by
  have hchange := h
  cases hleased with
  | stored found => exact extends_stored hs h found
  | @renewed lease mem names =>
    cases h with
    | @records event store' permitted changes =>
      obtain hnew | hold := List.mem_append.mp mem
      · obtain ⟨attempt', found, rfl⟩ := stored_of_sends hs changes hnew
        subst names
        exact extends_stored hs hchange found
      · exact .old (.renewed hold names)
    | send honest =>
      obtain rfl | hold := List.mem_cons.mp mem
      · exact honest.elim
      · exact .old (.renewed hold names)
    | forget kept started => exact .old (.renewed (kept _ mem) names)
    | _ => exact .old (.renewed mem names)
  | @admitted installationId ledgerId admission mem names =>
    cases h with
    | @records event store' permitted changes =>
      obtain hnew | hold := List.mem_append.mp mem
      · exact absurd ⟨rfl, rfl, rfl⟩ (not_asks_of_sends hnew)
      · exact .old (.admitted hold names)
    | send honest =>
      obtain rfl | hold := List.mem_cons.mp mem
      · obtain ⟨other, attempt, hattempt, -, hlease, -, -⟩ := honest
        -- The lease is stored under the identity that it names.
        have hvalid := hs.linked.attempt hattempt
        have hnames : other = id := by
          rw [← names, ← hlease, hvalid.lease_bound, Plan.fence_attemptId,
            ← (Prod.mk.inj hvalid.plan_bound).1, hs.linked.bound.attempt_id hattempt]
        rw [← hlease]
        exact .old (.stored (hnames ▸ hattempt))
      · exact .old (.admitted hold names)
    | forget kept started => exact .old (.admitted (kept _ mem) names)
    | _ => exact .old (.admitted mem names)
  | recorded hrecord =>
    cases h with
    | execute found changes installed node installation =>
      obtain ⟨acted, hlookup, hget⟩ := record_eq_some.mp hrecord
      obtain ⟨rfl, rfl⟩ | ⟨-, hlookup⟩ := lookup_insert_cases hlookup
      · exact extends_recorded hs ht found changes hget
      · exact .old (.recorded (record_eq_some.mpr ⟨acted, hlookup, hget⟩))
    | install fresh =>
      obtain ⟨acted, hlookup, hget⟩ := record_eq_some.mp hrecord
      obtain ⟨rfl, rfl⟩ | ⟨-, hlookup⟩ := lookup_insert_cases hlookup
      · simp [Supervisor.install, Supervisor.opened, Ledger.create, Ledger.get] at hget
      · exact .old (.recorded (record_eq_some.mpr ⟨acted, hlookup, hget⟩))
    | _ => exact .old (.recorded hrecord)

omit [Hash Submission] in
/-- A lease that has just been recorded is the last one. -/
theorem Extends.upto_granted (hc : s.Chained) {stamp : Stamp} (h : Extends s s' id stamp)
    (hgrants : Grants s s' id attempt') :
    stamp.Upto attempt'.lease.stamp := by
  cases h with
  | old leased =>
    obtain ⟨-, ⟨hfresh, -⟩ | ⟨attempt, hattempt, hbefore⟩⟩ := hgrants
    · exact absurd (hc.drawn leased) hfresh
    · exact .inr ((hc.last leased hattempt).trans_before hbefore)
  | empty drawn zero =>
    rw [zero]
    exact .inr (Stamp.zero_before _)
  | granted grants eq =>
    obtain rfl := Option.some.inj (grants.1.symm.trans hgrants.1)
    exact .inl eq

/-- A change keeps the chain of the leases. -/
theorem Chained.change (hs : s.Sound) (ht : s.Traced) (hc : s.Chained) (h : Change careful s s') :
    s'.Chained where
  drawn hleased := by
    cases extends_of_change hs ht h hleased with
    | old leased => exact drawn_of_change h (hc.drawn leased)
    | empty drawn zero => exact drawn_of_change h drawn
    | granted grants eq =>
      obtain ⟨-, ⟨-, hdrawn⟩ | ⟨attempt, hattempt, -⟩⟩ := grants
      · exact hdrawn
      · exact drawn_of_change h (hc.drawn (.stored hattempt))
  positive hleased := by
    cases extends_of_change hs ht h hleased with
    | old leased => exact hc.positive leased
    | empty drawn zero => exact .inl zero.symm
    | granted grants eq =>
      rw [eq]
      exact .inr (Stamp.zero_before _)
  chain hfirst hsecond := by
    have hextends := extends_of_change hs ht h hfirst
    have hextends' := extends_of_change hs ht h hsecond
    cases hextends with
    | granted grants eq => exact .inr (eq ▸ hextends'.upto_granted hc grants)
    | empty drawn zero =>
      cases hextends' with
      | granted grants eq => exact .inl (eq ▸ Extends.upto_granted hc (.empty drawn zero) grants)
      | empty drawn' zero' => exact .inl (.inl (zero.trans zero'.symm))
      | old leased' => exact .inl (zero ▸ hc.positive leased')
    | old leased =>
      cases hextends' with
      | granted grants eq => exact .inl (eq ▸ Extends.upto_granted hc (.old leased) grants)
      | empty drawn' zero' => exact .inr (zero' ▸ hc.positive leased)
      | old leased' => exact hc.chain leased leased'
  last hleased hattempt' := by
    obtain ⟨attempt, hattempt, hlease⟩ | hgrants := lease_of_change hs h hattempt'
    swap
    · exact (extends_of_change hs ht h hleased).upto_granted hc hgrants
    rw [hlease]
    cases extends_of_change hs ht h hleased with
    | old leased => exact hc.last leased hattempt
    | empty drawn zero => exact zero ▸ hc.positive (.stored hattempt)
    | granted grants eq =>
      obtain rfl := Option.some.inj (grants.1.symm.trans hattempt')
      exact .inl (eq.trans (congrArg Renewal.stamp hlease))

omit [Hash Submission] in
/-- The moves on a record never take its lease back. -/
theorem upto_of_develops (hc : s.Chained) {value : Value}
    (hleased : s.Leased value.plan.attemptId value.stamp)
    (h : Ledger.Develops (s.Allows careful ledger executor) value value') :
    value.stamp.Upto value'.stamp := by
  induction h with
  | refl => exact .refl _
  | @tail middle last hfirst hlast ih =>
    have hlater := leased_of_develops (hfirst.tail hlast)
    obtain rfl | ⟨move, hallowed, -, rfl⟩ := hlast
    · exact ih
    obtain hsame | ⟨request, timing, rfl, hstamp⟩ := Move.stamp_apply middle move
    · rwa [hsame]
    have hmiddle : s.Leased value.plan.attemptId middle.stamp := by
      obtain hsame | hmiddle := leased_of_develops hfirst
      · rwa [hsame]
      · exact hmiddle
    have hrequest : s.Leased value.plan.attemptId request.stamp := by
      rw [← hstamp]
      obtain hsame | hrequest := hlater
      · rwa [hsame]
      · exact hrequest
    -- The request is later in the chain, because its sequence number is larger.
    rw [hstamp]
    obtain hupto | hupto := hc.chain hmiddle hrequest
    · exact ih.trans hupto
    · have hless : middle.leaseSequence < request.sequence := hallowed.2
      exact absurd hupto.le.1 (not_le.mpr hless)

/-- Every record is kept, and its lease is not taken back. -/
def Advances (s s' : System) : Prop :=
  ∀ ledger id value, s.record ledger id = some value →
    ∃ value', s'.record ledger id = some value' ∧ value.stamp.Upto value'.stamp

theorem advances_of_change (hs : s.Sound) (ht : s.Traced) (hc : s.Chained)
    (h : Change careful s s') : Advances s s' := by
  intro ledger id value hrecord
  obtain ⟨value', executor, hrecord', hdevelops⟩ := record_of_change hs ht h hrecord
  have hid : value.plan.attemptId = id := (known_of_record hs hrecord).2
  exact ⟨value', hrecord', upto_of_develops hc (.recorded (hid ▸ hrecord)) hdevelops⟩

/-- What holds of the leases in every run. -/
structure Timely (s : System) : Prop where
  traced : s.Traced
  chained : s.Chained

theorem Timely.change (hs : s.Sound) (h : s.Timely) (hchange : Change careful s s') : s'.Timely :=
  ⟨h.traced.change hs hchange, h.chained.change hs h.traced hchange⟩

/-- No step moves a lease back. -/
theorem advances_step (hs : s.Sound) (h : s.Timely) (action : Action) :
    Advances s (s.step action) := by
  have hchanges : Changes False s (s.step action) := changes_step hs action nofun
  suffices hall : ∀ s', Changes False s s' → s'.Sound ∧ s'.Timely ∧ Advances s s' from
    (hall _ hchanges).2.2
  intro s' hchanges
  induction hchanges with
  | refl => exact ⟨hs, h, fun ledger id value hrecord => ⟨value, hrecord, .refl _⟩⟩
  | tail _ hlast ih =>
    obtain ⟨hs', ht', hadvances⟩ := ih
    refine ⟨hs'.change hlast, ht'.change hs' hlast, fun ledger id value hrecord => ?_⟩
    obtain ⟨middle, hmiddle, hfirst⟩ := hadvances ledger id value hrecord
    obtain ⟨value', hvalue', hsecond⟩ :=
      advances_of_change hs' ht'.traced ht'.chained hlast ledger id middle hmiddle
    exact ⟨value', hvalue', hfirst.trans hsecond⟩

/-- The lease at an executor is within the lease that the controller has recorded, so that it is
not active after that has expired. -/
def Contained (s : System) : Prop :=
  ∀ ledger id value attempt, s.record ledger id = some value →
    s.store.lookupAttempt id = some attempt →
    value.leaseSequence ≤ attempt.lease.sequence ∧
      value.leaseExpiresAt ≤ attempt.lease.expiresAt ∧
      ∀ now : Reading, attempt.lease.expiresAt ≤ now.wall → ¬value.Active now

/-- The step keeps every record of every executor and moves neither its sequence number nor its
expiry back. -/
def KeepsLeases (s : System) (action : Action) : Prop :=
  ∀ ledger id value, s.record ledger id = some value →
    ∃ value', (s.step action).record ledger id = some value' ∧
      value.leaseSequence ≤ value'.leaseSequence ∧ value.leaseExpiresAt ≤ value'.leaseExpiresAt

omit [Hash Submission] in
/-- Chained leases are contained. -/
theorem Chained.contained (hc : s.Chained) : s.Contained := by
  intro ledger id value attempt hrecord hattempt
  obtain ⟨hsequence, hexpires⟩ := (hc.last (.recorded hrecord) hattempt).le
  exact ⟨hsequence, hexpires, fun now hnow => not_active_of_expired (hexpires.trans hnow)⟩

omit [Hash Submission] in
theorem chained_initial (projects identities : List Identity)
    (contributors : Table Identity Contributor) (policyRevision : ℕ) (managed : List String) :
    (initial projects identities contributors policyRevision managed).Chained := by
  have hnone : ∀ {id stamp},
      ¬(initial projects identities contributors policyRevision managed).Leased id stamp := by
    intro id stamp hleased
    cases hleased with
    | stored found => simp [initial, Store.initial, Store.lookupAttempt] at found
    | renewed mem names => cases mem
    | admitted mem names => cases mem
    | recorded found => simp [initial, record] at found
  exact ⟨fun h => (hnone h).elim, fun h => (hnone h).elim, fun h => (hnone h).elim,
    fun h => (hnone h).elim⟩

/-- In every run the leases at the executors are contained in those of the controller, and no
step takes the lease of a record back. -/
theorem leases_contained (projects identities : List Identity)
    (contributors : Table Identity Contributor) (policyRevision : ℕ) (managed : List String)
    (actions : List Action) :
    let start := initial projects identities contributors policyRevision managed
    (run step start actions).Contained ∧ Along step KeepsLeases start actions := by
  intro start
  have hs : start.Sound := sound_initial projects identities contributors policyRevision managed
  have ht : start.Timely :=
    ⟨traced_initial projects identities contributors policyRevision managed,
      chained_initial projects identities contributors policyRevision managed⟩
  refine ⟨(run_changes Timely.change hs ht actions).2.chained.contained, ?_⟩
  have hrun : Along step (fun _ _ => True) start actions := .trivial start actions
  refine Along.of_invariant (I := fun s => s.Sound ∧ s.Timely) ?_ ?_ ⟨hs, ht⟩ hrun
  · intro s action hI _
    exact run_changes Timely.change hI.1 hI.2 [action]
  · intro s action hI _ ledger id value hrecord
    obtain ⟨value', hvalue', hupto⟩ := advances_step hI.1 hI.2 action ledger id value hrecord
    exact ⟨value', hvalue', hupto.le⟩

end System

end Ficc
