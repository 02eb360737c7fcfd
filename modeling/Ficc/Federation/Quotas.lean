import Ficc.Federation.Mutations

/-!
# Quotas

What a grant allows is never exceeded: the number of requests, the bytes of transfers and the
operations in progress. And no charge is lost: the counters of a grant are the number of its
admissions and the sum of its charges, because every operation reads a grant and writes it back
without waiting in between.
-/

namespace Ficc.Federation

open Execution (Identity Digest Hash)
open Authority (Revoked)
open Operations (Registered)

/-- The event neither admits a request nor charges bytes. -/
def Event.free : Event → Bool
  | .admitted _ | .charged _ _ => false
  | _ => true

/-- The bytes that an event charges to a grant. -/
def Event.charge (grantId : Identity) : Event → ℕ
  | .charged other count => if other = grantId then count else 0
  | _ => 0

namespace Manager

/-- How often requests were admitted under a grant. -/
def admissions (s : Manager) (grantId : Identity) : ℕ := s.history.count (.admitted grantId)

/-- The bytes that were charged to a grant. -/
def charges (s : Manager) (grantId : Identity) : ℕ := (s.history.map (Event.charge grantId)).sum

/-- The counters of a grant are what was charged, and within what it allows. -/
structure Within (s : Manager) (k : Identity) (value : Grant) : Prop where
  admissions : value.usedRequests = s.admissions k
  charges : value.usedBytes = s.charges k
  requests : value.usedRequests ≤ value.spec.requests
  bytes : value.usedBytes ≤ value.spec.transferBytes
  concurrent : (s.active k).card ≤ value.spec.concurrent

/-- Every grant is within its quota, and nothing was charged to one that is still to be drawn. -/
structure Metered (s : Manager) : Prop where
  keyed : s.Keyed
  within : ∀ {k value}, s.grants.lookup k = some value → s.Within k value
  undrawn : ∀ {k}, k ∉ s.drawn → s.admissions k = 0 ∧ s.charges k = 0 ∧ s.active k = ∅

/-- The grant comes from one with the same specification and the same counters, or is new. -/
def Inherited (s : Manager) (k : Identity) (next : Grant) : Prop :=
  (∃ value, s.grants.lookup k = some value ∧ next.spec = value.spec ∧
    next.usedRequests = value.usedRequests ∧ next.usedBytes = value.usedBytes) ∨
  (k ∉ s.drawn ∧ next.usedRequests = 0 ∧ next.usedBytes = 0)

/-- The step uses no grant. -/
structure Spares (s s' : Manager) : Prop where
  grants : ∀ k next, s'.grants.lookup k = some next → s.Inherited k next
  history : ∃ events, s'.history = events ++ s.history ∧ events.all Event.free = true
  active : ∀ k, s'.active k ⊆ s.active k
  drawn : s.drawn ⊆ s'.drawn

variable {s s' : Manager}

theorem Inherited.refl {k : Identity} {value : Grant} (h : s.grants.lookup k = some value) :
    s.Inherited k value :=
  .inl ⟨value, h, rfl, rfl, rfl⟩

theorem Inherited.registered {request : Request} {grants : Table Identity Grant}
    (h : Registered s request grants) (k : Identity) (next : Grant)
    (hnext : grants.lookup k = some next) : s.Inherited k next := by
  obtain ⟨value, hvalue, rfl | ⟨-, hregisters⟩⟩ := h k next hnext
  · exact .refl hvalue
  · exact .inl ⟨value, hvalue, hregisters.spec, hregisters.usedRequests, hregisters.usedBytes⟩

theorem Inherited.written {grantId : Identity} {next : Grant} {grants : Table Identity Grant}
    (hnext : s.Inherited grantId next)
    (hgrants : ∀ k, grants.lookup k = if k = grantId then some next else s.grants.lookup k)
    (k : Identity) (found : Grant) (hfound : grants.lookup k = some found) :
    s.Inherited k found := by
  rw [hgrants] at hfound
  split_ifs at hfound with hk
  · obtain rfl := Option.some.inj hfound
    exact hk ▸ hnext
  · exact .refl hfound

/-- A step that leaves the grants alone, with the events that it adds. -/
theorem Spares.of_grants (events : List Event) (hgrants : s'.grants = s.grants := by rfl)
    (hhistory : s'.history = events ++ s.history := by rfl)
    (hfree : events.all Event.free = true := by rfl)
    (hactive : ∀ k, s'.active k ⊆ s.active k := by exact fun _ => subset_rfl)
    (hdrawn : s.drawn ⊆ s'.drawn := by exact subset_rfl) : Spares s s' :=
  ⟨fun _ _ hnext => .refl (hgrants ▸ hnext), ⟨events, hhistory, hfree⟩, hactive, hdrawn⟩

theorem Spares.counts (h : Spares s s') (k : Identity) :
    s'.admissions k = s.admissions k ∧ s'.charges k = s.charges k := by
  obtain ⟨events, hhistory, hfree⟩ := h.history
  rw [List.all_eq_true] at hfree
  have hnone : events.count (.admitted k) = 0 :=
    List.count_eq_zero.mpr fun hmem => absurd (hfree _ hmem) (by simp [Event.free])
  have hzero : (events.map (Event.charge k)).sum = 0 := by
    refine List.sum_eq_zero fun n hn => ?_
    obtain ⟨event, hevent, rfl⟩ := List.mem_map.mp hn
    have hnot := hfree event hevent
    cases event <;> simp_all [Event.free, Event.charge]
  constructor
  · rw [admissions, hhistory, List.count_append, hnone, Nat.zero_add, admissions]
  · rw [charges, hhistory, List.map_append, List.sum_append, hzero, Nat.zero_add, charges]

/-- A step that uses no grant keeps all of them within their quotas. -/
theorem Metered.spares (h : s.Metered) (hkeyed : s'.Keyed) (hspares : Spares s s') :
    s'.Metered := by
  refine ⟨hkeyed, fun {k next} hnext => ?_, fun {k} hk => ?_⟩
  · obtain ⟨hadmissions, hcharges⟩ := hspares.counts k
    have hcard := Finset.card_le_card (hspares.active k)
    obtain ⟨value, hvalue, hspec, hrequests, hbytes⟩ | ⟨hnew, hrequests, hbytes⟩ :=
      hspares.grants k next hnext
    · have hwithin := h.within hvalue
      constructor
      · rw [hrequests, hadmissions, hwithin.admissions]
      · rw [hbytes, hcharges, hwithin.charges]
      · rw [hrequests, hspec]
        exact hwithin.requests
      · rw [hbytes, hspec]
        exact hwithin.bytes
      · rw [hspec]
        exact hcard.trans hwithin.concurrent
    · obtain ⟨hnone, hfree, hempty⟩ := h.undrawn hnew
      rw [hempty, Finset.card_empty] at hcard
      constructor <;> omega
  · have hold : k ∉ s.drawn := fun hmem => hk (hspares.drawn hmem)
    obtain ⟨hadmissions, hcharges⟩ := hspares.counts k
    obtain ⟨hnone, hfree, hempty⟩ := h.undrawn hold
    exact ⟨hadmissions.trans hnone, hcharges.trans hfree,
      Finset.subset_empty.mp (hempty ▸ hspares.active k)⟩

/-- A step that writes one grant and leaves the counts of all others alone. -/
theorem Metered.rewrite (h : s.Metered) (hkeyed : s'.Keyed) {id : Identity} {value next : Grant}
    (hvalue : s.grants.lookup id = some value) (hgrants : s'.grants = s.grants.insert value.id next)
    (hnext : s'.Within id next) (hothers : ∀ k ≠ id, s'.admissions k = s.admissions k ∧
      s'.charges k = s.charges k ∧ s'.active k = s.active k) (hdrawn : s'.drawn = s.drawn) :
    s'.Metered := by
  obtain rfl : value.id = id := h.keyed.grants.key_eq hvalue
  refine ⟨hkeyed, fun {k found} hfound => ?_, fun {k} hk => ?_⟩
  -- The grant that is written is within its quota, and the others keep their counts.
  · rw [hgrants, Table.lookup_insert_eq] at hfound
    split_ifs at hfound with hid
    · obtain rfl := Option.some.inj hfound
      exact hid ▸ hnext
    · obtain ⟨hadmissions, hcharges, hactive⟩ := hothers k hid
      obtain ⟨hcounted, hsummed, hrequests, hbytes, hconcurrent⟩ := h.within hfound
      exact ⟨hcounted.trans hadmissions.symm, hsummed.trans hcharges.symm, hrequests, hbytes,
        hactive ▸ hconcurrent⟩
  · rw [hdrawn] at hk
    have hid : k ≠ value.id := fun heq => hk (heq ▸ h.keyed.drawn hvalue)
    obtain ⟨hadmissions, hcharges, hactive⟩ := hothers k hid
    rw [hadmissions, hcharges, hactive]
    exact h.undrawn hk

variable [Hash (Key × Identity)] [Hash (Signed Offer)] [Hash Receipt] [Hash Arguments]

/-- Only the admission of a request and the charge of bytes use a grant. -/
theorem Metered.change {a : Step} (h : s.Metered) (hchange : Change s a s') : s'.Metered := by
  have hkeyed := h.keyed.change hchange
  have hdrawn (identity other : Identity) : s.drawn ⊆ insert identity (insert other s.drawn) :=
    (Finset.subset_insert _ _).trans (Finset.subset_insert _ _)
  have hsame (k : Identity) : s.active k ⊆ s.active k := subset_rfl
  have hstops (k : Identity) : ∅ ⊆ s.active k := Finset.empty_subset _
  cases hchange with
  | @serve number request principal env peer value _ hauthorised hconcurrent hrequests =>
    have hid := h.keyed.grants.key_eq hauthorised.grant
    have hwithin := h.within hauthorised.grant
    rw [← hid] at hauthorised hwithin
    refine h.rewrite hkeyed hauthorised.grant rfl ?_ (fun k hk => ?_) rfl
    · constructor
      · simp [admissions, hwithin.admissions]
      · simpa [charges, Event.charge] using hwithin.charges
      · exact hrequests
      · exact hwithin.bytes
      · -- The connection is one more.
        simp only [Function.update_self]
        exact (Finset.card_insert_le _ _).trans hconcurrent
    · have hne : Event.admitted value.id ≠ .admitted k := fun heq => hk (Event.admitted.inj heq).symm
      simp [admissions, charges, Event.charge, List.count_cons_of_ne hne, Function.update_of_ne hk]
  | @charge number count env session value _ hauthorised hbytes =>
    have hid := h.keyed.grants.key_eq hauthorised.grant
    have hwithin := h.within hauthorised.grant
    rw [← hid] at hauthorised hwithin
    refine h.rewrite hkeyed hauthorised.grant rfl ?_ (fun k hk => ?_) rfl
    · constructor
      · simpa [admissions] using hwithin.admissions
      · simp [charges, Event.charge, hwithin.charges, Nat.add_comm]
      · exact hwithin.requests
      · exact hbytes
      · exact hwithin.concurrent
    · simp [admissions, charges, Event.charge, hk.symm]
  | approve hdraw _ _ _ _ _ _ _ _ hrequests hbytes =>
    exact h.spares hkeyed ⟨.written (.inr ⟨hdraw, hrequests, hbytes⟩) fun _ =>
      Table.lookup_insert_eq .., ⟨[_], rfl, rfl⟩, hsame, hdrawn _ _⟩
  | grant hdraw _ _ _ _ _ _ _ hrequests hbytes =>
    exact h.spares hkeyed ⟨.written (.inr ⟨hdraw, hrequests, hbytes⟩) fun _ =>
      Table.lookup_insert_eq .., ⟨[], rfl, rfl⟩, hsame, hdrawn _ _⟩
  | start => exact h.spares hkeyed (.of_grants [_] rfl rfl rfl hsame (Finset.subset_insert _ _))
  | status => exact h.spares hkeyed (.of_grants [_, _])
  | finish | removesPeer | begins => exact h.spares hkeyed (.of_grants [_])
  | statusHalf _ _ _ hnext hs' | confirmedHalf _ _ _ _ _ hnext hs' =>
    subst hnext
    obtain rfl | rfl := hs'
    · exact h.spares hkeyed (.of_grants [])
    · exact h.spares hkeyed (.of_grants [] rfl rfl rfl hstops)
  | revoke hvalue hnext hgrants | revokes _ _ _ _ hvalue hnext hgrants =>
    exact h.spares hkeyed ⟨.written (.inl ⟨_, hvalue, hnext.spec, hnext.usedRequests,
      hnext.usedBytes⟩) hgrants, ⟨[], rfl, rfl⟩, hsame, subset_rfl⟩
  | purges =>
    refine h.spares hkeyed ⟨fun k next hnext => ?_, ⟨[], rfl, rfl⟩, hsame, subset_rfl⟩
    rw [Table.lookup_erase_eq] at hnext
    split_ifs at hnext
    exact .refl hnext
  | runs _ _ _ _ houtcome =>
    obtain ⟨rfl, -⟩ | ⟨hgrants, -⟩ := houtcome
    · exact h.spares hkeyed (.of_grants [_])
    · exact h.spares hkeyed ⟨.registered hgrants, ⟨[_], rfl, rfl⟩, hsame, subset_rfl⟩
  | @beginsStop _ _ _ _ _ _ _ _ _ events _ _ _ _ hevents hgrants =>
    have hfree : events.all Event.free = true := by obtain rfl | rfl := hevents <;> rfl
    obtain rfl | ⟨-, hgrants⟩ := hgrants
    · exact h.spares hkeyed (.of_grants _ rfl rfl hfree hstops)
    · exact h.spares hkeyed ⟨.registered hgrants, ⟨_, rfl, hfree⟩, hstops, subset_rfl⟩
  | @settle number effect session record _ _ =>
    obtain ⟨grants, operations, hgrants, hsettle⟩ := Operations.settle_frame
      (fun _ => h.keyed.grants.key_eq) record effect
    rw [hsettle] at hkeyed ⊢
    exact h.spares hkeyed ⟨.registered hgrants, ⟨[], rfl, rfl⟩, hsame, subset_rfl⟩
  | settleStop _ _ hgrants =>
    exact h.spares hkeyed ⟨.registered hgrants, ⟨[], rfl, rfl⟩, hstops, subset_rfl⟩
  | @close number session _ =>
    refine h.spares hkeyed (.of_grants [] rfl rfl rfl fun k => ?_)
    by_cases hk : k = session.request.grant
    · subst hk
      simp only [Function.update_self]
      exact Finset.erase_subset _ _
    · simp only [Function.update_of_ne hk]
      exact subset_rfl
  | restart => exact h.spares hkeyed (.of_grants [] rfl rfl rfl hstops)
  | suspend key =>
    refine h.spares hkeyed ⟨fun k next hnext => ?_, ⟨[], rfl, rfl⟩, hstops, subset_rfl⟩
    simp only [suspended, Table.lookup_mapRows, Option.map_eq_some_iff] at hnext
    obtain ⟨value, hvalue, rfl⟩ := hnext
    exact .inl ⟨value, hvalue, rfl, rfl, rfl⟩
  | _ => exact h.spares hkeyed (.of_grants [])

/-- In every run, with stops and restarts anywhere, the counters of a grant are the number of its
admissions and the sum of its charges. They are within what the grant allows, and so is the number
of the connections that use it. -/
theorem quotas_kept (key : Key) (actions : List Step) :
    let s := run step (initial key) actions
    ∀ k value, s.grants.lookup k = some value → s.Within k value := by
  have hinitial : (initial key).Metered := by
    refine ⟨keyed_initial key, fun h => ?_, fun _ => ⟨rfl, rfl, rfl⟩⟩
    simp [initial] at h
  have hmetered : (run step (initial key) actions).Metered :=
    run_invariant (fun _ a h => h.change (change_step h.keyed a)) hinitial actions
  exact fun _ _ => hmetered.within

end Manager

end Ficc.Federation
