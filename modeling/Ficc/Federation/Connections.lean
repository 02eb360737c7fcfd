import Ficc.Federation.Finality

/-!
# Connections and retirements

The facts about connections that the results on mutations and on quotas share. A connection counts
against its grant from its admission to its end. A mutation that waits has its receipt in the
table, and no other connection has the same one. A grant is retired only when it has ended and no
connection uses it, because `retire` waits for the connections that it cancelled.
-/

namespace Ficc.Federation

open Execution (Identity Digest Hash)
open Authority (Local Authorised Revoked)
open Operations (Answers Registered Settles)

namespace Manager

variable [Hash (Key × Identity)] [Hash (Signed Offer)] [Hash Receipt] [Hash Arguments]

/-- The record is the receipt of the request, and its outcome is not known. -/
structure Receipted (request : Request) (record : OperationRecord) : Prop where
  id : record.id = request.id
  grant : record.grant = request.grant
  digest : record.digest = Hash.digest request.arguments
  operation : record.operation = request.operation
  uncertain : record.state = .uncertain

/-- Every deletion of a grant's records stands right after the `retire` of the grant, which may
be the part that was done last. -/
def Paired : Option Identity → List Todo → Prop
  | _, [] => True
  | last, .purge grantId :: rest => last = some grantId ∧ Paired none rest
  | _, .retire grantId :: rest => Paired (some grantId) rest
  | _, _ :: rest => Paired none rest

/-- When the records of a grant are deleted next, the grant has ended and its connections are
waited for. -/
structure Purges (s : Manager) (task : Task) : Prop where
  exists_last : ∃ last, Paired last task.todo ∧
    ∀ grantId, last = some grantId → s.Ended grantId ∧ s.active grantId ⊆ task.waiting

/-- The connections, their receipts and the retirements in progress. -/
structure Serving (s : Manager) : Prop where
  keyed : s.Keyed
  counted : ∀ {number session}, s.sessions.lookup number = some session →
    number ∈ s.active session.request.grant
  receipted : ∀ {number session record}, s.sessions.lookup number = some session →
    session.phase = .mutating record → Receipted session.request record ∧
      s.operations.lookup session.request.id = some record
  alone : ∀ {number number' session session' record record'},
    s.sessions.lookup number = some session → s.sessions.lookup number' = some session' →
    session.phase = .mutating record → session'.phase = .mutating record' →
    session.request.id = session'.request.id → number = number'
  purges : ∀ {number task}, s.tasks.lookup number = some task → Purges s task

omit [Hash (Key × Identity)] [Hash (Signed Offer)] [Hash Receipt]

theorem serving_initial (key : Key) : (initial key).Serving := by
  refine ⟨keyed_initial key, fun h => ?_, fun h => ?_, fun h => ?_, fun h => ?_⟩ <;>
    simp [initial] at h

/-- A grant whose records are about to be deleted is used by no connection. -/
theorem Serving.unused {s : Manager} (h : s.Serving) {number : ℕ} {task : Task}
    {grantId : Identity} {rest : List Todo} (htask : s.tasks.lookup number = some task)
    (htodo : task.todo = .purge grantId :: rest) (hready : s.Ready task) :
    s.Ended grantId ∧ ∀ {n session}, s.sessions.lookup n = some session →
      session.request.grant ≠ grantId := by
  obtain ⟨last, hpaired, hlast⟩ := (h.purges htask).exists_last
  rw [htodo] at hpaired
  obtain ⟨hended, hwaiting⟩ := hlast grantId hpaired.1
  refine ⟨hended, fun {n session} hsession hgrant => ?_⟩
  have hactive := h.counted hsession
  rw [hgrant] at hactive
  rw [hready n (hwaiting hactive)] at hsession
  cases hsession

/-! ### Retirements -/

section Retirements

omit [Hash Arguments]

/-- A request without deletions. -/
theorem Paired.of_none {todos : List Todo} (h : ∀ todo ∈ todos, ∀ grantId, todo ≠ .purge grantId)
    (last : Option Identity) : Paired last todos := by
  induction todos generalizing last with
  | nil => exact trivial
  | cons todo rest ih =>
    have hrest := ih fun t ht => h t (List.mem_cons_of_mem todo ht)
    cases todo with
    | purge grantId => exact absurd rfl (h _ List.mem_cons_self grantId)
    | retire grantId => exact hrest (some grantId)
    | revoke _ => exact hrest none
    | removePeer _ => exact hrest none
    | forgetPeer _ => exact hrest none
    | status _ => exact hrest none
    | confirm _ _ => exact hrest none

/-- The parts of `forget`. -/
theorem paired_forget (grants : List Grant) (peerId : Identity) :
    Paired none (grants.flatMap (fun grant =>
      [.revoke grant.id, .retire grant.id, .purge grant.id]) ++ [.forgetPeer peerId]) := by
  induction grants with
  | nil => exact trivial
  | cons grant rest ih => exact ⟨rfl, ih⟩

theorem Purges.of_paired {s : Manager} {task : Task} (h : Paired none task.todo) :
    Purges s task :=
  ⟨none, h, fun _ hlast => by cases hlast⟩

variable [Hash (Key × Identity)] [Hash (Signed Offer)] [Hash Receipt] [Hash Arguments]

/-- A grant that has ended gets no new connections. -/
theorem active_change {s s' : Manager} {a : Step} (hkeyed : s.Keyed) (hchange : Change s a s')
    {grantId : Identity} (hended : s.Ended grantId) : s'.active grantId ⊆ s.active grantId := by
  cases hchange with
  | @serve number request principal env peer value hfree hauthorised _ _ =>
    have hne : grantId ≠ value.id := by
      rintro rfl
      rw [hkeyed.grants.key_eq hauthorised.grant] at hended
      exact hended.2 value hauthorised.grant hauthorised.active
    simp only [Function.update_of_ne hne]
    exact Finset.Subset.refl _
  | @close number session hsession =>
    by_cases hgrant : grantId = session.request.grant
    · subst hgrant
      simp only [Function.update_self]
      exact Finset.erase_subset _ _
    · simp only [Function.update_of_ne hgrant]
      exact Finset.Subset.refl _
  | statusHalf _ _ _ hnext hs' =>
    subst hnext
    obtain rfl | rfl := hs'
    · exact Finset.Subset.refl _
    · exact Finset.empty_subset _
  | confirmedHalf _ _ _ _ _ hnext hs' =>
    subst hnext
    obtain rfl | rfl := hs'
    · exact Finset.Subset.refl _
    · exact Finset.empty_subset _
  | @settle number effect session record _ _ =>
    obtain ⟨grants, operations, -, hsettle⟩ := Operations.settle_frame
      (fun _ => hkeyed.grants.key_eq) record effect
    rw [hsettle]
    exact Finset.Subset.refl _
  | beginsStop => exact Finset.empty_subset _
  | settleStop => exact Finset.empty_subset _
  | restart => exact Finset.empty_subset _
  | suspend => exact Finset.empty_subset _
  | _ => exact Finset.Subset.refl _

/-- What holds of a request in progress holds of it after a step. -/
theorem Purges.change {s s' : Manager} {a : Step} (hkeyed : s.Keyed) (hchange : Change s a s')
    {task : Task} (h : Purges s task) : Purges s' task := by
  obtain ⟨last, hpaired, hlast⟩ := h.exists_last
  refine ⟨last, hpaired, fun grantId hgrant => ?_⟩
  obtain ⟨hended, hwaiting⟩ := hlast grantId hgrant
  exact ⟨hended.change hkeyed hchange, (active_change hkeyed hchange hended).trans hwaiting⟩

omit [Hash (Key × Identity)] [Hash (Signed Offer)] [Hash Receipt] [Hash Arguments] in
/-- A grant that has just been revoked has ended. -/
theorem ended_of_revoked {s s' : Manager} (hkeyed : s.Keyed) {grantId : Identity}
    {value next : Grant} (hvalue : s.grants.lookup grantId = some value)
    (hnext : Revoked value next) (hgrants : s'.grants.lookup grantId = some next)
    (hdrawn : s'.drawn = s.drawn) : s'.Ended grantId := by
  refine ⟨hdrawn ▸ hkeyed.drawn hvalue, fun found hfound hactive => ?_⟩
  obtain rfl := Option.some.inj (hgrants.symm.trans hfound)
  rw [hnext.state] at hactive
  cases hactive

theorem Serving.purges_change {s s' : Manager} {a : Step} (h : s.Serving)
    (hchange : Change s a s') {number : ℕ} {task : Task}
    (htask : s'.tasks.lookup number = some task) : Purges s' task := by
  have hsame {number : ℕ} {task : Task} (hbefore : s.tasks.lookup number = some task) :
      Purges s' task := (h.purges hbefore).change h.keyed hchange
  have hinsert {next : Task} {number' : ℕ}
      (hfound : (s.tasks.insert number' next).lookup number = some task)
      (hnext : Purges s' next) : Purges s' task := by
    rw [Table.lookup_insert_eq] at hfound
    split_ifs at hfound
    · obtain rfl := Option.some.inj hfound
      exact hnext
    · exact hsame hfound
  have herase {number' : ℕ} (hfound : (s.tasks.erase number').lookup number = some task) :
      Purges s' task := by
    rw [Table.lookup_erase_eq] at hfound
    split_ifs at hfound
    exact hsame hfound
  have hempty (hfound : (∅ : Table ℕ Task).lookup number = some task) : Purges s' task := by
    simp at hfound
  -- A part that is neither a `retire` nor a deletion leaves nothing to wait for.
  have hrest {before : Task} {todo : Todo} {rest : List Todo} {waiting : Finset ℕ} {n : ℕ}
      (hbefore : s.tasks.lookup n = some before) (htodo : before.todo = todo :: rest)
      (hkind : ∀ last, Paired last (todo :: rest) → Paired none rest) :
      Purges s' { before with todo := rest, waiting } := by
    obtain ⟨last, hpaired, -⟩ := (h.purges hbefore).exists_last
    exact .of_paired (hkind last (htodo ▸ hpaired))
  cases hchange with
  | finish => exact hinsert htask (.of_paired trivial)
  | status => exact hinsert htask (.of_paired trivial)
  | statusHalf _ _ _ hnext hs' =>
    subst hnext
    obtain rfl | rfl := hs'
    · exact herase htask
    · exact hempty htask
  | confirmed => exact herase htask
  | confirmedHalf _ _ _ _ _ hnext hs' =>
    subst hnext
    obtain rfl | rfl := hs'
    · exact herase htask
    · exact hempty htask
  | remove =>
    refine hinsert htask (.of_paired (.of_none (fun todo htodo grantId => ?_) none))
    obtain hmem | hmem := List.mem_append.mp htodo
    · obtain ⟨grant, -, rfl⟩ := List.mem_map.mp hmem
      exact Todo.noConfusion
    · rw [List.mem_singleton.mp hmem]
      exact Todo.noConfusion
  | retire => exact hinsert htask (.of_paired ⟨rfl, trivial⟩)
  | forget => exact hinsert htask (.of_paired (paired_forget _ _))
  | ends => exact herase htask
  | @revokes n access before todo rest grantId value next grants credentials hbefore htodo hready
      hkind hvalue hnext hgrants =>
    refine hinsert htask ?_
    obtain rfl | rfl := hkind
    · exact hrest hbefore htodo fun _ hpaired => hpaired
    · obtain ⟨last, hpaired, -⟩ := (h.purges hbefore).exists_last
      rw [htodo] at hpaired
      refine ⟨some grantId, hpaired, fun g hg => ?_⟩
      obtain rfl := Option.some.inj hg
      refine ⟨ended_of_revoked h.keyed hvalue hnext ?_ rfl, Finset.Subset.refl _⟩
      rw [hgrants grantId, if_pos rfl]
  | purges hbefore htodo => exact hinsert htask (hrest hbefore htodo fun _ hpaired => hpaired.2)
  | removesPeer hbefore htodo =>
    exact hinsert htask (hrest hbefore htodo fun _ hpaired => hpaired)
  | forgetsPeer hbefore htodo =>
    exact hinsert htask (hrest hbefore htodo fun _ hpaired => hpaired)
  | beginsStop => exact hempty htask
  | @settle number' effect session record _ _ =>
    obtain ⟨grants, operations, -, hsettle⟩ := Operations.settle_frame
      (fun _ => h.keyed.grants.key_eq) record effect
    rw [hsettle] at htask
    exact hsame htask
  | settleStop => exact hempty htask
  | restart => exact hempty htask
  | suspend => exact hempty htask
  | _ => exact hsame htask

end Retirements

/-! ### Connections -/

section Sessions

omit [Hash (Key × Identity)] [Hash (Signed Offer)] [Hash Receipt] in
theorem receipted_receipt {request : Request} {grant : Grant} {now : ℚ} :
    Receipted request (Operations.receipt request grant now) :=
  ⟨rfl, rfl, rfl, rfl, rfl⟩

variable [Hash (Key × Identity)] [Hash (Signed Offer)] [Hash Receipt]

/-- A connection counts against its grant after every step. -/
theorem Serving.counted_change {s s' : Manager} {a : Step} (h : s.Serving)
    (hchange : Change s a s') {number : ℕ} {session : Session}
    (hsession : s'.sessions.lookup number = some session) :
    number ∈ s'.active session.request.grant := by
  -- A connection in another phase has the same request.
  have henter {number' : ℕ} {before : Session} {phase : Phase}
      (hbefore : s.sessions.lookup number' = some before)
      (hfound : (s.sessions.insert number' { before with phase }).lookup number = some session) :
      number ∈ s.active session.request.grant := by
    rw [Table.lookup_insert_eq] at hfound
    split_ifs at hfound with hn
    · obtain rfl := Option.some.inj hfound
      have hcounted := h.counted hbefore
      rw [hn]
      exact hcounted
    · exact h.counted hfound
  have hempty (hfound : (∅ : Table ℕ Session).lookup number = some session) : False := by
    simp at hfound
  cases hchange with
  | @serve number' request principal env peer value hfree hauthorised _ _ =>
    have hid : value.id = request.grant := h.keyed.grants.key_eq hauthorised.grant
    simp only [Table.lookup_insert_eq] at hsession
    split_ifs at hsession with hn
    · obtain rfl := Option.some.inj hsession
      simp [hid, hn]
    · have hcounted := h.counted hsession
      by_cases hgrant : session.request.grant = value.id
      · simp only [hgrant, Function.update_self]
        exact Finset.mem_insert_of_mem (hgrant ▸ hcounted)
      · simp only [Function.update_of_ne hgrant]
        exact hcounted
  | @close number' before hbefore =>
    simp only [Table.lookup_erase_eq] at hsession
    split_ifs at hsession with hn
    have hcounted := h.counted hsession
    by_cases hgrant : session.request.grant = before.request.grant
    · simp only [hgrant, Function.update_self]
      exact Finset.mem_erase.mpr ⟨hn, hgrant ▸ hcounted⟩
    · simp only [Function.update_of_ne hgrant]
      exact hcounted
  | returns hbefore => exact henter hbefore hsession
  | begins hbefore => exact henter hbefore hsession
  | runs hbefore => exact henter hbefore hsession
  | @settle number' effect before record hbefore _ =>
    obtain ⟨grants, operations, -, hsettle⟩ := Operations.settle_frame
      (fun _ => h.keyed.grants.key_eq) record effect
    rw [hsettle] at hsession ⊢
    exact henter hbefore hsession
  | statusHalf _ _ _ hnext hs' =>
    subst hnext
    obtain rfl | rfl := hs'
    · exact h.counted hsession
    · exact (hempty hsession).elim
  | confirmedHalf _ _ _ _ _ hnext hs' =>
    subst hnext
    obtain rfl | rfl := hs'
    · exact h.counted hsession
    · exact (hempty hsession).elim
  | beginsStop => exact (hempty hsession).elim
  | settleStop => exact (hempty hsession).elim
  | restart => exact (hempty hsession).elim
  | suspend => exact (hempty hsession).elim
  | _ => exact h.counted hsession

/-- A mutation that waits after a step waited before it, with the same receipt, or it has just
begun. -/
theorem Serving.mutating_change {s s' : Manager} {a : Step} (h : s.Serving)
    (hchange : Change s a s') {number : ℕ} {session : Session} {record : OperationRecord}
    (hsession : s'.sessions.lookup number = some session)
    (hphase : session.phase = .mutating record) :
    (s.sessions.lookup number = some session ∧
        s'.operations.lookup session.request.id = some record) ∨
      (s.operations.lookup session.request.id = none ∧ Receipted session.request record ∧
        s'.operations.lookup session.request.id = some record ∧
        ∀ other, other ≠ number → s'.sessions.lookup other = s.sessions.lookup other) := by
  -- A connection in another phase that does not wait was not the one.
  have hdone {number' : ℕ} {next : Session} (hnot : next.phase ≠ .mutating record)
      (hfound : (s.sessions.insert number' next).lookup number = some session) :
      s.sessions.lookup number = some session ∧ number ≠ number' := by
    rw [Table.lookup_insert_eq] at hfound
    split_ifs at hfound with hn
    · obtain rfl := Option.some.inj hfound
      exact absurd hphase hnot
    · exact ⟨hfound, hn⟩
  have hsame (hfound : s.sessions.lookup number = some session) :
      s.operations.lookup session.request.id = some record := (h.receipted hfound hphase).2
  have hempty (hfound : (∅ : Table ℕ Session).lookup number = some session) : False := by
    simp at hfound
  cases hchange with
  | serve =>
    obtain ⟨hfound, -⟩ := hdone Phase.noConfusion hsession
    exact .inl ⟨hfound, hsame hfound⟩
  | close =>
    simp only [Table.lookup_erase_eq] at hsession
    split_ifs at hsession
    exact .inl ⟨hsession, hsame hsession⟩
  | returns =>
    obtain ⟨hfound, -⟩ := hdone Phase.noConfusion hsession
    exact .inl ⟨hfound, hsame hfound⟩
  | @begins number' env answers effect before grant new hbefore _ hbegun _ hrecord =>
    obtain ⟨-, -, hnone, -⟩ := Operations.dispatch_eq_begun hbegun
    simp only [Table.lookup_insert_eq] at hsession
    split_ifs at hsession with hn
    · obtain rfl := Option.some.inj hsession
      obtain rfl : new = record := Phase.mutating.inj hphase
      refine .inr ⟨hnone, hrecord ▸ receipted_receipt, AList.lookup_insert _, fun other hne => ?_⟩
      exact AList.lookup_insert_ne (hn ▸ hne)
    · refine .inl ⟨hsession, ?_⟩
      have hne : session.request.id ≠ before.request.id := by
        intro heq
        have hlookup := hsame hsession
        rw [heq, hnone] at hlookup
        cases hlookup
      exact (AList.lookup_insert_ne hne).trans (hsame hsession)
  | @runs number' env answers effect before grant new next grants hbefore _ hbegun _ _ =>
    obtain ⟨hfound, -⟩ := hdone Phase.noConfusion hsession
    obtain ⟨-, -, hnone, -⟩ := Operations.dispatch_eq_begun hbegun
    have hne : session.request.id ≠ before.request.id := by
      intro heq
      have hlookup := hsame hfound
      rw [heq, hnone] at hlookup
      cases hlookup
    exact .inl ⟨hfound, (AList.lookup_insert_ne hne).trans (hsame hfound)⟩
  | @settle number' effect before old hbefore hmutating =>
    obtain ⟨hreceipted, hold⟩ := h.receipted hbefore hmutating
    have hid : before.request.id = old.id := hreceipted.id.symm
    rw [hid] at hold
    obtain heq | ⟨grants, next, -, -, heq⟩ := Operations.settle_spec
      (fun _ => h.keyed.grants.key_eq) hold effect
    · rw [heq] at hsession ⊢
      obtain ⟨hfound, -⟩ := hdone Phase.noConfusion hsession
      exact .inl ⟨hfound, hsame hfound⟩
    · rw [heq] at hsession ⊢
      obtain ⟨hfound, hn⟩ := hdone Phase.noConfusion hsession
      have hne : session.request.id ≠ old.id := by
        intro hsameId
        exact hn (h.alone hfound hbefore hphase hmutating (hsameId.trans hid.symm))
      exact .inl ⟨hfound, (AList.lookup_insert_ne hne).trans (hsame hfound)⟩
  | purges htask htodo hready =>
    obtain ⟨-, hunused⟩ := h.unused htask htodo hready
    refine .inl ⟨hsession, ?_⟩
    simp only [Table.lookup_discard, hsame hsession, Option.filter_eq_some_iff]
    refine ⟨trivial, ?_⟩
    have hgrant := (h.receipted hsession hphase).1.grant
    simp [hgrant, hunused hsession]
  | statusHalf _ _ _ hnext hs' =>
    subst hnext
    obtain rfl | rfl := hs'
    · exact .inl ⟨hsession, hsame hsession⟩
    · exact (hempty hsession).elim
  | confirmedHalf _ _ _ _ _ hnext hs' =>
    subst hnext
    obtain rfl | rfl := hs'
    · exact .inl ⟨hsession, hsame hsession⟩
    · exact (hempty hsession).elim
  | beginsStop => exact (hempty hsession).elim
  | settleStop => exact (hempty hsession).elim
  | restart => exact (hempty hsession).elim
  | suspend => exact (hempty hsession).elim
  | _ => exact .inl ⟨hsession, hsame hsession⟩

theorem Serving.change {s s' : Manager} {a : Step} (h : s.Serving) (hchange : Change s a s') :
    s'.Serving where
  keyed := h.keyed.change hchange
  counted := h.counted_change hchange
  purges := h.purges_change hchange
  receipted hsession hphase := by
    obtain ⟨hfound, hlookup⟩ | ⟨-, hreceipted, hlookup, -⟩ :=
      h.mutating_change hchange hsession hphase
    · exact ⟨(h.receipted hfound hphase).1, hlookup⟩
    · exact ⟨hreceipted, hlookup⟩
  alone {number number' session session' record record'} hsession hsession' hphase hphase' hid := by
    by_contra hne
    -- A mutation that has just begun has an identity that no receipt has.
    obtain ⟨hfound, -⟩ | ⟨hnone, -, -, hothers⟩ := h.mutating_change hchange hsession hphase
    · obtain ⟨hfound', -⟩ | ⟨hnone', -, -, hothers'⟩ :=
        h.mutating_change hchange hsession' hphase'
      · exact hne (h.alone hfound hfound' hphase hphase' hid)
      · have hlookup := (h.receipted hfound hphase).2
        rw [hid, hnone'] at hlookup
        cases hlookup
    · rw [hothers number' (Ne.symm hne)] at hsession'
      have hlookup := (h.receipted hsession' hphase').2
      rw [← hid, hnone] at hlookup
      cases hlookup

end Sessions

end Manager

end Ficc.Federation
