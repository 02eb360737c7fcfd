import Ficc.Access.Containment
import Ficc.Access.SignIn

/-!
# External sessions fail closed

What holds of external sessions in every run in which the handles of different sign-ins are
distinct. `Sound` is the invariant. A binding that is reached by a credential has the latest
assertion of its sign-in, which is at most 30 seconds ahead, and a count of the changes of its
mapping since (`Live`). A retired handle belongs to a sign-in that has no binding and gets none.

* `Sound.checked` is what the invariant says about a credential that authenticates.
* `sessions_fail_closed` is the result for runs.
* `Example.not_supportedBySubject_later` shows that the latest assertion of another sign-in of the
  same subject does not matter.
-/

namespace Ficc.Access

open Execution (Identity)

/-! ### The clock -/

/-- Issuing takes no time. -/
theorem State.issue_now {s s' : State} {arguments : State.Issue} {draw : State.Draw}
    {issued : List Grant} (h : s.issue arguments draw issued = .ok s') : s'.now = s.now := by
  simp only [State.issue, State.insertCredential, bind_eq_ok, pure, Except.pure,
    Except.ok.injEq] at h
  obtain ⟨-, -, -, -, -, -, -, -, -, -, -, -, -, -, -, -, -, -, -, -, rfl⟩ := h
  rfl

/-- A switch draws a new credential for the same subject. -/
theorem State.switchProject_eq_ok {s s' : State} {external : ExternalCheck}
    {identity project : Identity} {draw : State.Draw}
    (h : s.switchProject external identity project draw = .ok s') :
    draw.id ∉ s.drawn.1 ∧ draw.id ∈ s'.drawn.1 ∧ s'.now = s.now ∧
      ∃ principal, s.current external identity = .ok principal := by
  simp only [State.switchProject, State.insertCredential, bind_eq_ok, raiseIf_eq_ok, not_or, pure,
    Except.pure, Except.ok.injEq] at h
  obtain ⟨principal, hcurrent, -, -, -, -, -, -, -, ⟨-, ⟨hid, -⟩, rfl⟩, -, -, rfl⟩ := h
  exact ⟨hid, List.mem_cons_self, rfl, principal, hcurrent⟩

/-- An event does not set the clock back. -/
theorem now_le_step (s : State) (event : Event) : s.now ≤ (Access.step s event).now := by
  unfold Access.step
  split
  case h_2 => exact Nat.le_refl _
  rename_i s' hperform
  cases event with
  | tick seconds =>
    obtain rfl := Except.ok.inj hperform
    exact Nat.le_add_right _ _
  | create kind label drawn =>
    simp only [perform, State.create, bind_eq_ok] at hperform
    obtain ⟨-, -, hperform⟩ := hperform
    cases kind
    all_goals
      simp only [bind_eq_ok, pure, Except.pure, Except.ok.injEq] at hperform
      obtain ⟨-, -, -, -, rfl⟩ := hperform
      exact Nat.le_refl _
  | update kind identity label disabled revision =>
    simp only [perform, State.update, bind_eq_ok, pure, Except.pure, Except.ok.injEq] at hperform
    obtain ⟨-, -, -, -, -, -, -, -, rfl⟩ := hperform
    cases kind <;> cases disabled <;> exact Nat.le_refl _
  | membership project subject scopes revision =>
    simp only [perform, State.membership, bind_eq_ok, pure, Except.pure, Except.ok.injEq]
      at hperform
    obtain ⟨-, -, -, -, -, -, -, -, -, -, -, -, rfl⟩ := hperform
    split <;> exact Nat.le_refl _
  | assign project nodes roots revision =>
    simp only [perform, State.assign, bind_eq_ok, pure, Except.pure, Except.ok.injEq] at hperform
    obtain ⟨-, -, -, -, -, -, -, -, -, -, rfl⟩ := hperform
    exact Nat.le_refl _
  | registerNode node =>
    obtain rfl := Except.ok.inj hperform
    exact Nat.le_refl _
  | registerRoot root node =>
    obtain rfl := Except.ok.inj hperform
    exact Nat.le_refl _
  | removeResource kind identity =>
    obtain rfl := Except.ok.inj hperform
    cases kind <;> exact Nat.le_refl _
  | issue arguments draw => exact (State.issue_now hperform).ge
  | consume external digest =>
    simp only [perform, State.consume, bind_eq_ok, pure, Except.pure, Except.ok.injEq] at hperform
    obtain ⟨-, -, rfl⟩ := hperform
    exact Nat.le_refl _
  | login pending draw =>
    simp only [perform, State.login, bind_eq_ok] at hperform
    obtain ⟨-, -, hissue⟩ := hperform
    exact (State.issue_now hissue).ge
  | revoke identity =>
    obtain rfl := Except.ok.inj hperform
    exact Nat.le_refl _
  | switchProject external identity project draw =>
    exact (State.switchProject_eq_ok hperform).2.2.1.ge
  | retireRemote =>
    obtain rfl := Except.ok.inj hperform
    exact Nat.le_refl _

/-- Random values stay drawn. -/
theorem Change.drawn {s s' : State} (h : Change s s') {identity : Identity}
    (hdrawn : identity ∈ s.drawn.1) : identity ∈ s'.drawn.1 := by
  cases h with
  | shrinks h => exact h.drawn ▸ hdrawn
  | inserts draw row issued h _ =>
    rw [h.drawn]
    exact List.mem_cons_of_mem _ hdrawn

namespace External

open External.System (Fault Commit Value)

variable {s : System}

/-! ### The invariant -/

/-- The latest assertion that was accepted for a sign-in. -/
def latest (accepted : List (ℕ × Assertion)) (number : ℕ) : Option Assertion :=
  (accepted.find? fun entry => entry.1 = number).map Prod.snd

/-- The latest assertion after one more. -/
theorem latest_cons (accepted : List (ℕ × Assertion)) (number other : ℕ) (value : Assertion) :
    latest ((number, value) :: accepted) other =
      if other = number then some value else latest accepted other := by
  by_cases h : other = number
  · simp [latest, h]
  · simp [latest, h, Ne.symm h]

/-- The mapping of a sign-in was there when it was bound, and its revision counts what was saved
since. -/
def Mapped (s : System) (number : ℕ) (key : Key) (mapping : Mapping) : Prop :=
  ∃ mark found, s.signIns.lookup number = some (key, mark) ∧ mark ≤ s.saves.length ∧
    s.mappings.lookup key = some found ∧
    found.revision = mapping.revision + (s.saves.drop mark).count key

/-- The object of a binding. -/
def Live (s : System) (number : ℕ) (bound : Bound) : Prop :=
  latest s.accepted number = some bound.assertion ∧ bound.assertion.validUntil ≤ s.now + 30 ∧
    Mapped s number bound.assertion.key bound.mapping

structure Sound (s : System) : Prop where
  inv : Inv s.store
  bound : ∀ credential number, s.bindings.lookup credential = some number →
    ∃ bound, s.objects.lookup number = some bound ∧ Live s number bound
  origin : ∀ credential number, s.bindings.lookup credential = some number →
    s.origins.lookup credential = some number
  drawn : ∀ credential number, s.bindings.lookup credential = some number →
    credential ∈ s.store.drawn.1
  /-- A binding is reached by one credential. -/
  single : ∀ credential other number, s.bindings.lookup credential = some number →
    s.bindings.lookup other = some number → credential = other
  objects : ∀ number bound, s.objects.lookup number = some bound → number < s.started ∧
    s.handles.lookup bound.assertion.handle = some number
  exchanges : ∀ number exchange, s.exchanges.lookup number = some exchange →
    number < s.started ∧ s.objects.lookup number = none
  verified : ∀ number value, s.exchanges.lookup number = some (.verified value) →
    s.handles.lookup value.handle = some number ∧ latest s.accepted number = some value ∧
      value.validUntil ≤ s.now + 30
  /-- The sign-in of a retired handle is over. -/
  retired : ∀ handle ∈ s.retired, ∃ number < s.started, s.handles.lookup handle = some number ∧
    (∀ credential, s.bindings.lookup credential ≠ some number) ∧
    s.exchanges.lookup number = none
  once : (s.exchanged.map Prod.fst).Nodup
  browser : ∀ entry ∈ s.exchanged, s.begun.lookup entry.1 = some entry.2 ∧
    s.pending.lookup entry.1 = none
  pending : ∀ state pending, s.pending.lookup state = some pending →
    s.begun.lookup state = some pending.browser

/-- The credentials from outside can go. -/
theorem inv_retireRemote {store : State} (h : Inv store) :
    Inv (store.deleteCredentials fun row => row.kind = .remote) :=
  h.change (.shrinks (.deleteCredentials store _))

/-- A new process is sound. -/
theorem sound_initial {store : State} (hstore : Inv store) (mappings : Table Key Mapping) :
    Sound (.initial store mappings) where
  inv := inv_retireRemote hstore
  bound _ _ h := (nomatch h)
  origin _ _ h := (nomatch h)
  drawn _ _ h := (nomatch h)
  single _ _ _ h := (nomatch h)
  objects _ _ h := (nomatch h)
  exchanges _ _ h := (nomatch h)
  verified _ _ h := (nomatch h)
  retired _ h := absurd h List.not_mem_nil
  once := List.nodup_nil
  browser _ h := absurd h List.not_mem_nil
  pending _ _ h := (nomatch h)

/-! ### Parts of a step -/

/-- The database changes, and nothing in memory. -/
theorem Sound.store (h : Sound s) {store : State} (hinv : Inv store) (hnow : s.now ≤ store.now)
    (hdrawn : ∀ identity ∈ s.store.drawn.1, identity ∈ store.drawn.1) :
    Sound { s with store } :=
  { h with
    inv := hinv
    bound := fun credential number hbound => by
      obtain ⟨bound, hobject, hlatest, hfresh, hmapped⟩ := h.bound credential number hbound
      exact ⟨bound, hobject, hlatest, hfresh.trans (Nat.add_le_add_right hnow 30), hmapped⟩
    drawn := fun credential number hbound => hdrawn credential (h.drawn credential number hbound)
    verified := fun number value hvalue => by
      obtain ⟨hhandle, hlatest, hfresh⟩ := h.verified number value hvalue
      exact ⟨hhandle, hlatest, hfresh.trans (Nat.add_le_add_right hnow 30)⟩ }

/-- Bindings are removed, and handles are retired that no binding has any more. -/
theorem Sound.unbind (h : Sound s) {bindings : Table Identity ℕ} {retired : List String}
    (hbindings : ∀ credential number, bindings.lookup credential = some number →
      s.bindings.lookup credential = some number)
    (hretired : ∀ handle ∈ retired, handle ∈ s.retired ∨
      ∃ number < s.started, s.handles.lookup handle = some number ∧
        (∀ credential, bindings.lookup credential ≠ some number) ∧
        s.exchanges.lookup number = none) :
    Sound { s with bindings, retired } :=
  { h with
    bound := fun credential number hbound => h.bound credential number (hbindings _ _ hbound)
    origin := fun credential number hbound => h.origin credential number (hbindings _ _ hbound)
    drawn := fun credential number hbound => h.drawn credential number (hbindings _ _ hbound)
    single := fun credential other number hfirst hsecond =>
      h.single credential other number (hbindings _ _ hfirst) (hbindings _ _ hsecond)
    retired := fun handle hhandle => by
      obtain hhandle | hdone := hretired handle hhandle
      · obtain ⟨number, hstarted, hnumber, hbound, hexchange⟩ := h.retired handle hhandle
        exact ⟨number, hstarted, hnumber, fun credential hc =>
          hbound credential (hbindings _ _ hc), hexchange⟩
      · exact hdone }

/-- Fewer sign-ins are under way. -/
theorem Sound.give_up (h : Sound s) {pending : Table String Pending}
    {exchanges : Table ℕ Exchange}
    (hpending : ∀ state value, pending.lookup state = some value →
      s.pending.lookup state = some value)
    (hexchanges : ∀ number exchange, exchanges.lookup number = some exchange →
      s.exchanges.lookup number = some exchange) :
    Sound { s with pending, exchanges } :=
  { h with
    exchanges := fun number exchange hexchange => h.exchanges number exchange (hexchanges _ _ hexchange)
    verified := fun number value hvalue => h.verified number value (hexchanges _ _ hvalue)
    retired := fun handle hhandle => by
      obtain ⟨number, hstarted, hnumber, hbound, hexchange⟩ := h.retired handle hhandle
      refine ⟨number, hstarted, hnumber, hbound, ?_⟩
      by_contra hne
      obtain ⟨exchange, hsome⟩ := Option.ne_none_iff_exists'.mp hne
      rw [hexchanges _ _ hsome] at hexchange
      cases hexchange
    browser := fun entry hentry => by
      obtain ⟨hbegun, hnone⟩ := h.browser entry hentry
      refine ⟨hbegun, ?_⟩
      by_contra hne
      obtain ⟨value, hsome⟩ := Option.ne_none_iff_exists'.mp hne
      rw [hpending _ _ hsome] at hnone
      cases hnone
    pending := fun state value hvalue => h.pending state value (hpending _ _ hvalue) }

section Tables

variable {κ α : Type} [DecidableEq κ] {t : Table κ α} {k k' : κ} {a : α}

theorem of_lookup_erase (h : (t.erase k).lookup k' = some a) :
    k' ≠ k ∧ t.lookup k' = some a := by
  rw [Table.lookup_erase_eq] at h
  split at h
  · cases h
  · rename_i hne
    exact ⟨hne, h⟩

theorem of_lookup_insert {b : α} (h : (t.insert k b).lookup k' = some a) :
    k' = k ∧ a = b ∨ k' ≠ k ∧ t.lookup k' = some a := by
  rw [Table.lookup_insert_eq] at h
  split at h
  · rename_i hk
    exact .inl ⟨hk, (Option.some.inj h).symm⟩
  · rename_i hk
    exact .inr ⟨hk, h⟩

end Tables

/-! ### Revocation -/

theorem Sound.remove (h : Sound s) (credential : Identity) : Sound (s.remove credential) := by
  unfold System.remove
  split
  · exact h
  rename_i number hnumber
  obtain ⟨bound, hobject, -⟩ := h.bound credential number hnumber
  refine h.unbind (fun other n hn => (of_lookup_erase hn).2) fun handle hhandle => ?_
  rw [hobject] at hhandle
  obtain hhandle | hhandle := List.mem_append.mp hhandle
  · right
    obtain rfl : handle = bound.assertion.handle := by simpa using hhandle
    obtain ⟨hstarted, hhandle⟩ := h.objects number bound hobject
    refine ⟨number, hstarted, hhandle, fun other hother => ?_, ?_⟩
    · obtain ⟨hne, hother⟩ := of_lookup_erase hother
      exact hne (h.single other credential number hother hnumber)
    · by_contra hne
      obtain ⟨exchange, hsome⟩ := Option.ne_none_iff_exists'.mp hne
      rw [(h.exchanges number exchange hsome).2] at hobject
      cases hobject
  · exact .inl hhandle

theorem Sound.revoke (h : Sound s) (credential : Identity) (fault : Fault) :
    Sound (s.revoke credential fault) := by
  have hdeleted : Sound { s with store := s.store.revoke credential } :=
    h.store (h.inv.change (.shrinks (.revoke s.store credential))) (Nat.le_refl _) fun _ => id
  unfold System.revoke
  cases fault with
  | refused => exact h
  | cut => exact hdeleted
  | none => exact hdeleted.remove credential
  | late => exact hdeleted.remove credential

/-- What every revocation keeps, a series of them keeps. -/
theorem revokeAll_induction {I : System → Prop} {faults : Identity → Fault}
    (hrevoke : ∀ s credential, I s → I (s.revoke credential (faults credential)))
    (list : List Identity) : ∀ {s}, I s → I (System.revokeAll faults list s).1 := by
  induction list with
  | nil => exact id
  | cons credential rest ih =>
    intro s hs
    simp only [System.revokeAll]
    split
    · exact ih (hrevoke s credential hs)
    · exact hrevoke s credential hs

theorem Sound.sweep (faults : Identity → Fault) (list : List Identity) :
    ∀ {s}, Sound s → Sound (System.sweep faults list s).1 := by
  induction list with
  | nil => exact id
  | cons credential rest ih =>
    intro s hs
    simp only [System.sweep]
    split
    · exact hs
    split
    · exact ih hs
    split
    · exact ih (hs.revoke credential _)
    · exact hs.revoke credential _

theorem Sound.poll (h : Sound s) (faults : Identity → Fault) : Sound (s.poll faults) := by
  have hselected : ∀ {t : System} (selected : List ℕ), Sound t → Sound { t with selected } :=
    fun _ ht => ⟨ht.inv, ht.bound, ht.origin, ht.drawn, ht.single, ht.objects, ht.exchanges,
      ht.verified, ht.retired, ht.once, ht.browser, ht.pending⟩
  have hsweep := h.sweep faults (s.bindings.rows.map Prod.fst)
  unfold System.poll
  split
  · exact h
  split
  · rename_i t heq
    rw [heq] at hsweep
    exact hselected _ hsweep
  · rename_i t heq
    rw [heq] at hsweep
    exact hselected _ hsweep

/-! ### Renewal -/

/-- A checked assertion is of the same session and ends in time. -/
theorem assertion_eq_ok {now : ℕ} {value : Option Assertion} {issuer : String}
    {previous : Option Assertion} {checked : Assertion}
    (h : assertion now value issuer previous = .ok checked) :
    checked.validUntil ≤ now + 30 ∧ ∀ bound ∈ previous, sameSession checked bound := by
  simp only [assertion, bind_eq_ok, orRaise_eq_ok, raiseIf_eq_ok, pure, Except.pure,
    Except.ok.injEq] at h
  obtain ⟨found, -, -, -, -, -, -, -, -, htimes, -, hprevious, rfl⟩ := h
  refine ⟨?_, fun bound hbound => ?_⟩
  · have hlease := not_or.mp (not_or.mp htimes).2
    exact (not_not.mp hlease.1).2
  · by_contra hsame
    exact hprevious ⟨bound, hbound, hsame⟩

/-- An assertion that a binding can be renewed with. -/
def Renews (s : System) (number : ℕ) (value : Assertion) : Prop :=
  value.validUntil ≤ s.now + 30 ∧ ∀ bound, s.objects.lookup number = some bound →
    value.handle = bound.assertion.handle ∧ value.key = bound.assertion.key

variable {number : ℕ} {draw : State.Draw}

/-- A checked value renews its sign-in. -/
theorem renews_of_checked {renewal : Renewal} {values : Option (List (Option Value))}
    {value : Assertion} (h : (number, some value) ∈ s.checked renewal values) :
    Renews s number value := by
  unfold System.checked at h
  split at h
  · rename_i list hlist
    simp only [System.checkedValues, bind_eq_ok] at hlist
    obtain ⟨provider, -, answers, -, -, -, hlist⟩ := hlist
    obtain ⟨pair, -, hpair⟩ := of_mem_mapM hlist _ h
    simp only [bind_eq_ok, orRaise_eq_ok, pure, Except.pure, Except.ok.injEq, Prod.mk.injEq]
      at hpair
    obtain ⟨bound, hbound, answer, -, -, -, result, hrenewed, hnumber, rfl⟩ := hpair
    -- The value is an assertion that was checked against the one before.
    unfold System.renewed at hrenewed
    split at hrenewed
    · simp only [bind_eq_ok, pure, Except.pure, Except.ok.injEq, Option.some.injEq] at hrenewed
      obtain ⟨checked, hchecked, rfl⟩ := hrenewed
      obtain ⟨hlease, hsame⟩ := assertion_eq_ok hchecked
      obtain ⟨hhandle, hissuer, hsubject, -⟩ := hsame bound.assertion rfl
      refine ⟨hlease, fun found hfound => ?_⟩
      rw [← hnumber, hbound] at hfound
      obtain rfl := Option.some.inj hfound
      exact ⟨hhandle, Prod.ext hissuer hsubject⟩
    · simp only [bind_eq_ok, pure, Except.pure, Except.ok.injEq] at hrenewed
      obtain ⟨-, -, hnone⟩ := hrenewed
      cases hnone
  · obtain ⟨other, -, hother⟩ := List.mem_map.mp h
    cases hother

/-- A renewal keeps the sessions sound. -/
theorem Sound.update (h : Sound s) {value : Assertion} (hrenews : Renews s number value)
    (hactive : s.active number ≠ []) : Sound (s.update number value) := by
  obtain ⟨hlease, hsame⟩ := hrenews
  obtain ⟨credential, hcredential⟩ := List.exists_mem_of_ne_nil _ hactive
  obtain ⟨row, hrow, rfl⟩ := List.mem_map.mp hcredential
  obtain ⟨hrow, hnumber⟩ := List.mem_filter.mp hrow
  have hbinding : s.bindings.lookup row.1 = some number := by
    rw [Table.mem_rows.mp hrow]
    exact congrArg some (of_decide_eq_true hnumber)
  obtain ⟨bound, hobject, -, -, hmapped⟩ := h.bound row.1 number hbinding
  obtain ⟨hhandle, hkey⟩ := hsame bound hobject
  have hobjects : ∀ n found, (s.update number value).objects.lookup n = some found →
      n = number ∧ found = { bound with assertion := value } ∨
        n ≠ number ∧ s.objects.lookup n = some found := by
    intro n found hfound
    rw [System.update, Table.lookup_modify, hobject] at hfound
    split at hfound
    · rename_i hn
      exact .inl ⟨hn, (Option.some.inj hfound).symm⟩
    · rename_i hn
      exact .inr ⟨hn, hfound⟩
  have hothers : ∀ n, n ≠ number → latest (s.update number value).accepted n =
      latest s.accepted n := by
    intro n hn
    rw [System.update, latest_cons, if_neg hn]
  refine ⟨h.inv, ?_, h.origin, h.drawn, h.single, ?_, ?_, ?_, h.retired, h.once, h.browser,
    h.pending⟩
  · intro other n hother
    by_cases hn : n = number
    · subst hn
      refine ⟨{ bound with assertion := value }, ?_, ?_, hlease, ?_⟩
      · rw [System.update, Table.lookup_modify, if_pos rfl, hobject]
        rfl
      · rw [System.update, latest_cons, if_pos rfl]
      · dsimp only
        rw [hkey]
        exact hmapped
    · obtain ⟨found, hfound, hlatest, hrest⟩ := h.bound other n hother
      refine ⟨found, ?_, ?_, hrest⟩
      · rw [System.update, Table.lookup_modify, if_neg hn]
        exact hfound
      · rw [hothers n hn]
        exact hlatest
  · intro n found hfound
    obtain ⟨rfl, rfl⟩ | ⟨-, hfound⟩ := hobjects n found hfound
    · obtain ⟨hstarted, howner⟩ := h.objects n bound hobject
      refine ⟨hstarted, ?_⟩
      dsimp only
      rw [hhandle]
      exact howner
    · exact h.objects n found hfound
  · intro n exchange hexchange
    obtain ⟨hstarted, hnone⟩ := h.exchanges n exchange hexchange
    have hn : n ≠ number := by
      rintro rfl
      rw [hobject] at hnone
      cases hnone
    refine ⟨hstarted, ?_⟩
    rw [System.update, Table.lookup_modify, if_neg hn]
    exact hnone
  · intro n found hfound
    obtain ⟨hhandles, hlatest, hfresh⟩ := h.verified n found hfound
    have hn : n ≠ number := by
      rintro rfl
      have hnone := (h.exchanges n _ hfound).2
      rw [hobject] at hnone
      cases hnone
    refine ⟨hhandles, ?_, hfresh⟩
    rw [hothers n hn]
    exact hlatest

/-- A revocation changes neither the objects nor the clock. -/
theorem Renews.remove {value : Assertion} (h : Renews s number value) (credential : Identity) :
    Renews (s.remove credential) number value := by
  unfold System.remove
  split <;> exact h

theorem Renews.revoke {value : Assertion} (h : Renews s number value) (credential : Identity)
    (fault : Fault) : Renews (s.revoke credential fault) number value := by
  have hdeleted : Renews { s with store := s.store.revoke credential } number value := h
  unfold System.revoke
  cases fault with
  | refused => exact h
  | cut => exact hdeleted
  | none => exact hdeleted.remove credential
  | late => exact hdeleted.remove credential

/-- A renewal leaves what the others can be renewed with. -/
theorem Renews.update {other : ℕ} {value found : Assertion} (h : Renews s number value)
    (hother : Renews s other found) : Renews (s.update other found) number value := by
  refine ⟨h.1, fun bound hbound => ?_⟩
  rw [System.update, Table.lookup_modify] at hbound
  split at hbound
  · rename_i hn
    obtain ⟨before, hbefore, rfl⟩ := Option.map_eq_some_iff.mp hbound
    obtain ⟨hhandle, hkey⟩ := h.2 before (hn ▸ hbefore)
    obtain ⟨hhandle', hkey'⟩ := hother.2 before hbefore
    exact ⟨hhandle.trans hhandle'.symm, hkey.trans hkey'.symm⟩
  · exact h.2 bound hbound

/-- So do the answers of one poll. -/
theorem Sound.settle (faults : Identity → Fault) (list : List (ℕ × Option Assertion)) :
    ∀ {s}, Sound s → (∀ number value, (number, some value) ∈ list → Renews s number value) →
      Sound (System.settle faults list s) := by
  induction list with
  | nil => exact fun h _ => h
  | cons entry rest ih =>
    intro s h hrenews
    obtain ⟨number, result⟩ := entry
    have hrest : ∀ n value, (n, some value) ∈ rest → Renews s n value := fun n value hmem =>
      hrenews n value (List.mem_cons_of_mem _ hmem)
    cases result with
    | none =>
      have hkept := revokeAll_induction (I := fun t => Sound t ∧
        ∀ n value, (n, some value) ∈ rest → Renews t n value)
        (fun t credential ht => ⟨ht.1.revoke credential (faults credential), fun n value hmem =>
          (ht.2 n value hmem).revoke credential (faults credential)⟩) (s.active number) ⟨h, hrest⟩
      simp only [System.settle]
      split
      · rename_i t heq
        rw [heq] at hkept
        exact ih hkept.1 hkept.2
      · rename_i t heq
        rw [heq] at hkept
        exact hkept.1
    | some value =>
      have hvalue := hrenews number value List.mem_cons_self
      simp only [System.settle]
      split
      · exact ih h hrest
      · rename_i hactive
        exact ih (h.update hvalue hactive) fun n found hmem => (hrest n found hmem).update hvalue

theorem Sound.answer (h : Sound s) (values : Option (List (Option Value)))
    (faults : Identity → Fault) : Sound (s.answer values faults) := by
  unfold System.answer
  split
  · exact h
  rename_i renewal _
  refine Sound.settle faults _ ⟨h.inv, h.bound, h.origin, h.drawn, h.single, h.objects,
    h.exchanges, h.verified, h.retired, h.once, h.browser, h.pending⟩ fun number value hmem => ?_
  exact renews_of_checked hmem

/-! ### Sign-in -/

theorem Sound.begin (h : Sound s) (state browser nonce verifier : String) :
    Sound (s.begin state browser nonce verifier) := by
  unfold System.begin
  split
  · exact h
  rename_i provider _
  have hpruned : ∀ other value,
      (s.pending.discard fun _ value => value.deadline ≤ s.now).lookup other = some value →
        s.pending.lookup other = some value := by
    intro other value hvalue
    rw [Table.lookup_discard, Option.filter_eq_some_iff] at hvalue
    exact hvalue.1
  have hgiven : Sound { s with
      pending := s.pending.discard fun _ value => value.deadline ≤ s.now
      exchanges := s.exchanges } := h.give_up hpruned fun _ _ => id
  simp only
  split
  · exact hgiven
  rename_i hnew
  have hfresh : s.begun.lookup state = none := by
    simpa using (not_or.mp hnew).2
  refine ⟨hgiven.inv, hgiven.bound, hgiven.origin, hgiven.drawn, hgiven.single, hgiven.objects,
    hgiven.exchanges, hgiven.verified, hgiven.retired, hgiven.once, ?_, ?_⟩
  · intro entry hentry
    obtain ⟨hbegun, hnone⟩ := hgiven.browser entry hentry
    -- The state of an exchange was begun before.
    have hne : entry.1 ≠ state := by
      intro heq
      rw [heq, hfresh] at hbegun
      cases hbegun
    refine ⟨?_, ?_⟩
    · rw [AList.lookup_insert_ne hne]
      exact hbegun
    · rw [AList.lookup_insert_ne hne]
      exact hnone
  · intro other value hvalue
    obtain ⟨rfl, rfl⟩ | ⟨hne, hvalue⟩ := of_lookup_insert hvalue
    · exact AList.lookup_insert _
    · rw [AList.lookup_insert_ne hne]
      exact hgiven.pending other value hvalue

theorem Sound.complete (h : Sound s) (state browser : String) (issuer : Option String)
    (busy : Bool) : Sound (s.complete state browser issuer busy) := by
  have hgiven : Sound { s with
      pending := s.pending.erase state
      exchanges := s.exchanges } :=
    h.give_up (fun _ _ hvalue => (of_lookup_erase hvalue).2) fun _ _ => id
  unfold System.complete
  simp only
  split
  case h_2 => exact hgiven
  rename_i pending provider hpending hprovider
  split
  · exact hgiven
  rename_i hchecks
  have hbrowser : pending.browser = browser := by
    by_contra hne
    exact hchecks (.inr (.inl hne))
  have hbegun : s.begun.lookup state = some browser := by
    rw [← hbrowser]
    exact h.pending state pending hpending
  -- A state that was consumed before is not pending.
  have hnew : state ∉ s.exchanged.map Prod.fst := by
    intro hmem
    obtain ⟨entry, hentry, rfl⟩ := List.mem_map.mp hmem
    rw [(h.browser entry hentry).2] at hpending
    cases hpending
  have hunstarted : s.objects.lookup s.started = none := by
    by_contra hne
    obtain ⟨bound, hbound⟩ := Option.ne_none_iff_exists'.mp hne
    exact Nat.lt_irrefl _ (h.objects _ bound hbound).1
  refine ⟨hgiven.inv, hgiven.bound, hgiven.origin, hgiven.drawn, hgiven.single, ?_, ?_, ?_, ?_, ?_,
    ?_, hgiven.pending⟩
  · intro number bound hbound
    obtain ⟨hstarted, hhandle⟩ := h.objects number bound hbound
    exact ⟨Nat.lt_succ_of_lt hstarted, hhandle⟩
  · intro number exchange hexchange
    obtain ⟨rfl, -⟩ | ⟨-, hexchange⟩ := of_lookup_insert hexchange
    · exact ⟨Nat.lt_succ_self _, hunstarted⟩
    · obtain ⟨hstarted, hnone⟩ := h.exchanges number exchange hexchange
      exact ⟨Nat.lt_succ_of_lt hstarted, hnone⟩
  · intro number value hvalue
    obtain ⟨-, hvalue⟩ | ⟨-, hvalue⟩ := of_lookup_insert hvalue
    · cases hvalue
    · exact h.verified number value hvalue
  · intro handle hhandle
    obtain ⟨number, hstarted, hnumber, hbound, hexchange⟩ := h.retired handle hhandle
    refine ⟨number, Nat.lt_succ_of_lt hstarted, hnumber, hbound, ?_⟩
    rw [AList.lookup_insert_ne (Nat.ne_of_lt hstarted)]
    exact hexchange
  · rw [List.map_append, List.map_singleton]
    exact List.nodup_append.mpr ⟨h.once, List.nodup_singleton _, by
      intro a ha b hb
      obtain rfl := List.mem_singleton.mp hb
      rintro rfl
      exact hnew ha⟩
  · intro entry hentry
    obtain hentry | hentry := List.mem_append.mp hentry
    · exact hgiven.browser entry hentry
    · obtain rfl := List.mem_singleton.mp hentry
      refine ⟨hbegun, ?_⟩
      rw [AList.lookup_erase]

/-- The handles of different sign-ins are distinct. -/
def Distinct (s : System) : Action → Prop
  | .accept number (some value) => ∀ other, s.handles.lookup value.handle = some other →
    other = number
  | _ => True

/-- A new sign-in keeps them sound. -/
theorem Sound.accept (h : Sound s) {value : Option Assertion}
    (hdistinct : Distinct s (.accept number value)) : Sound (s.accept number value) := by
  have hfailed : Sound { s with pending := s.pending, exchanges := s.exchanges.erase number } :=
    h.give_up (fun _ _ => id) fun _ _ hexchange => (of_lookup_erase hexchange).2
  unfold System.accept
  split
  case h_2 => exact h
  rename_i hasked
  simp only
  split
  · exact hfailed
  split
  · exact hfailed
  rename_i value' hvalue
  obtain ⟨hstarted, hunbound⟩ := h.exchanges number _ hasked
  obtain ⟨hlease, -⟩ := assertion_eq_ok hvalue
  have howner : ∀ other, s.handles.lookup value'.handle = some other → other = number := by
    simp only [assertion, bind_eq_ok, orRaise_eq_ok, pure, Except.pure, Except.ok.injEq] at hvalue
    obtain ⟨found, rfl, -, -, -, -, -, -, -, -, -, -, rfl⟩ := hvalue
    exact hdistinct
  have hne : ∀ n bound, s.objects.lookup n = some bound → n ≠ number := by
    rintro n bound hbound rfl
    rw [hunbound] at hbound
    cases hbound
  -- A handle of another sign-in keeps its owner.
  have hkeeps : ∀ handle n, n ≠ number → s.handles.lookup handle = some n →
      (s.handles.insert value'.handle number).lookup handle = some n := by
    intro handle n hn hhandle
    have hhandles : handle ≠ value'.handle := by
      rintro rfl
      exact hn (howner n hhandle)
    rw [AList.lookup_insert_ne hhandles]
    exact hhandle
  have hlatest : ∀ n, n ≠ number → latest ((number, value') :: s.accepted) n =
      latest s.accepted n := by
    intro n hn
    rw [latest_cons, if_neg hn]
  refine ⟨h.inv, ?_, h.origin, h.drawn, h.single, ?_, ?_, ?_, ?_, h.once, h.browser, h.pending⟩
  · intro credential n hcredential
    obtain ⟨bound, hbound, hlast, hrest⟩ := h.bound credential n hcredential
    exact ⟨bound, hbound, (hlatest n (hne n bound hbound)).trans hlast, hrest⟩
  · intro n bound hbound
    obtain ⟨hn, hhandle⟩ := h.objects n bound hbound
    exact ⟨hn, hkeeps _ n (hne n bound hbound) hhandle⟩
  · intro n exchange hexchange
    obtain ⟨rfl, -⟩ | ⟨-, hexchange⟩ := of_lookup_insert hexchange
    · exact ⟨hstarted, hunbound⟩
    · exact h.exchanges n exchange hexchange
  · intro n found hfound
    obtain ⟨rfl, hsame⟩ | ⟨hn, hfound⟩ := of_lookup_insert hfound
    · obtain rfl := Exchange.verified.inj hsame
      refine ⟨AList.lookup_insert _, ?_, hlease⟩
      rw [latest_cons, if_pos rfl]
    · obtain ⟨hhandle, hlast, hfresh⟩ := h.verified n found hfound
      exact ⟨hkeeps _ n hn hhandle, (hlatest n hn).trans hlast, hfresh⟩
  · intro handle hhandle
    obtain ⟨n, hn, hnumber, hbound, hexchange⟩ := h.retired handle hhandle
    have hother : n ≠ number := by
      rintro rfl
      rw [hasked] at hexchange
      cases hexchange
    refine ⟨n, hn, hkeeps handle n hother hnumber, hbound, ?_⟩
    rw [AList.lookup_insert_ne hother]
    exact hexchange

/-- The sign-in fails after its assertion was accepted. -/
theorem Sound.fail (h : Sound s) {value : Assertion}
    (hverified : s.exchanges.lookup number = some (.verified value)) :
    Sound { s with
      exchanges := s.exchanges.erase number
      retired := value.handle :: s.retired } := by
  have hgiven : Sound { s with pending := s.pending, exchanges := s.exchanges.erase number } :=
    h.give_up (fun _ _ => id) fun _ _ hexchange => (of_lookup_erase hexchange).2
  refine hgiven.unbind (fun _ _ => id) fun handle hhandle => ?_
  obtain rfl | hhandle := List.mem_cons.mp hhandle
  · right
    obtain ⟨hstarted, hunbound⟩ := h.exchanges number _ hverified
    refine ⟨number, hstarted, (h.verified number value hverified).1, fun credential hbound => ?_,
      AList.lookup_erase number _⟩
    obtain ⟨bound, hobject, -⟩ := h.bound credential number hbound
    rw [hunbound] at hobject
    cases hobject
  · exact .inl hhandle

/-- A drawn name that is lost does no harm. -/
theorem Sound.spend (h : Sound s) (draw : State.Draw) :
    Sound { s with store := System.spent s.store draw } := by
  refine h.store ⟨?_, h.inv.unique, h.inv.bound, h.inv.logins⟩ (Nat.le_refl _)
    fun _ hid => List.mem_cons_of_mem _ hid
  intro identity row hrow
  obtain ⟨hid, hdigest⟩ := h.inv.drawn identity row hrow
  exact ⟨List.mem_cons_of_mem _ hid, List.mem_cons_of_mem _ hdigest⟩

/-- What the transaction of a sign-in has found and written. -/
theorem enrolled_eq_ok {value : Assertion} {s' : System} (h : s.enrolled number value draw = .ok s')
    :
    ∃ mapping store, s.mappings.lookup value.key = some mapping ∧
      (∃ arguments, s.store.issue arguments draw [] = .ok store) ∧
      s' = { s with
        store
        objects := s.objects.insert number ⟨value, mapping⟩
        bindings := s.bindings.insert draw.id number
        signIns := s.signIns.insert number (value.key, s.saves.length)
        origins := s.origins.insert draw.id number } := by
  simp only [System.enrolled, bind_eq_ok, orRaise_eq_ok, pure, Except.pure, Except.ok.injEq] at h
  obtain ⟨mapping, hmapping, -, -, -, -, -, -, project, -, store, hstore, rfl⟩ := h
  exact ⟨mapping, store, hmapping, ⟨_, hstore⟩, rfl⟩

/-- The change of the database in a sign-in or a rotation. -/
structure Draws (store store' : State) (draw : State.Draw) : Prop where
  inv : Inv store'
  now : store'.now = store.now
  fresh : draw.id ∉ store.drawn.1
  drawn : draw.id ∈ store'.drawn.1
  keeps : ∀ identity ∈ store.drawn.1, identity ∈ store'.drawn.1

/-- An issued credential has a new name. -/
theorem draws_of_issue {store store' : State} {arguments : State.Issue} (hinv : Inv store)
    (h : store.issue arguments draw [] = .ok store') :
    Draws store store' draw := by
  have hperform : perform store (.issue arguments draw) = .ok store' := h
  have hchange : Change store store' := hinv.perform_cases hperform
  obtain ⟨scopes, row, hinserts, -⟩ := State.issue_eq_ok h
  refine ⟨hinv.change hchange, State.issue_now h, hinserts.freshId, ?_, fun _ => hchange.drawn⟩
  rw [hinserts.drawn]
  exact List.mem_cons_self

/-- So has the one of a switch. -/
theorem draws_of_switch {store store' : State} {external : ExternalCheck}
    {identity project : Identity} (hinv : Inv store)
    (h : store.switchProject external identity project draw = .ok store') :
    Draws store store' draw := by
  have hperform : perform store (.switchProject external identity project draw) =
      .ok store' := h
  have hchange : Change store store' := hinv.perform_cases hperform
  obtain ⟨hfresh, hdrawn, hnow, -⟩ := State.switchProject_eq_ok h
  exact ⟨hinv.change hchange, hnow, hfresh, hdrawn, fun _ => hchange.drawn⟩

/-- A sign-in is bound to a new credential. -/
theorem Sound.bind (h : Sound s) {value : Assertion} {mapping : Mapping} {store : State}
    (hverified : s.exchanges.lookup number = some (.verified value))
    (hmapping : s.mappings.lookup value.key = some mapping) (hdraws : Draws s.store store draw) :
    Sound { s with
      store
      exchanges := s.exchanges.erase number
      objects := s.objects.insert number ⟨value, mapping⟩
      bindings := s.bindings.insert draw.id number
      signIns := s.signIns.insert number (value.key, s.saves.length)
      origins := s.origins.insert draw.id number } := by
  obtain ⟨hstarted, hunbound⟩ := h.exchanges number _ hverified
  obtain ⟨hhandle, hlast, hfresh⟩ := h.verified number value hverified
  have hnow : State.now store = s.now := hdraws.now
  have hne : ∀ credential n, s.bindings.lookup credential = some n → n ≠ number := by
    rintro credential n hbound rfl
    obtain ⟨bound, hobject, -⟩ := h.bound credential n hbound
    rw [hunbound] at hobject
    cases hobject
  have hbindings : ∀ {credential n}, (s.bindings.insert draw.id number).lookup credential = some n →
      credential = draw.id ∧ n = number ∨
        credential ≠ draw.id ∧ n ≠ number ∧ s.bindings.lookup credential = some n := by
    intro credential n hbound
    obtain heq | ⟨hcredential, hbound⟩ := of_lookup_insert hbound
    · exact .inl heq
    · exact .inr ⟨hcredential, hne credential n hbound, hbound⟩
  refine ⟨hdraws.inv, ?_, ?_, ?_, ?_, ?_, ?_, ?_, ?_, h.once, h.browser, h.pending⟩
  · intro credential n hbound
    obtain ⟨rfl, rfl⟩ | ⟨-, hn, hbound⟩ := hbindings hbound
    · refine ⟨⟨value, mapping⟩, AList.lookup_insert _, hlast, ?_, s.saves.length, mapping,
        AList.lookup_insert _, Nat.le_refl _, hmapping, ?_⟩
      · change _ ≤ State.now store + 30
        rw [hnow]
        exact hfresh
      · simp
    · obtain ⟨bound, hobject, hlatest, hlease, mark, found, hsignIn, hrest⟩ :=
        h.bound credential n hbound
      refine ⟨bound, ?_, hlatest, ?_, mark, found, ?_, hrest⟩
      · rw [AList.lookup_insert_ne hn]
        exact hobject
      · change _ ≤ State.now store + 30
        rw [hnow]
        exact hlease
      · rw [AList.lookup_insert_ne hn]
        exact hsignIn
  · intro credential n hbound
    obtain ⟨rfl, rfl⟩ | ⟨hcredential, -, hbound⟩ := hbindings hbound
    · exact AList.lookup_insert _
    · rw [AList.lookup_insert_ne hcredential]
      exact h.origin credential n hbound
  · intro credential n hbound
    obtain ⟨rfl, rfl⟩ | ⟨-, -, hbound⟩ := hbindings hbound
    · exact hdraws.drawn
    · exact hdraws.keeps credential (h.drawn credential n hbound)
  · intro credential other n hfirst hsecond
    obtain ⟨rfl, rfl⟩ | ⟨-, hn, hfirst⟩ := hbindings hfirst
    · obtain ⟨rfl, -⟩ | ⟨-, hn, -⟩ := hbindings hsecond
      · rfl
      · exact absurd rfl hn
    · obtain ⟨-, rfl⟩ | ⟨-, -, hsecond⟩ := hbindings hsecond
      · exact absurd rfl hn
      · exact h.single credential other n hfirst hsecond
  · intro n bound hbound
    obtain ⟨rfl, rfl⟩ | ⟨-, hbound⟩ := of_lookup_insert hbound
    · exact ⟨hstarted, hhandle⟩
    · exact h.objects n bound hbound
  · intro n exchange hexchange
    obtain ⟨hn, hexchange⟩ := of_lookup_erase hexchange
    obtain ⟨hlt, hnone⟩ := h.exchanges n exchange hexchange
    refine ⟨hlt, ?_⟩
    rw [AList.lookup_insert_ne hn]
    exact hnone
  · intro n found hfound
    obtain ⟨hhandles, hlatest, hlease⟩ := h.verified n found (of_lookup_erase hfound).2
    refine ⟨hhandles, hlatest, ?_⟩
    change _ ≤ State.now store + 30
    rw [hnow]
    exact hlease
  · intro handle hretired
    obtain ⟨n, hlt, hnumber, hbound, hexchange⟩ := h.retired handle hretired
    have hn : n ≠ number := by
      rintro rfl
      rw [hverified] at hexchange
      cases hexchange
    refine ⟨n, hlt, hnumber, fun credential hcredential => ?_, ?_⟩
    · obtain ⟨-, heq⟩ | ⟨-, -, hcredential⟩ := hbindings hcredential
      · exact hn heq
      · exact hbound credential hcredential
    · rw [AList.lookup_erase_ne hn]
      exact hexchange

/-- Enrolment binds the credential to its sign-in. -/
theorem Sound.enroll (h : Sound s) (number : ℕ) (draw : State.Draw) (commit : Commit) :
    Sound (s.enroll number draw commit) := by
  unfold System.enroll
  split
  case h_2 => exact h
  rename_i value hverified
  have hfailed := h.fail hverified
  simp only
  split
  · exact hfailed
  rename_i s' henrolled
  obtain ⟨mapping, store, hmapping, ⟨arguments, hissue⟩, rfl⟩ := enrolled_eq_ok henrolled
  have hdraws := draws_of_issue h.inv hissue
  cases commit with
  | done => exact h.bind hverified hmapping hdraws
  | rolledBack => exact hfailed.spend draw
  | lost => exact hfailed.store hdraws.inv hdraws.now.ge hdraws.keeps

/-! ### Rotation -/

/-- A rotation moves the binding. -/
theorem Sound.rotate (h : Sound s) {store : State} (identity : Identity)
    (hdraws : Draws s.store store draw) : Sound { s.rotate identity draw.id with store } := by
  have hstore : Sound { s with store } := h.store hdraws.inv hdraws.now.ge hdraws.keeps
  unfold System.rotate
  split
  · exact hstore
  rename_i number hnumber
  have hbindings : ∀ {credential n},
      ((s.bindings.erase identity).insert draw.id number).lookup credential = some n →
      credential = draw.id ∧ n = number ∨
        credential ≠ draw.id ∧ n ≠ number ∧ s.bindings.lookup credential = some n := by
    intro credential n hbound
    obtain heq | ⟨hcredential, hbound⟩ := of_lookup_insert hbound
    · exact .inl heq
    · obtain ⟨hne, hbefore⟩ := of_lookup_erase hbound
      refine .inr ⟨hcredential, ?_, hbefore⟩
      rintro rfl
      exact hne (h.single credential identity n hbefore hnumber)
  refine ⟨hstore.inv, ?_, ?_, ?_, ?_, hstore.objects, hstore.exchanges, hstore.verified, ?_,
    hstore.once, hstore.browser, hstore.pending⟩
  · intro credential n hbound
    obtain ⟨-, rfl⟩ | ⟨-, -, hbound⟩ := hbindings hbound
    · exact hstore.bound identity n hnumber
    · exact hstore.bound credential n hbound
  · intro credential n hbound
    obtain ⟨rfl, rfl⟩ | ⟨hcredential, -, hbound⟩ := hbindings hbound
    · exact AList.lookup_insert _
    · rw [AList.lookup_insert_ne hcredential]
      exact h.origin credential n hbound
  · intro credential n hbound
    obtain ⟨rfl, -⟩ | ⟨-, -, hbound⟩ := hbindings hbound
    · exact hdraws.drawn
    · exact hstore.drawn credential n hbound
  · intro credential other n hfirst hsecond
    obtain ⟨rfl, rfl⟩ | ⟨-, hn, hfirst⟩ := hbindings hfirst
    · obtain ⟨rfl, -⟩ | ⟨-, hn, -⟩ := hbindings hsecond
      · rfl
      · exact absurd rfl hn
    · obtain ⟨-, rfl⟩ | ⟨-, -, hsecond⟩ := hbindings hsecond
      · exact absurd rfl hn
      · exact h.single credential other n hfirst hsecond
  · intro handle hhandle
    obtain ⟨n, hlt, hn, hbound, hexchange⟩ := h.retired handle hhandle
    refine ⟨n, hlt, hn, fun credential hcredential => ?_, hexchange⟩
    obtain ⟨-, rfl⟩ | ⟨-, -, hcredential⟩ := hbindings hcredential
    · exact hbound identity hnumber
    · exact hbound credential hcredential

/-- So does a switch of the project. -/
theorem Sound.switchProject (h : Sound s) (identity project : Identity) (draw : State.Draw)
    (commit : Commit) : Sound (s.switchProject identity project draw commit) := by
  unfold System.switchProject
  simp only
  split
  case h_2 => exact h
  rename_i store row hswitch hrow
  have hdraws := draws_of_switch h.inv hswitch
  have hspent := h.spend draw
  -- The random values are used up when the transaction is rolled back.
  have hrolled : Draws s.store (System.spent s.store draw) draw :=
    ⟨hspent.inv, rfl, hdraws.fresh, List.mem_cons_self, fun _ => List.mem_cons_of_mem _⟩
  have hmoved : ∀ {after}, Draws s.store after draw →
      Sound { (if row.kind = .remote then s.rotate identity draw.id else s) with
        store := after } := by
    intro after hafter
    split
    · exact h.rotate identity hafter
    · exact h.store hafter.inv hafter.now.ge hafter.keeps
  cases commit with
  | rolledBack => exact hmoved hrolled
  | done => exact hmoved hdraws
  | lost => exact hmoved hdraws

/-! ### Administration -/

/-- A mapping that changes ends its sessions. -/
theorem Sound.save (h : Sound s) (key : Key) (subjectId : Identity) (disabled : Bool)
    (revision : ℕ) (drawn : Identity) (formed : Bool) :
    Sound (s.save key subjectId disabled revision drawn formed) := by
  unfold System.save
  simp only
  split
  · exact h
  rename_i hchecks
  have hrevision : ((s.mappings.lookup key).map Mapping.revision).getD 0 = revision := by
    by_contra hne
    exact hchecks (.inr (.inr (.inr (.inr (.inl hne)))))
  refine ⟨h.inv, ?_, h.origin, h.drawn, h.single, h.objects, h.exchanges, h.verified, h.retired,
    h.once, h.browser, h.pending⟩
  intro credential number hbound
  obtain ⟨bound, hobject, hlatest, hlease, mark, found, hsignIn, hmark, hfound, hcount⟩ :=
    h.bound credential number hbound
  have hdrop : (s.saves ++ [key]).drop mark = s.saves.drop mark ++ [key] :=
    List.drop_append_of_le_length hmark
  have hsaved : mark ≤ (s.saves ++ [key]).length := by
    rw [List.length_append]
    exact Nat.le_add_right_of_le hmark
  by_cases hkey : bound.assertion.key = key
  · -- The revision grows with what was saved.
    let saved : Mapping :=
      ⟨((s.mappings.lookup key).map Mapping.id).getD drawn, subjectId, disabled, revision + 1⟩
    refine ⟨bound, hobject, hlatest, hlease, mark, saved, hsignIn, hsaved, ?_, ?_⟩
    · rw [hkey]
      exact AList.lookup_insert _
    · rw [hkey] at hfound hcount
      rw [hfound, Option.map_some, Option.getD_some] at hrevision
      dsimp only
      rw [hdrop, hkey, List.count_append, List.count_singleton_self]
      change revision + 1 = _
      omega
  · refine ⟨bound, hobject, hlatest, hlease, mark, found, hsignIn, hsaved, ?_, ?_⟩
    · rw [AList.lookup_insert_ne hkey]
      exact hfound
    · dsimp only
      rw [hdrop, List.count_append, List.count_singleton, beq_false_of_ne (Ne.symm hkey)]
      exact hcount

theorem Sound.local_ (h : Sound s) (event : Event) : Sound (s.local_ event) := by
  unfold System.local_
  split
  · refine h.store (h.inv.step event) (now_le_step s.store event) fun identity hidentity => ?_
    unfold Access.step
    split
    · rename_i hperform
      exact (h.inv.perform_cases hperform).drawn hidentity
    · exact hidentity
  · exact h

theorem Sound.close (h : Sound s) : Sound s.close := by
  have hgiven : Sound { s with pending := ∅, exchanges := s.exchanges } :=
    h.give_up (fun _ _ hvalue => (nomatch hvalue)) fun _ _ => id
  have hunbound : Sound { s with pending := ∅, bindings := ∅, retired := [] } :=
    hgiven.unbind (fun _ _ hbound => (nomatch hbound)) fun _ hmem => absurd hmem List.not_mem_nil
  exact ⟨hunbound.inv, hunbound.bound, hunbound.origin, hunbound.drawn, hunbound.single,
    hunbound.objects, hunbound.exchanges, hunbound.verified, hunbound.retired, hunbound.once,
    hunbound.browser, hunbound.pending⟩

/-- A restart ends the sessions from outside. -/
theorem Sound.restart (h : Sound s) : Sound s.restart := by
  have hclosed := h.close
  exact {
    inv := inv_retireRemote h.inv
    bound := fun _ _ hbound => (nomatch hbound)
    origin := fun _ _ hbound => (nomatch hbound)
    drawn := fun _ _ hbound => (nomatch hbound)
    single := fun _ _ _ hbound => (nomatch hbound)
    objects := fun _ _ hobject => (nomatch hobject)
    exchanges := fun _ _ hexchange => (nomatch hexchange)
    verified := fun _ _ hvalue => (nomatch hvalue)
    retired := fun _ hmem => absurd hmem List.not_mem_nil
    once := h.once
    browser := hclosed.browser
    pending := hclosed.pending }

theorem Sound.forget (h : Sound s) (handles : List String) : Sound (s.forget handles) :=
  h.unbind (fun _ _ => id) fun _ hhandle => .inl (List.mem_filter.mp hhandle).1

theorem Sound.load (h : Sound s) (issuer : String) : Sound (s.load issuer) := by
  unfold System.load
  split
  · exact h
  · exact ⟨h.inv, h.bound, h.origin, h.drawn, h.single, h.objects, h.exchanges, h.verified,
      h.retired, h.once, h.browser, h.pending⟩

theorem Sound.renew (h : Sound s) : Sound s.renew := by
  unfold System.renew
  split
  · exact h
  · exact ⟨h.inv, h.bound, h.origin, h.drawn, h.single, h.objects, h.exchanges, h.verified,
      h.retired, h.once, h.browser, h.pending⟩

/-! ### Runs -/

/-- One action keeps the sessions sound. -/
theorem Sound.step (h : Sound s) {a : Action} (hdistinct : Distinct s a) :
    Sound (External.step s a) := by
  cases a with
  | load issuer => exact h.load issuer
  | begin state browser nonce verifier => exact h.begin state browser nonce verifier
  | abandon state =>
    exact h.give_up (fun _ _ hvalue => (of_lookup_erase hvalue).2) fun _ _ => id
  | complete state browser issuer busy => exact h.complete state browser issuer busy
  | accept number value => exact h.accept hdistinct
  | enroll number draw commit => exact h.enroll number draw commit
  | switchProject identity project draw commit =>
    exact h.switchProject identity project draw commit
  | revoke credential fault => exact h.revoke credential fault
  | poll faults => exact h.poll faults
  | renew => exact h.renew
  | answer values faults => exact h.answer values faults
  | forget handles => exact h.forget handles
  | save key subjectId disabled revision drawn formed =>
    exact h.save key subjectId disabled revision drawn formed
  | local_ event => exact h.local_ event
  | close => exact h.close
  | restart => exact h.restart

/-- A run keeps them sound. -/
theorem Sound.run (h : Sound s) {actions : List Action}
    (hdistinct : Along External.step Distinct s actions) :
    Sound (run External.step s actions) :=
  hdistinct.run_invariant (fun _ _ h hd => h.step hd) h

/-- What a credential needs that authenticates: the latest assertion of its sign-in, and the
mapping of the sign-in. -/
def Supported (s : System) (principal : Principal) : Prop :=
  ∃ number value key mark mapping,
    s.origins.lookup principal.id = some number ∧ latest s.accepted number = some value ∧
    s.now < value.validUntil ∧ value.validUntil ≤ s.now + 30 ∧
    s.signIns.lookup number = some (key, mark) ∧ value.key = key ∧
    key ∉ s.saves.drop mark ∧ s.mappings.lookup key = some mapping ∧
    mapping.disabled = false ∧ mapping.subjectId = principal.subjectId

/-- A credential passes with a live assertion of its own sign-in. -/
theorem check_eq_true {credential subjectId : Identity} (h : s.check credential subjectId = true) :
    ∃ number bound, s.bindings.lookup credential = some number ∧
      s.objects.lookup number = some bound ∧ s.now < bound.assertion.validUntil ∧
      s.mappings.lookup bound.assertion.key = some bound.mapping ∧
      bound.mapping.disabled = false ∧ bound.mapping.subjectId = subjectId := by
  unfold System.check at h
  split at h
  · cases h
  rename_i number hnumber
  split at h
  · cases h
  rename_i bound hbound
  exact ⟨number, bound, hnumber, hbound, of_decide_eq_true h⟩

/-- Who is let in is supported. -/
theorem Sound.checked (h : Sound s) {credential : Identity} {row : Credential}
    {principal : Principal} (hremote : principal.kind = .remote)
    (hprincipal : s.store.principal s.check credential row = .ok principal) :
    Supported s principal := by
  obtain ⟨hid, hkind, -, -, hsubject, -⟩ := State.principal_eq_ok hprincipal
  have hcheck : s.check credential row.subjectId = true := by
    simp only [State.principal, bind_eq_ok, raiseIf_eq_ok, not_and, Bool.not_eq_false]
      at hprincipal
    obtain ⟨-, hcheck, -⟩ := hprincipal
    exact hcheck (hkind ▸ hremote)
  obtain ⟨number, bound, hbinding, hobject, hvalid, hmapping, henabled, hmapped⟩ :=
    check_eq_true hcheck
  obtain ⟨found, hfound, hlatest, hlease, mark, current, hsignIn, -, hcurrent, hcount⟩ :=
    h.bound credential number hbinding
  obtain rfl := Option.some.inj (hfound.symm.trans hobject)
  obtain rfl := Option.some.inj (hcurrent.symm.trans hmapping)
  refine ⟨number, found.assertion, found.assertion.key, mark, found.mapping, ?_, hlatest, hvalid, hlease,
    hsignIn, rfl, ?_, hmapping, henabled, hmapped.trans hsubject.symm⟩
  · rw [hid]
    exact h.origin credential number hbinding
  · refine List.count_eq_zero.mp ?_
    omega

/-- The handle of a live credential. -/
def BoundTo (s : System) (credential : Identity) (handle : String) : Prop :=
  ∃ row number bound, s.store.credentials.lookup credential = some row ∧
    s.bindings.lookup credential = some number ∧ s.objects.lookup number = some bound ∧
    bound.assertion.handle = handle

/-- In every run in which the handles of different sign-ins are distinct, a remote credential
authenticates only with the latest assertion of its own sign-in and the mapping of that sign-in, a
state is consumed once and by its browser, and a retired handle has no live credential. -/
theorem sessions_fail_closed (events : List Event) (mappings : Table Key Mapping)
    (actions : List Action)
    (hdistinct : Along step Distinct
      (.initial (run Access.step .initial events) mappings) actions) :
    let s := run step (.initial (run Access.step .initial events) mappings) actions
    (∀ identity principal, s.current identity = .ok principal → principal.kind = .remote →
      Supported s principal) ∧
    (∀ digest kinds principal, s.resolve digest kinds = .ok principal →
      principal.kind = .remote → Supported s principal) ∧
    (s.exchanged.map Prod.fst).Nodup ∧
    (∀ entry ∈ s.exchanged, s.begun.lookup entry.1 = some entry.2) ∧
    ∀ handle ∈ s.retired, ∀ credential, ¬BoundTo s credential handle := by
  intro s
  have hsound : Sound s := (sound_initial (Inv.run events) mappings).run hdistinct
  refine ⟨fun identity principal hcurrent hremote => ?_,
    fun digest kinds principal hresolve hremote => ?_, hsound.once,
    fun entry hentry => (hsound.browser entry hentry).1, fun handle hhandle credential hbound => ?_⟩
  · obtain ⟨row, -, hprincipal⟩ := State.current_eq_ok hcurrent
    exact hsound.checked hremote hprincipal
  · obtain ⟨identity, row, -, -, -, hprincipal⟩ := State.resolve_eq_ok hresolve
    exact hsound.checked hremote hprincipal
  · obtain ⟨number, -, hnumber, hnone, -⟩ := hsound.retired handle hhandle
    obtain ⟨row, n, bound, -, hbinding, hobject, rfl⟩ := hbound
    obtain rfl := Option.some.inj ((hsound.objects n bound hobject).2.symm.trans hnumber)
    exact hnone credential hbinding

/-! ### Two sign-ins of one subject -/

/-- The latest assertion that was accepted for a subject, of whichever sign-in. -/
def latestOf (accepted : List (ℕ × Assertion)) (key : Key) : Option Assertion :=
  (accepted.find? fun entry => entry.2.key = key).map Prod.snd

/-- The latest assertion for the subject of a credential supports it, instead of the latest of its
own sign-in. -/
def SupportedBySubject (s : System) (principal : Principal) : Prop :=
  ∃ number key mark value,
    s.origins.lookup principal.id = some number ∧ s.signIns.lookup number = some (key, mark) ∧
    latestOf s.accepted key = some value ∧ s.now < value.validUntil ∧ value.validUntil ≤ s.now + 30

namespace Example

/-- There is a user who is a member of a project. -/
def administration : List Event :=
  [.create .user "Ada" 10, .create .project "Analysis" 11,
    .membership 11 10 ["jobs:read", "files:read"] 0]

/-- What the provider says about the user. -/
def asserted (handle : String) (validUntil : ℕ) : Option Assertion :=
  some ⟨⟨"https://id.example", "ada", 1, 600, validUntil⟩, handle⟩

/-- Two sign-ins of the user that are bound to credentials, and a third one whose transaction is
rolled back. -/
def signingIn : List Action :=
  [.load "https://id.example", .save ("https://id.example", "ada") 10 false 0 12 true,
    .begin "state0" "browser0" "nonce0" "verifier0", .complete "state0" "browser0" none false,
    .accept 0 (asserted "0123456789abcdef0123456789abcdef" 20), .enroll 0 ⟨20, 120, "csrf0"⟩ .done,
    .begin "state1" "browser1" "nonce1" "verifier1", .complete "state1" "browser1" none false,
    .accept 1 (asserted "123456789abcdef0123456789abcdef0" 5), .enroll 1 ⟨21, 121, "csrf1"⟩ .done,
    .begin "state2" "browser2" "nonce2" "verifier2", .complete "state2" "browser2" none false,
    .accept 2 (asserted "23456789abcdef0123456789abcdef01" 5),
    .enroll 2 ⟨22, 122, "csrf2"⟩ .rolledBack]

/-- Then ten seconds pass. -/
def later : List Action := signingIn ++ [.local_ (.tick 10)]

/-- The controller has started after the administration. -/
def start : System := .initial (run Access.step .initial administration) ∅

instance (s : System) (a : Action) : Decidable (Distinct s a) :=
  match a with
  | .accept number (some value) =>
    inferInstanceAs (Decidable (∀ other ∈ s.handles.lookup value.handle, other = number))
  | .accept _ none | .load _ | .begin _ _ _ _ | .abandon _ | .complete _ _ _ _ | .enroll _ _ _
  | .switchProject _ _ _ _ | .revoke _ _ | .poll _ | .renew | .answer _ _ | .forget _
  | .save _ _ _ _ _ _ | .local_ _ | .close | .restart => .isTrue trivial

/-- Both credentials authenticate, and the handle of the third sign-in is retired. -/
theorem sessions_fail_closed_signingIn :
    let s := Ficc.run step start signingIn
    (∃ principal, s.current 20 = .ok principal ∧ Supported s principal) ∧
      (∃ principal, s.current 21 = .ok principal ∧ Supported s principal) ∧
      (s.exchanged.map Prod.fst = ["state0", "state1", "state2"] ∧
        (s.exchanged.map Prod.fst).Nodup) ∧
      ∃ handle ∈ s.retired, ∀ credential, ¬BoundTo s credential handle := by
  intro s
  have hdistinct : Along step Distinct start signingIn := by decide +kernel
  obtain ⟨hcurrent, -, honce, -, hretired⟩ :=
    sessions_fail_closed administration ∅ signingIn hdistinct
  have hremote (identity : Identity) (hmem : identity ∈ [20, 21]) :
      (s.current identity).map Principal.kind = .ok .remote := by
    revert identity
    decide +kernel
  have hsupported (identity : Identity) (hmem : identity ∈ [20, 21]) :
      ∃ principal, s.current identity = .ok principal ∧ Supported s principal := by
    have hkind := hremote identity hmem
    cases hprincipal : s.current identity with
    | error raised => rw [hprincipal] at hkind; cases hkind
    | ok principal =>
      rw [hprincipal] at hkind
      exact ⟨principal, rfl, hcurrent identity principal hprincipal (Except.ok.inj hkind)⟩
  have hhandle : "23456789abcdef0123456789abcdef01" ∈ s.retired := by decide +kernel
  exact ⟨hsupported 20 (by decide), hsupported 21 (by decide), ⟨by decide +kernel, honce⟩,
    _, hhandle, hretired _ hhandle⟩

/-- The credential of the first sign-in authenticates when the latest assertion for its subject,
which is of another sign-in, has expired. -/
theorem not_supportedBySubject_later :
    Along step Distinct start later ∧ ∃ principal,
      (Ficc.run step start later).current 20 = .ok principal ∧ principal.kind = .remote ∧
        ¬SupportedBySubject (Ficc.run step start later) principal := by
  refine ⟨by decide +kernel, ?_⟩
  set s := Ficc.run step start later with hs
  have hprincipal : ((s.current 20).map fun principal => (principal.id, principal.kind)) =
      .ok (20, .remote) := by decide +kernel
  cases hcurrent : s.current 20 with
  | error raised => rw [hcurrent] at hprincipal; cases hprincipal
  | ok principal =>
    rw [hcurrent] at hprincipal
    obtain ⟨hid, hkind⟩ := Prod.mk.inj (Except.ok.inj hprincipal)
    refine ⟨principal, rfl, hkind, ?_⟩
    rintro ⟨number, key, mark, value, horigin, hsignIn, hlatest, hvalid, -⟩
    have hnumber : s.origins.lookup 20 = some 0 := by decide +kernel
    have hkey : (s.signIns.lookup 0).map Prod.fst = some ("https://id.example", "ada") := by
      decide +kernel
    have hexpired : (latestOf s.accepted ("https://id.example", "ada")).map
        (fun value => value.validUntil) = some 5 ∧ s.now = 10 := by decide +kernel
    rw [hid, hnumber] at horigin
    obtain rfl := Option.some.inj horigin
    rw [hsignIn] at hkey
    obtain rfl := Option.some.inj hkey
    rw [hlatest] at hexpired
    have huntil : value.validUntil = 5 := Option.some.inj hexpired.1
    rw [hexpired.2, huntil] at hvalid
    exact absurd hvalid (by decide)

end Example

end External

end Ficc.Access
