import Ficc.Modules.Grants

/-!
# Opening the registry

A controller that starts removes the stages that are left in the module storage, and raises when it
finds more than 128 entries. The stages among the first 128 of them are gone by then, so the next
start finds fewer. `restarted` starts the controller again and again, with an order of the entries
for each start.

## Main results

* `opens_iff`: a start succeeds at last, whatever the orders, exactly when there is room for the
  packages and for one more stage that has not been removed.
* `reopened_iff`: what holds of the registry once it is open.
-/

namespace Ficc.Modules

open Execution (Digest)
open Durable

namespace Registry

/-- The number of directories of packages. -/
def packageCount (s : Registry) : ℕ := s.directories.entries.length

/-- The packages leave room for a stage where there is one. -/
def room (packages stages : ℕ) : Prop := packages + min 1 stages ≤ MAX_ENTRIES

/-- The module storage is one with which the controller starts. -/
def Startable (s : Registry) : Prop := room s.packageCount s.stages.length

/-- The registry after some starts of a controller that has ended. -/
def restarted (s : Registry) (orders : ℕ → List Entry) : ℕ → Registry
  | 0 => s.closed
  | n + 1 => cut (reopen (orders n)) (s.restarted orders n) none

/-- The registry after a start that succeeds. -/
def reopened (s : Registry) : Registry := { s with leases := ∅, stages := [], opened := true }

end Registry

/-- The stage of an entry. -/
def Entry.stage? : Entry → Option Directory
  | .package _ => none
  | .stage directory => some directory

/-- The stages among some entries. -/
def stagesOf (entries : List Entry) : List Directory := entries.filterMap Entry.stage?

@[simp]
theorem stagesOf_stage (directory : Directory) (rest : List Entry) :
    stagesOf (.stage directory :: rest) = directory :: stagesOf rest := rfl

/-- Packages are no stages. -/
theorem stagesOf_packages (digests : List Digest) : stagesOf (digests.map .package) = [] := by
  simp [stagesOf, Entry.stage?]

theorem stagesOf_entries (s : Registry) : stagesOf s.entries = s.stages := by
  have hpackages : (s.directories.keys.map Entry.package).filterMap Entry.stage? = [] :=
    stagesOf_packages _
  have hstages : (s.stages.map Entry.stage).filterMap Entry.stage? = s.stages := by
    simp [List.filterMap_map, Function.comp_def, Entry.stage?]
  rw [stagesOf, Registry.entries, List.filterMap_append, hpackages, hstages, List.nil_append]

/-- The directory holds packages and stages. -/
theorem length_entries (s : Registry) : s.entries.length = s.packageCount + s.stages.length := by
  simp [Registry.entries, Registry.packageCount, AList.keys, List.keys]

/-- The order of the entries does not matter. -/
theorem found_perm (s : Registry) (order : List Entry) : (s.found order).Perm s.entries := by
  unfold Registry.found
  split_ifs with horder
  · exact horder
  · exact .refl _

/-- The stages that are found are those in the storage. -/
theorem stagesOf_found (s : Registry) (order : List Entry) :
    (stagesOf (s.found order)).Perm s.stages := by
  have hperm := (found_perm s order).filterMap Entry.stage?
  rw [← stagesOf_entries s]
  exact hperm

/-- What a cleanup removes is gone, and the rest stays. -/
theorem length_diff_stages {stages removed : List Directory} (h : removed.Subperm stages) :
    (stages.diff removed).length + removed.length = stages.length := by
  have hperm := List.subperm_append_diff_self_of_count_le (List.subperm_ext_iff.mp h)
  rw [← hperm.length_eq, List.length_append, Nat.add_comm]

/-- The registry after the stages among some entries have been removed. -/
def Registry.without (s : Registry) (found : List Entry) : Registry :=
  { s with stages := s.stages.diff (stagesOf found) }

/-- The cleanup removes the stages among the entries that it may look at, and raises when there are
more entries. -/
theorem recoverStages_eq (found : List Entry) (index : ℕ) (s : Registry) :
    ∃ states, last s states = s.without (found.take (MAX_ENTRIES - index)) ∧
      Registry.recoverStages index found s = ⟨states,
        if found.length ≤ MAX_ENTRIES - index then .ok ()
        else .error (invalid "The module storage entry count exceeds its limit.")⟩ := by
  induction found generalizing index s with
  | nil => exact ⟨[], by simp [Registry.without, stagesOf], rfl⟩
  | cons entry rest ih =>
    by_cases hindex : MAX_ENTRIES ≤ index
    -- The scan raises at this entry.
    · have hnone : MAX_ENTRIES - index = 0 := Nat.sub_eq_zero_of_le hindex
      refine ⟨[], by simp [hnone, Registry.without, stagesOf], ?_⟩
      rw [hnone, if_neg (by simp)]
      cases entry <;> exact bind_eq_of_error (refuseIf_pos hindex _ s)
    · have hnext : MAX_ENTRIES - index = MAX_ENTRIES - (index + 1) + 1 := by omega
      have hlength : (entry :: rest).length ≤ MAX_ENTRIES - index ↔
          rest.length ≤ MAX_ENTRIES - (index + 1) := by
        rw [hnext, List.length_cons, Nat.add_le_add_iff_right]
      simp only [hlength]
      rw [hnext, List.take_succ_cons]
      cases entry with
      | package digest =>
        obtain ⟨states, hlast, hstates⟩ := ih (index + 1) s
        refine ⟨states, hlast, ?_⟩
        rw [Registry.recoverStages, bind_eq_of_read (refuseIf_neg hindex _ s), hstates]
      | stage directory =>
        let t : Registry := { s with stages := s.stages.erase directory }
        have hremoved : (perform fun s => { s with stages := s.stages.erase directory } :
            Operation Unit) s = ⟨[t], .ok ()⟩ := rfl
        obtain ⟨states, hlast, hstates⟩ := ih (index + 1) t
        refine ⟨t :: states, ?_, ?_⟩
        · rw [last_cons, hlast, Registry.without, Registry.without, stagesOf_stage, List.diff_cons]
        · rw [Registry.recoverStages, bind_eq_of_read (refuseIf_neg hindex _ s),
            bind_eq_of_ok hremoved, last_singleton, hstates]
          rfl

/-- A start succeeds when the entries are not too many, and otherwise it removes the stages among
those that it has looked at. -/
theorem cut_reopen (s : Registry) (order : List Entry) :
    cut (Registry.reopen order) s none =
      if s.entries.length ≤ MAX_ENTRIES then s.reopened
      else s.closed.without ((s.found order).take MAX_ENTRIES) := by
  obtain ⟨states, hlast, hstates⟩ := recoverStages_eq (s.found order) 0 s.closed
  rw [Nat.sub_zero, (found_perm s order).length_eq] at hstates
  rw [Nat.sub_zero] at hlast
  -- The leases are gone before the storage is read.
  have hcourse : cut (Registry.reopen order) s none = cut (do
      Registry.recoverStages 0 (s.found order)
      perform fun s => { s with opened := true } : Operation Unit) s.closed none := by
    have hclosed : (perform Registry.closed : Operation Unit) s = ⟨[s.closed], .ok ()⟩ := rfl
    have hread := bind_eq_of_ok (f := fun _ => (do
      let s ← disk
      Registry.recoverStages 0 (s.found order)
      perform fun s => { s with opened := true } : Operation Unit)) hclosed
    rw [last_singleton, bind_eq_of_read (p := disk) rfl] at hread
    rw [cut, Registry.reopen, hread, last_append, last_singleton]
    rfl
  rw [hcourse]
  split_ifs with hfew
  · rw [if_pos hfew] at hstates
    rw [cut, bind_eq_of_ok hstates, last_append, hlast]
    have hall : (s.found order).take MAX_ENTRIES = s.found order :=
      List.take_of_length_le (by rwa [(found_perm s order).length_eq])
    have hgone : s.stages.diff (stagesOf (s.found order)) = [] := by
      have hperm := stagesOf_found s order
      have hlength := length_diff_stages hperm.subperm
      exact List.eq_nil_of_length_eq_zero (by rw [hperm.length_eq] at hlength; omega)
    rw [hall]
    show { s.closed.without (s.found order) with opened := true } = s.reopened
    simp only [Registry.without, Registry.closed, Registry.reopened, hgone]
  · rw [if_neg hfew] at hstates
    rw [cut, bind_eq_of_error hstates, hlast]

/-! ### What an interruption leaves behind -/

section Leave

variable (s t : Registry) (interruption : Interruption)

/-- An interruption leaves the packages that the operation has left. -/
theorem directories_leave : (s.leave t interruption).directories = t.directories := by
  cases interruption with
  | crash => rfl
  | failure cleaned =>
    rw [Registry.leave]
    split_ifs <;> rfl

/-- Only a failure that is handled removes the stage. -/
theorem stages_leave : (s.leave t interruption).stages =
    if interruption = .failure true ∧ t.opened = true then s.stages else t.stages := by
  cases interruption with
  | crash => rfl
  | failure cleaned => cases cleaned <;> cases hopen : t.opened <;> simp [Registry.leave, hopen]

/-- Opening the registry makes up for the interruption. -/
theorem reopened_leave : (s.leave t interruption).reopened = t.reopened := by
  cases interruption with
  | crash => rfl
  | failure cleaned =>
    rw [Registry.leave]
    split_ifs <;> rfl

/-- An operation that changes neither the number of packages nor the stages does not matter to the
next start. -/
theorem startable_leave {s t : Registry} (interruption : Interruption)
    (hdirectories : t.directories = s.directories) (hstages : t.stages = s.stages) :
    (s.leave t interruption).Startable ↔ s.Startable := by
  unfold Registry.Startable Registry.packageCount
  rw [directories_leave, stages_leave, hdirectories, hstages, ite_self]

end Leave

/-! ### Starting again and again -/

section Restarts

variable {s : Registry}

/-- The starts leave the database and the packages as they are, and an open registry has no
stages. -/
theorem restarted_frame (s : Registry) (orders : ℕ → List Entry) (n : ℕ) :
    let t := s.restarted orders n
    t.db = s.db ∧ t.directories = s.directories ∧ t.leases = ∅ ∧
      (t.opened = true → t = s.reopened) := by
  induction n with
  | zero => exact ⟨rfl, rfl, rfl, nofun⟩
  | succ n ih =>
    obtain ⟨hdb, hdirectories, hleases, -⟩ := ih
    dsimp only [Registry.restarted]
    rw [cut_reopen]
    split_ifs
    · refine ⟨hdb, hdirectories, rfl, fun _ => ?_⟩
      simp only [Registry.reopened, hdb, hdirectories]
    · exact ⟨hdb, hdirectories, rfl, nofun⟩

/-- A start that fails only comes before the others. -/
theorem restarted_succ (s : Registry) (orders : ℕ → List Entry) (n : ℕ) :
    s.restarted orders (n + 1) =
      (cut (Registry.reopen (orders 0)) s.closed none).restarted (fun k => orders (k + 1)) n ∨
    (s.restarted orders 1).opened = true := by
  by_cases hopen : (s.restarted orders 1).opened = true
  · exact .inr hopen
  refine .inl ?_
  induction n with
  | zero =>
    show s.restarted orders 1 = (s.restarted orders 1).closed
    have hclosed : (s.restarted orders 1).opened = false := Bool.eq_false_iff.mpr hopen
    have hleases := (restarted_frame s orders 1).2.2.1
    rw [Registry.closed, ← hclosed, ← hleases]
  | succ n ih =>
    show cut (Registry.reopen (orders (n + 1))) (s.restarted orders (n + 1)) none = _
    rw [ih]
    rfl

/-- The first entries cannot all be packages when there are fewer packages. -/
theorem exists_stage_found (order : List Entry) (hpackages : s.packageCount < MAX_ENTRIES)
    (hmany : MAX_ENTRIES < s.entries.length) :
    stagesOf ((s.found order).take MAX_ENTRIES) ≠ [] := by
  intro hnone
  have hlength : ((s.found order).take MAX_ENTRIES).length = MAX_ENTRIES := by
    rw [List.length_take, (found_perm s order).length_eq]
    omega
  -- Without a stage among them the others would all be stages, and one is missing.
  have hrest : (stagesOf ((s.found order).drop MAX_ENTRIES)).length = s.stages.length := by
    have hsplit := congrArg stagesOf (List.take_append_drop MAX_ENTRIES (s.found order))
    rw [stagesOf, List.filterMap_append] at hsplit
    rw [← (stagesOf_found s order).length_eq, ← hsplit]
    show _ = (stagesOf _ ++ stagesOf _).length
    rw [hnone, List.nil_append]
  have hdropped : (stagesOf ((s.found order).drop MAX_ENTRIES)).length ≤
      s.entries.length - MAX_ENTRIES := by
    refine (List.length_filterMap_le _ _).trans ?_
    rw [List.length_drop, (found_perm s order).length_eq]
  rw [length_entries] at hdropped hmany
  omega

/-- A controller that is started again and again starts at last, whatever the orders in which the
entries are found, exactly when the packages leave room. -/
theorem opens_iff (s : Registry) :
    (∀ orders, ∃ n, (s.restarted orders n).opened = true) ↔ s.Startable := by
  constructor
  · intro hopens
    by_contra hfull
    -- All packages are found before the stages, and nothing is removed.
    have hclosed : ∀ n, s.restarted (fun _ => s.entries) n = s.closed := by
      intro n
      induction n with
      | zero => rfl
      | succ n ih =>
        show cut (Registry.reopen s.entries) (s.restarted _ n) none = s.closed
        have hmany : ¬s.closed.entries.length ≤ MAX_ENTRIES := by
          show ¬s.entries.length ≤ MAX_ENTRIES
          rw [length_entries]
          unfold Registry.Startable Registry.room at hfull
          omega
        rw [ih, cut_reopen, if_neg hmany]
        have hfirst : stagesOf ((s.closed.found s.entries).take MAX_ENTRIES) = [] := by
          have hfound : s.closed.found s.entries = s.entries := if_pos (.refl _)
          have hpackages : MAX_ENTRIES ≤ (s.directories.keys.map Entry.package).length := by
            rw [List.length_map, AList.keys, List.keys, List.length_map]
            unfold Registry.Startable Registry.room Registry.packageCount at hfull
            omega
          rw [hfound, Registry.entries, List.take_append_of_le_length hpackages, ← List.map_take,
            stagesOf_packages]
        show s.closed.without _ = s.closed
        rw [Registry.without, hfirst, List.diff_nil]
    obtain ⟨n, hopen⟩ := hopens fun _ => s.entries
    rw [hclosed n] at hopen
    cases hopen
  · intro hroom
    -- Every start that fails removes a stage.
    induction hcount : s.stages.length using Nat.strong_induction_on generalizing s with
    | _ count ih =>
      intro orders
      by_cases hfew : s.entries.length ≤ MAX_ENTRIES
      · refine ⟨1, ?_⟩
        show (cut (Registry.reopen (orders 0)) s.closed none).opened = true
        have hfew' : s.closed.entries.length ≤ MAX_ENTRIES := hfew
        rw [cut_reopen, if_pos hfew']
        rfl
      · have hmany : ¬s.closed.entries.length ≤ MAX_ENTRIES := hfew
        have hpackages : s.packageCount < MAX_ENTRIES := by
          rw [length_entries] at hfew
          unfold Registry.Startable Registry.room at hroom
          omega
        let t := s.closed.without ((s.found (orders 0)).take MAX_ENTRIES)
        have ht : cut (Registry.reopen (orders 0)) s.closed none = t := by
          rw [cut_reopen, if_neg hmany]
          rfl
        have hsub : (stagesOf ((s.found (orders 0)).take MAX_ENTRIES)).Subperm s.stages :=
          ((List.take_sublist _ _).filterMap _).subperm.trans (stagesOf_found s _).subperm
        have hfewer := length_diff_stages hsub
        have hsome := List.length_pos_of_ne_nil
          (exists_stage_found (orders 0) hpackages (Nat.lt_of_not_le hfew))
        have hstages : t.stages.length < count := by
          show (s.stages.diff _).length < count
          omega
        have hroom' : t.Startable := by
          show s.packageCount + min 1 t.stages.length ≤ MAX_ENTRIES
          omega
        obtain ⟨n, hopen⟩ := ih _ hstages t hroom' rfl fun k => orders (k + 1)
        rcases restarted_succ s orders n with hsame | hfirst
        · exact ⟨n + 1, by rw [hsame, ht]; exact hopen⟩
        · exact ⟨1, hfirst⟩

/-- What holds of the registry once it is open again holds of it after every sequence of starts
exactly when a start succeeds. -/
theorem reopened_iff {P : Registry → Prop} (s : Registry) :
    (∀ orders, ∃ n, (s.restarted orders n).opened = true ∧ P (s.restarted orders n)) ↔
      s.Startable ∧ P s.reopened := by
  rw [← opens_iff]
  constructor
  · refine fun h => ⟨fun orders => ?_, ?_⟩
    · obtain ⟨n, hopen, -⟩ := h orders
      exact ⟨n, hopen⟩
    · obtain ⟨n, hopen, hstate⟩ := h fun _ => []
      rwa [(restarted_frame s _ n).2.2.2 hopen] at hstate
  · rintro ⟨hopens, hstate⟩ orders
    obtain ⟨n, hopen⟩ := hopens orders
    refine ⟨n, hopen, ?_⟩
    rwa [(restarted_frame s orders n).2.2.2 hopen]

end Restarts

end Ficc.Modules
