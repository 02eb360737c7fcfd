import Ficc.Datasets.Safety

/-!
# What the events leave behind

The records of datasets only grow. `Later s t` says what every event respects: manifests, lineage
and objects stay; the revision of a policy never falls and its flags change with it; the latest run
of a policy is replaced by a new run only; and a run goes on and never back. So an ancestor looks
the same at two moments only if it looked so at every moment between them (`basis_between`).

`Quiet s t` is what the events respect that are neither a decision of the owner nor the end of a
successful inspection.
-/

namespace Ficc.Datasets

open Execution (Identity Digest)

variable {D : Type} {s t u : State D} {value : Manifest}

/-! ### Reading the store -/

namespace State

@[simp]
theorem policy_policySave (s : State D) (p : Policy D) (identity : Identity) :
    (s.policySave p).policy identity = if identity = p.id then p else s.policy identity := by
  unfold policy policySave
  rw [Table.lookup_insert_eq]
  by_cases h : identity = p.id <;> simp [h]

/-- The latest run of a dataset. -/
def latest (s : State D) (identity : Identity) : Option (Run D) :=
  (s.policy identity).latestRun.bind s.runs.lookup

theorem lookup_save {run : Run D} (run' : Run D) (h : s.runs.lookup run'.id = some run)
    (r : Identity) :
    (s.save run').runs.lookup r = if r = run'.id then some run' else s.runs.lookup r := by
  unfold save
  rw [Table.lookup_modify, h]
  rfl

theorem mem_edges {project child parent : Identity} :
    (child, parent) ∈ s.edges project ↔ s.Edge project child parent := by
  simp only [edges, Edge, List.mem_append, List.mem_flatMap, List.mem_map, List.mem_filter,
    decide_eq_true_eq, Prod.mk.injEq]
  constructor
  · rintro (h | ⟨a, ha, b, ⟨hb, hjoined⟩, hchild, hparent⟩)
    · exact .inl h
    · exact .inr ⟨a, ha, b, hb, hjoined, hchild, hparent⟩
  · rintro (h | ⟨a, ha, b, hb, hjoined, hchild, hparent⟩)
    · exact .inl h
    · exact .inr ⟨a, ha, b, ⟨hb, hjoined⟩, hchild, hparent⟩

/-- The ancestors of a dataset are the datasets of its project that are reached from it. -/
theorem mem_ancestors {a : Identity} :
    a ∈ s.ancestors value ↔
      (∃ manifest, s.datasets.lookup a = some manifest ∧ manifest.projectId = value.projectId) ∧
        Relation.ReflTransGen (s.Edge value.projectId) value.id a := by
  have hreached : a ∈ Graph.closure (s.edges value.projectId) value.id ↔
      Relation.ReflTransGen (s.Edge value.projectId) value.id a := by
    rw [Graph.mem_closure]
    simp only [mem_edges]
  rw [← hreached]
  simp only [ancestors, List.mem_insertionSort, List.mem_map, List.mem_filter, Table.mem_rows,
    decide_eq_true_eq]
  constructor
  · rintro ⟨⟨b, manifest⟩, ⟨hlookup, hmem, hproject⟩, rfl⟩
    exact ⟨⟨manifest, hlookup, hproject⟩, hmem⟩
  · rintro ⟨⟨manifest, hlookup, hproject⟩, hmem⟩
    exact ⟨(a, manifest), ⟨hlookup, hmem, hproject⟩, rfl⟩

theorem nodup_ancestors : (s.ancestors value).Nodup := by
  unfold ancestors
  rw [List.Perm.nodup_iff (List.perm_insertionSort _ _)]
  exact (List.filter_sublist.map Prod.fst).nodup (Table.nodup_map_fst_rows s.datasets)

theorem sorted_ancestors : (s.ancestors value).Pairwise (· ≤ ·) := by
  have : IsTrans Identity (· ≤ ·) := ⟨fun _ _ _ => BitVec.le_trans⟩
  have : Std.Total (α := Identity) (· ≤ ·) := ⟨BitVec.le_total⟩
  exact List.pairwise_insertionSort _ _

/-- The ancestors are listed by their ids, so the set of them decides the list. -/
theorem ancestors_eq (h : ∀ a, a ∈ s.ancestors value ↔ a ∈ t.ancestors value) :
    s.ancestors value = t.ancestors value := by
  have hperm := (List.perm_ext_iff_of_nodup nodup_ancestors nodup_ancestors).mpr h
  exact hperm.eq_of_pairwise (fun _ _ _ _ => BitVec.le_antisymm) sorted_ancestors sorted_ancestors

/-- What the basis of an exemption holds of an ancestor. -/
def entryOf (s : State D) (identity : Identity) : Entry :=
  entry (s.policy identity) (s.latest identity)

/-- What the digest of a basis covers, next to the configuration. -/
def basis (s : State D) (value : Manifest) : List Entry := (s.ancestors value).map s.entryOf

end State

/-! ### Invariant -/

/-- A run that was cancelled before it started. -/
def Run.Cancelled (run : Run D) (now : ℕ) : Prop :=
  run.state = .completed ∧ run.outcome = .incomplete ∧ ∃ at_ ≤ now, run.finishedAt = some at_

/-- A run that is not over has no outcome and no end. -/
def Run.Open (run : Run D) : Prop :=
  run.state ≠ .completed → run.outcome = .incomplete ∧ run.finishedAt = none

/-- The records fit together. -/
structure Sound (s : State D) : Prop where
  policyId : ∀ identity, (s.policy identity).id = identity
  latest : ∀ identity r, (s.policy identity).latestRun = some r → ∃ run, s.runs.lookup r = some run
  runs : ∀ r run, s.runs.lookup r = some run → run.id = r ∧ run.Open
  cancelled : ∀ r ∈ s.cancelled, ∃ run, s.runs.lookup r = some run ∧ run.Cancelled s.now

theorem Sound.empty : Sound (State.empty : State D) where
  policyId _ := rfl
  latest identity r h := by simp [State.policy, State.empty, Policy.default] at h
  runs r run h := by simp [State.empty] at h
  cancelled r h := by simp [State.empty] at h

theorem Sound.inspected (h : Sound s) (identity : Identity) :
    s.inspected identity = .ok (s.policy identity, s.latest identity) := by
  unfold State.inspected State.latest
  cases hlatest : (s.policy identity).latestRun with
  | none => rfl
  | some r =>
    obtain ⟨run, hrun⟩ := h.latest identity r hlatest
    simp [State.run, hrun, orRaise, Except.map]

theorem Sound.policySave (h : Sound s) {p : Policy D}
    (hlatest : ∀ r, p.latestRun = some r → ∃ run, s.runs.lookup r = some run) :
    Sound (s.policySave p) where
  policyId identity := by
    rw [State.policy_policySave]
    split
    next heq => exact heq.symm
    next => exact h.policyId identity
  latest identity r hr := by
    rw [State.policy_policySave] at hr
    split at hr
    next => exact hlatest r hr
    next => exact h.latest identity r hr
  runs := h.runs
  cancelled := h.cancelled

theorem Sound.save (h : Sound s) {run run' : Run D} (hlookup : s.runs.lookup run'.id = some run)
    (hopen : run'.Open) (hcancelled : run'.id ∈ s.cancelled → run'.Cancelled s.now) :
    Sound (s.save run') where
  policyId := h.policyId
  latest identity r hr := by
    rw [State.lookup_save run' hlookup]
    split
    next => exact ⟨run', rfl⟩
    next => exact h.latest identity r hr
  runs r found hfound := by
    rw [State.lookup_save run' hlookup] at hfound
    split at hfound
    next heq =>
      obtain rfl := Option.some.inj hfound
      exact ⟨heq.symm, hopen⟩
    next => exact h.runs r found hfound
  cancelled r hr := by
    rw [State.lookup_save run' hlookup]
    split
    next heq => exact ⟨run', rfl, hcancelled (heq ▸ hr)⟩
    next => exact h.cancelled r hr

/-! ### What every event respects -/

/-- What the basis holds of a run. -/
def Run.seen (run : Run D) : RunState × Outcome × Option ℕ :=
  (run.state, run.outcome, run.finishedAt)

/-- How far a run has come. -/
def progress : RunState × Outcome × Option ℕ → ℕ
  | (.queued, _, _) => 0
  | (.running, _, _) => 1
  | (.completed, _, none) => 2
  | (.completed, _, some at_) => at_ + 3

/-- A run has gone on. It looks the same only if it has come no further. -/
def Run.Onward (run run' : Run D) : Prop :=
  progress run.seen ≤ progress run'.seen ∧
    (progress run.seen = progress run'.seen → run.seen = run'.seen)

theorem Run.Onward.refl (run : Run D) : run.Onward run := ⟨le_rfl, fun _ => rfl⟩

theorem Run.Onward.trans {a b c : Run D} (hab : a.Onward b) (hbc : b.Onward c) : a.Onward c := by
  refine ⟨hab.1.trans hbc.1, fun heq => ?_⟩
  have hle := hab.1
  have hle' := hbc.1
  rw [hab.2 (by omega), hbc.2 (by omega)]

/-- A run that looks the same at the ends of a stretch looked so in the middle. -/
theorem Run.Onward.between {a b c : Run D} (hab : a.Onward b) (hbc : b.Onward c)
    (heq : a.seen = c.seen) : a.seen = b.seen := by
  have hle := hab.1
  have hle' := hbc.1
  have hends : progress a.seen = progress c.seen := by rw [heq]
  exact hab.2 (by omega)

/-- A policy of an existing dataset has gone on. -/
structure Policy.Onward (s : State D) (p p' : Policy D) : Prop where
  revision : p.revision ≤ p'.revision
  flags : p.revision = p'.revision → p.flags = p'.flags
  latest : p'.latestRun = p.latestRun ∨ ∃ r, p'.latestRun = some r ∧ s.runs.lookup r = none

theorem Policy.Onward.refl (s : State D) (p : Policy D) : Policy.Onward s p p :=
  ⟨le_rfl, fun _ => rfl, .inl rfl⟩

/-- The records of one moment, seen from a later one. -/
structure Later (s t : State D) : Prop where
  datasets : ∀ identity manifest, s.datasets.lookup identity = some manifest →
    t.datasets.lookup identity = some manifest
  lineage : ∀ pair ∈ s.lineage, pair ∈ t.lineage
  objects : ∀ object ∈ s.objects, object ∈ t.objects
  policy : ∀ identity manifest, s.datasets.lookup identity = some manifest →
    Policy.Onward s (s.policy identity) (t.policy identity)
  runs : ∀ r run, s.runs.lookup r = some run →
    ∃ run', t.runs.lookup r = some run' ∧ run.Onward run'

theorem Later.refl (s : State D) : Later s s where
  datasets _ _ h := h
  lineage _ h := h
  objects _ h := h
  policy _ _ _ := .refl s _
  runs _ run h := ⟨run, h, .refl run⟩

theorem Later.trans (hst : Later s t) (htu : Later t u) : Later s u where
  datasets identity manifest h := htu.datasets _ _ (hst.datasets identity manifest h)
  lineage pair h := htu.lineage pair (hst.lineage pair h)
  objects object h := htu.objects object (hst.objects object h)
  policy identity manifest h := by
    have hfirst := hst.policy identity manifest h
    have hsecond := htu.policy identity manifest (hst.datasets identity manifest h)
    have hle := hfirst.revision
    have hle' := hsecond.revision
    refine ⟨hle.trans hle', fun heq => ?_, ?_⟩
    · rw [hfirst.flags (by omega), hsecond.flags (by omega)]
    · obtain hlatest | ⟨r, hr, hnew⟩ := hsecond.latest
      · rw [hlatest]
        exact hfirst.latest
      · -- A run that is new later was new before.
        refine .inr ⟨r, hr, ?_⟩
        cases hrun : s.runs.lookup r with
        | none => rfl
        | some run =>
          obtain ⟨run', hrun', -⟩ := hst.runs r run hrun
          rw [hnew] at hrun'
          cases hrun'
  runs r run h := by
    obtain ⟨run', hrun', honward⟩ := hst.runs r run h
    obtain ⟨run'', hrun'', honward'⟩ := htu.runs r run' hrun'
    exact ⟨run'', hrun'', honward.trans honward'⟩

theorem Later.save {run run' : Run D} (hlookup : s.runs.lookup run'.id = some run)
    (honward : run.Onward run') : Later s (s.save run') where
  datasets _ _ h := h
  lineage _ h := h
  objects _ h := h
  policy _ _ _ := .refl s _
  runs r found hfound := by
    rw [State.lookup_save run' hlookup]
    split
    next heq =>
      rw [heq, hlookup] at hfound
      obtain rfl := Option.some.inj hfound
      exact ⟨run', rfl, honward⟩
    next => exact ⟨found, hfound, .refl found⟩

theorem Later.policySave {p : Policy D} (hp : Policy.Onward s (s.policy p.id) p) :
    Later s (s.policySave p) where
  datasets _ _ h := h
  lineage _ h := h
  objects _ h := h
  policy identity _ _ := by
    rw [State.policy_policySave]
    split
    next heq => exact heq ▸ hp
    next => exact .refl s _
  runs _ run h := ⟨run, h, .refl run⟩

theorem Later.edge (h : Later s t) {project child parent : Identity}
    (hedge : s.Edge project child parent) : t.Edge project child parent := by
  obtain hedge | ⟨a, ha, b, hb, hjoined⟩ := hedge
  · exact .inl (h.lineage _ hedge)
  · exact .inr ⟨a, h.objects a ha, b, h.objects b hb, hjoined⟩

/-- Ancestors stay ancestors. -/
theorem Later.mem_ancestors (h : Later s t) {a : Identity} (ha : a ∈ s.ancestors value) :
    a ∈ t.ancestors value := by
  rw [State.mem_ancestors] at ha ⊢
  obtain ⟨⟨manifest, hlookup, hproject⟩, hreached⟩ := ha
  exact ⟨⟨manifest, h.datasets a manifest hlookup, hproject⟩,
    Relation.ReflTransGen.mono (fun _ _ hedge => h.edge hedge) _ _ hreached⟩

/-! ### Two moments with one basis -/

theorem Sound.map_id_basis (h : Sound s) (value : Manifest) :
    (s.basis value).map Entry.id = s.ancestors value := by
  unfold State.basis
  rw [List.map_map]
  have hid : ∀ a, (Entry.id ∘ s.entryOf) a = id a := fun a => h.policyId a
  rw [List.map_congr_left fun a _ => hid a, List.map_id]

/-- The latest run of an ancestor that is the same at the ends was the same in the middle. -/
theorem latestRun_between (hs : Sound s) (hst : Later s t) (htu : Later t u)
    {identity : Identity} {manifest : Manifest}
    (hdataset : s.datasets.lookup identity = some manifest)
    (heq : (s.policy identity).latestRun = (u.policy identity).latestRun) :
    (t.policy identity).latestRun = (s.policy identity).latestRun := by
  obtain hsame | ⟨r, hr, hnew⟩ := (hst.policy identity manifest hdataset).latest
  · exact hsame
  · -- A new run in the middle would still be new to the beginning at the end.
    exfalso
    have hdataset' := hst.datasets identity manifest hdataset
    obtain hsame | ⟨r', hr', hnew'⟩ := (htu.policy identity manifest hdataset').latest
    · rw [hr, ← heq] at hsame
      obtain ⟨run, hrun⟩ := hs.latest identity r hsame
      rw [hnew] at hrun
      cases hrun
    · rw [hr'] at heq
      obtain ⟨run, hrun⟩ := hs.latest identity r' heq
      obtain ⟨run', hrun', -⟩ := hst.runs r' run hrun
      rw [hnew'] at hrun'
      cases hrun'

/-- What is decided about a dataset is the same at two moments. -/
def SameControls (s t : State D) (identity : Identity) : Prop :=
  (s.policy identity).flags = (t.policy identity).flags ∧
    (s.policy identity).revision = (t.policy identity).revision ∧
    (s.policy identity).latestRun = (t.policy identity).latestRun

/-- An ancestor that looks the same at the ends of a stretch looked so in the middle. -/
theorem entryOf_between (hs : Sound s) (hst : Later s t) (htu : Later t u) (ht : Sound t)
    {identity : Identity} {manifest : Manifest}
    (hdataset : s.datasets.lookup identity = some manifest)
    (heq : s.entryOf identity = u.entryOf identity) :
    t.entryOf identity = s.entryOf identity ∧ SameControls t s identity := by
  simp only [State.entryOf, entry, Entry.mk.injEq] at heq
  obtain ⟨-, hrevision, hlatest, hrun⟩ := heq
  have hfirst := hst.policy identity manifest hdataset
  have hsecond := htu.policy identity manifest (hst.datasets identity manifest hdataset)
  have hle := hfirst.revision
  have hle' := hsecond.revision
  have hrevision' : (t.policy identity).revision = (s.policy identity).revision := by omega
  have hlatest' := latestRun_between hs hst htu hdataset hlatest
  refine ⟨?_, (hfirst.flags hrevision'.symm).symm, hrevision', hlatest'⟩
  simp only [State.entryOf, entry, Entry.mk.injEq]
  refine ⟨by rw [hs.policyId, ht.policyId], hrevision', hlatest', ?_⟩
  unfold State.latest at hrun ⊢
  rw [hlatest']
  rw [← hlatest] at hrun
  cases hcase : (s.policy identity).latestRun with
  | none => rfl
  | some r =>
    obtain ⟨run, hlookup⟩ := hs.latest identity r hcase
    obtain ⟨run', hlookup', honward⟩ := hst.runs r run hlookup
    obtain ⟨run'', hlookup'', honward'⟩ := htu.runs r run' hlookup'
    simp only [hcase, Option.bind_some, hlookup, hlookup', hlookup'', Option.map_some,
      Option.some.injEq] at hrun ⊢
    exact (honward.between honward' hrun).symm

/-- A basis that is the same at the ends of a stretch was the same in the middle, and with it the
ancestors and what is decided about them. -/
theorem basis_between (hs : Sound s) (ht : Sound t) (hu : Sound u) (hst : Later s t)
    (htu : Later t u) (heq : s.basis value = u.basis value) :
    t.basis value = s.basis value ∧ t.ancestors value = s.ancestors value ∧
      ∀ a ∈ s.ancestors value, SameControls t s a := by
  have hends : s.ancestors value = u.ancestors value := by
    rw [← hs.map_id_basis, heq, hu.map_id_basis]
  have hmiddle : t.ancestors value = s.ancestors value := by
    refine State.ancestors_eq fun a => ⟨fun ha => ?_, hst.mem_ancestors⟩
    rw [hends]
    exact htu.mem_ancestors ha
  have hentry : ∀ a ∈ s.ancestors value,
      t.entryOf a = s.entryOf a ∧ SameControls t s a := by
    intro a ha
    obtain ⟨⟨manifest, hdataset, -⟩, -⟩ := State.mem_ancestors.mp ha
    unfold State.basis at heq
    rw [← hends] at heq
    exact entryOf_between hs hst htu ht hdataset (List.map_inj_left.mp heq a ha)
  refine ⟨?_, hmiddle, fun a ha => (hentry a ha).2⟩
  unfold State.basis
  rw [hmiddle]
  exact List.map_congr_left fun a ha => (hentry a ha).1

end Ficc.Datasets
