import Ficc.Datasets.History

/-!
# Events

Every event keeps the records sound and takes them on (`Sound.advances_step`). An event that decides
nothing is quiet (`Sound.quiet_step`), and an exemption is written by a request for one alone, with
the digest of the basis that it leaves (`Sound.exemption_step`).
-/

namespace Ficc.Datasets

open Execution (Identity Digest)

variable {D : Type} {s s' t : State D} {value : Manifest}

/-! ### Events that decide nothing -/

/-- What the events respect that decide nothing. -/
structure Quiet (s t : State D) : Prop where
  config : t.config = s.config
  approval : t.approval = s.approval
  now : s.now ≤ t.now
  flags : ∀ identity manifest, s.datasets.lookup identity = some manifest →
    ((s.policy identity).quarantined = true → (t.policy identity).quarantined = true) ∧
      ((s.policy identity).inspectionRequired = true →
        (t.policy identity).inspectionRequired = true)
  exemption : ∀ identity, (t.policy identity).exemption = (s.policy identity).exemption ∨
    (t.policy identity).exemption = none
  /-- No run has become a successful one. -/
  clean : ∀ r run, t.runs.lookup r = some run → run.outcome = .noDetection →
    s.runs.lookup r = some run

theorem Quiet.refl (s : State D) : Quiet s s where
  config := rfl
  approval := rfl
  now := le_rfl
  flags _ _ _ := ⟨id, id⟩
  exemption _ := .inl rfl
  clean _ _ h _ := h

theorem Quiet.trans {u : State D} (hlater : Later s t) (hst : Quiet s t) (htu : Quiet t u) :
    Quiet s u where
  config := htu.config.trans hst.config
  approval := htu.approval.trans hst.approval
  now := hst.now.trans htu.now
  flags identity manifest h := by
    obtain ⟨hq, hr⟩ := hst.flags identity manifest h
    obtain ⟨hq', hr'⟩ := htu.flags identity manifest (hlater.datasets identity manifest h)
    exact ⟨hq' ∘ hq, hr' ∘ hr⟩
  exemption identity := by
    obtain hsame | hnone := htu.exemption identity
    · rw [hsame]
      exact hst.exemption identity
    · exact .inr hnone
  clean r run h hclean := hst.clean r run (htu.clean r run h hclean) hclean

theorem Quiet.save {run : Run D} (run' : Run D) (hlookup : s.runs.lookup run'.id = some run)
    (hdirty : run'.outcome ≠ .noDetection) : Quiet s (s.save run') where
  config := rfl
  approval := rfl
  now := le_rfl
  flags _ _ _ := ⟨id, id⟩
  exemption _ := .inl rfl
  clean r found hfound hclean := by
    rw [State.lookup_save run' hlookup] at hfound
    split at hfound
    next =>
      obtain rfl := Option.some.inj hfound
      exact absurd hclean hdirty
    next => exact hfound

/-! ### One event -/

/-- An event that raises nothing keeps the records together and takes them on. -/
structure Advances (s s' : State D) : Prop where
  sound : Sound s'
  later : Later s s'

theorem Advances.trans {s'' : State D} (h : Advances s s') (h' : Advances s' s'') :
    Advances s s'' := ⟨h'.sound, h.later.trans h'.later⟩

/-- The tasks in memory are no part of the records. -/
theorem Advances.tasks (h : Advances s s') (tasks : List Identity) :
    Advances s { s' with tasks := tasks } where
  sound := ⟨h.sound.policyId, h.sound.latest, h.sound.runs, h.sound.cancelled⟩
  later := ⟨h.later.datasets, h.later.lineage, h.later.objects, h.later.policy, h.later.runs⟩

variable {identity : Identity} {principal : Principal}

theorem State.run_eq_ok {run : Run D} (h : s.run identity = .ok run) :
    s.runs.lookup identity = some run := by
  simpa [State.run] using h

theorem Sound.advances_tick (h : Sound s) (seconds : ℕ) :
    Advances s { s with now := s.now + seconds } where
  sound := {
    policyId := h.policyId
    latest := h.latest
    runs := h.runs
    cancelled := fun r hr => by
      obtain ⟨run, hrun, hstate, houtcome, at_, hle, hat⟩ := h.cancelled r hr
      exact ⟨run, hrun, hstate, houtcome, at_, by show at_ ≤ s.now + seconds; omega, hat⟩ }
  later := ⟨(Later.refl s).datasets, (Later.refl s).lineage, (Later.refl s).objects,
    (Later.refl s).policy, (Later.refl s).runs⟩

theorem Quiet.tick (s : State D) (seconds : ℕ) : Quiet s { s with now := s.now + seconds } where
  config := rfl
  approval := rfl
  now := Nat.le_add_right s.now seconds
  flags _ _ _ := ⟨id, id⟩
  exemption _ := .inl rfl
  clean _ _ h _ := h

/-- A run that was not cancelled before it started is saved. -/
theorem Sound.advances_save (h : Sound s) {run : Run D} (run' : Run D)
    (hlookup : s.runs.lookup run'.id = some run) (hrun : run.state ≠ .completed)
    (hopen : run'.Open) (honward : run.Onward run') : Advances s (s.save run') where
  sound := by
    refine h.save hlookup hopen fun hmem => ?_
    obtain ⟨found, hfound, hstate, -⟩ := h.cancelled _ hmem
    rw [hlookup] at hfound
    obtain rfl := Option.some.inj hfound
    exact absurd hstate hrun
  later := .save hlookup honward

/-- A new revision of a policy is saved. -/
theorem Sound.advances_policySave (h : Sound s) {p : Policy D}
    (hrevision : p.revision = (s.policy p.id).revision + 1)
    (hlatest : p.latestRun = (s.policy p.id).latestRun) : Advances s (s.policySave p) where
  sound := h.policySave fun r hr => h.latest p.id r (hlatest ▸ hr)
  later := .policySave ⟨by omega, fun heq => by omega, .inl hlatest⟩

/-- A started inspection clears nothing. -/
theorem Sound.advances_start (h : Sound s) (hstart : s.start identity = .ok s') :
    Advances s s' ∧ Quiet s s' := by
  simp only [State.start, bind_eq_ok, raiseIf_eq_ok, Except.ok.injEq, pure, Except.pure] at hstart
  obtain ⟨run, hrun, -, hguard, rfl⟩ := hstart
  have hlookup := State.run_eq_ok hrun
  obtain ⟨hid, hopen⟩ := h.runs identity run hlookup
  have hqueued : run.state = .queued := by
    by_contra hne
    exact hguard (.inr hne)
  obtain ⟨houtcome, hfinished⟩ := hopen (by rw [hqueued]; decide)
  have hlookup' : s.runs.lookup run.id = some run := hid ▸ hlookup
  constructor
  · refine h.advances_save { run with state := .running } hlookup' ?_ ?_ ?_
    · rw [hqueued]
      decide
    · exact fun _ => ⟨houtcome, hfinished⟩
    · simp [Run.Onward, Run.seen, hqueued, progress]
  · refine .save { run with state := .running } hlookup' ?_
    rw [houtcome]
    decide

/-- A quarantine only adds a hold. -/
theorem Sound.advances_quarantine (h : Sound s) (identity : Identity) :
    Advances s (s.quarantine identity) := by
  have hid := h.policyId identity
  refine h.advances_policySave ?_ ?_
  · show _ = (s.policy (s.policy identity).id).revision + 1
    rw [hid]
  · show _ = (s.policy (s.policy identity).id).latestRun
    rw [hid]

theorem Sound.quiet_quarantine (h : Sound s) (identity : Identity) :
    Quiet s (s.quarantine identity) where
  config := rfl
  approval := rfl
  now := le_rfl
  flags other _ _ := by
    unfold State.quarantine
    rw [State.policy_policySave]
    split
    next heq =>
      have hother : other = identity := heq.trans (h.policyId identity)
      rw [hother]
      exact ⟨fun _ => rfl, id⟩
    next => exact ⟨id, id⟩
  exemption other := by
    unfold State.quarantine
    rw [State.policy_policySave]
    split
    next => exact .inr rfl
    next => exact .inl rfl
  clean _ _ h _ := h

/-- A scanned file clears nothing. -/
theorem Sound.advances_scanned (h : Sound s) {outcome : Outcome}
    (hscanned : s.scanned identity outcome = .ok s') : Advances s s' ∧ Quiet s s' := by
  simp only [State.scanned, bind_eq_ok, raiseIf_eq_ok, Except.ok.injEq, pure, Except.pure]
    at hscanned
  obtain ⟨run, hrun, -, hguard, rfl⟩ := hscanned
  have hlookup := State.run_eq_ok hrun
  obtain ⟨hid, hopen⟩ := h.runs identity run hlookup
  have hrunning : run.state = .running := by
    by_contra hne
    exact hguard (.inr (.inl hne))
  have hnot : run.state ≠ .completed := by
    rw [hrunning]
    decide
  obtain ⟨houtcome, hfinished⟩ := hopen hnot
  have hlookup' : s.runs.lookup run.id = some run := hid ▸ hlookup
  -- The receipt is saved first, and a detection changes the policy in the same transaction.
  have hsaved : Advances s (s.save { run with files := run.files ++ [outcome] }) :=
    h.advances_save _ hlookup' hnot hopen (.refl run)
  have hquiet : Quiet s (s.save { run with files := run.files ++ [outcome] }) := by
    refine .save _ hlookup' ?_
    rw [houtcome]
    decide
  by_cases hdetected : outcome = .detected
  · rw [if_pos hdetected]
    exact ⟨hsaved.trans (hsaved.sound.advances_quarantine run.datasetId),
      .trans hsaved.later hquiet (hsaved.sound.quiet_quarantine run.datasetId)⟩
  · rw [if_neg hdetected]
    exact ⟨hsaved, hquiet⟩

/-- A run that is closed has gone on. -/
theorem Run.onward_close {run : Run D} (hrun : run.state ≠ .completed) (outcome : Outcome)
    (finishedAt : Option ℕ) :
    run.Onward (run.close outcome finishedAt) := by
  have hbefore : progress run.seen < 2 := by
    cases hstate : run.state with
    | queued => simp [Run.seen, progress, hstate]
    | running => simp [Run.seen, progress, hstate]
    | completed => exact absurd hstate hrun
  have hafter : 2 ≤ progress (.completed, outcome, finishedAt) := by
    cases finishedAt with
    | none => exact le_rfl
    | some at_ => exact Nat.le_add_left 2 (at_ + 1)
  constructor
  · exact hbefore.le.trans hafter
  · intro heq
    exact absurd heq (hbefore.trans_le hafter).ne

theorem Quiet.tasks (h : Quiet s s') (tasks cancelled : List Identity) :
    Quiet s { s' with tasks := tasks, cancelled := cancelled } :=
  ⟨h.config, h.approval, h.now, h.flags, h.exemption, h.clean⟩

/-- Only the outcome of a finished run can clear. -/
theorem Sound.advances_finish (h : Sound s) {cause : Option Cause}
    (hfinish : s.finish identity cause = .ok s') :
    Advances s s' ∧ ∃ run, s.runs.lookup identity = some run ∧
      (State.outcomeAtEnd run.files cause ≠ .noDetection → Quiet s s') := by
  simp only [State.finish, bind_eq_ok, raiseIf_eq_ok, Except.ok.injEq, pure, Except.pure]
    at hfinish
  obtain ⟨run, hrun, -, hguard, -, -, rfl⟩ := hfinish
  have hlookup := State.run_eq_ok hrun
  obtain ⟨hid, hopen⟩ := h.runs identity run hlookup
  have hnot : run.state ≠ .completed := by
    intro hcompleted
    refine hguard (.inr ?_)
    rw [hcompleted]
    decide
  have hlookup' : s.runs.lookup run.id = some run := hid ▸ hlookup
  let closed := run.close (State.outcomeAtEnd run.files cause) (some s.now)
  refine ⟨(h.advances_save closed hlookup' hnot ?_ (Run.onward_close hnot _ _)).tasks _, run,
    hlookup, fun hdirty => (Quiet.save closed hlookup' hdirty).tasks _ _⟩
  exact fun hne => absurd rfl hne

/-- A cancelled run clears nothing. -/
theorem Sound.advances_cancel (h : Sound s) (hcancel : s.cancel identity = .ok s') :
    Advances s s' ∧ Quiet s s' := by
  simp only [State.cancel, bind_eq_ok, raiseIf_eq_ok, Except.ok.injEq, pure, Except.pure]
    at hcancel
  obtain ⟨run, hrun, -, hguard, rfl⟩ := hcancel
  have hlookup := State.run_eq_ok hrun
  obtain ⟨hid, -⟩ := h.runs identity run hlookup
  have hlookup' : s.runs.lookup run.id = some run := hid ▸ hlookup
  -- The run is queued, or another call has closed it at a time that has passed.
  let closed := run.close .incomplete (some s.now)
  have honward : run.Onward closed := by
    by_cases hmem : identity ∈ s.cancelled
    · obtain ⟨found, hfound, hstate, houtcome, at_, hle, hat⟩ := h.cancelled identity hmem
      rw [hlookup] at hfound
      obtain rfl := Option.some.inj hfound
      simp only [closed, Run.Onward, Run.seen, Run.close, hstate, houtcome, hat, progress]
      refine ⟨by omega, fun heq => ?_⟩
      have hnow : at_ = s.now := by omega
      rw [hnow]
    · have hqueued : run.state = .queued := by
        by_contra hne
        exact hguard ⟨fun hboth => hne hboth.2, hmem⟩
      refine Run.onward_close ?_ _ _
      rw [hqueued]
      decide
  have hclosed : closed.Cancelled s.now := ⟨rfl, rfl, s.now, le_rfl, rfl⟩
  refine ⟨⟨?_, ?_⟩, (Quiet.save closed hlookup' ?_).tasks _ _⟩
  · have hsound : Sound (s.save closed) :=
      h.save hlookup' (fun hne => absurd rfl hne) fun _ => hclosed
    refine ⟨hsound.policyId, hsound.latest, hsound.runs, fun r hr => ?_⟩
    obtain rfl | hr := List.mem_cons.mp hr
    · exact ⟨closed, (State.lookup_save closed hlookup' r).trans (if_pos hid.symm), hclosed⟩
    · exact hsound.cancelled r hr
  · have hlater : Later s (s.save closed) := .save hlookup' honward
    exact ⟨hlater.datasets, hlater.lineage, hlater.objects, hlater.policy, hlater.runs⟩
  · show Outcome.incomplete ≠ .noDetection
    decide

/-- Nor does recovery. -/
theorem Sound.advances_recover (h : Sound s) : Advances s s.recover ∧ Quiet s s.recover := by
  have hlookup (r : Identity) : s.recover.runs.lookup r = (s.runs.lookup r).map fun run =>
      if run.state = .completed then run else run.close .incomplete run.finishedAt :=
    Table.lookup_mapRows _ _ r
  refine ⟨⟨⟨h.policyId, fun identity r hr => ?_, fun r found hfound => ?_, fun r hr => ?_⟩,
    ⟨fun _ _ h => h, fun _ h => h, fun _ h => h, fun _ _ _ => .refl s _, fun r run hrun => ?_⟩⟩,
    ⟨rfl, rfl, le_rfl, fun _ _ _ => ⟨id, id⟩, fun _ => .inl rfl,
      fun r found hfound hclean => ?_⟩⟩
  · obtain ⟨run, hrun⟩ := h.latest identity r hr
    exact ⟨_, by rw [hlookup, hrun, Option.map_some]⟩
  · rw [hlookup, Option.map_eq_some_iff] at hfound
    obtain ⟨run, hrun, rfl⟩ := hfound
    obtain ⟨hid, hopen⟩ := h.runs r run hrun
    split
    next => exact ⟨hid, hopen⟩
    next => exact ⟨hid, fun hne => absurd rfl hne⟩
  · cases hr
  · refine ⟨_, by rw [hlookup, hrun, Option.map_some], ?_⟩
    split
    next => exact .refl run
    next hne => exact Run.onward_close hne _ _
  · rw [hlookup, Option.map_eq_some_iff] at hfound
    obtain ⟨run, hrun, rfl⟩ := hfound
    split at hclean
    next hcompleted => rw [if_pos hcompleted, hrun]
    next => cases hclean

theorem State.get_eq_ok (h : s.get identity principal = .ok value) :
    s.datasets.lookup identity = some value := by
  simp only [State.get, bind_eq_ok, orRaise_eq_ok, raiseIf_eq_ok, pure, Except.pure,
    Except.ok.injEq] at h
  obtain ⟨found, hfound, -, -, rfl⟩ := h
  exact hfound

/-- A change of the policy moves forward. -/
theorem Sound.advances_update (h : Sound s) {body : SafetyChange}
    (hupdate : s.update principal identity body = .ok s') :
    Advances s s' := by
  simp only [State.update, bind_eq_ok, raiseIf_eq_ok, pure, Except.pure, Except.ok.injEq]
    at hupdate
  obtain ⟨-, -, -, -, rfl⟩ := hupdate
  have hid := h.policyId identity
  refine h.advances_policySave ?_ ?_
  · show _ = (s.policy (s.policy identity).id).revision + 1
    rw [hid]
  · show _ = (s.policy (s.policy identity).id).latestRun
    rw [hid]

theorem Sound.advances_configure (h : Sound s) {config : InspectionConfig}
    {installed : Option Installed} (hconfigure : s.configure config installed = .ok s') :
    Advances s s' := by
  simp only [State.configure, bind_eq_ok, raiseIf_eq_ok, pure, Except.pure, Except.ok.injEq]
    at hconfigure
  obtain ⟨-, -, -, -, rfl⟩ := hconfigure
  have hlater := Later.refl s
  exact ⟨⟨h.policyId, h.latest, h.runs, h.cancelled⟩,
    ⟨hlater.datasets, hlater.lineage, hlater.objects, hlater.policy, hlater.runs⟩⟩

/-- The policies after a dataset is registered. -/
theorem State.policy_register (h : Sound s) (value : Manifest) (sources : List Source)
    (identity : Identity) (hne : identity ≠ value.id) :
    (register { s with datasets := s.datasets.insert value.id value } value sources).policy
      identity = s.policy identity := by
  unfold State.register
  rw [State.policy_policySave, if_neg]
  · rfl
  · intro heq
    exact hne (heq.trans (h.policyId value.id))

theorem Sound.advances_create (h : Sound s) {sources : List Source}
    (hcreate : s.create principal value sources = .ok s') : Advances s s' ∧ Quiet s s' := by
  simp only [State.create, bind_eq_ok, raiseIf_eq_ok, pure, Except.pure] at hcreate
  obtain ⟨-, -, hcreate⟩ := hcreate
  split at hcreate
  · obtain rfl := Except.ok.inj hcreate
    exact ⟨⟨h, .refl s⟩, .refl s⟩
  · simp only [bind_eq_ok, raiseIf_eq_ok, Except.ok.injEq, not_not] at hcreate
    obtain ⟨-, -, -, hfresh, rfl⟩ := hcreate
    -- A dataset that is there is another one than the new one.
    have hother {identity : Identity} {manifest : Manifest}
        (hlookup : s.datasets.lookup identity = some manifest) : identity ≠ value.id := by
      rintro rfl
      rw [hfresh] at hlookup
      cases hlookup
    have hpolicy {identity : Identity} {manifest : Manifest}
        (hlookup : s.datasets.lookup identity = some manifest) :=
      State.policy_register h value sources identity (hother hlookup)
    refine ⟨⟨?_, ⟨?_, ?_, ?_, ?_, ?_⟩⟩, rfl, rfl, le_rfl, ?_, ?_, fun _ _ h _ => h⟩
    · unfold State.register
      have hindexed : Sound ((State.index { s with
          datasets := s.datasets.insert value.id value } value sources)) :=
        ⟨h.policyId, h.latest, h.runs, h.cancelled⟩
      exact hindexed.policySave fun r hr => h.latest value.id r hr
    · intro identity manifest hlookup
      refine (Table.lookup_insert_eq s.datasets value.id identity value).trans ?_
      rw [if_neg (hother hlookup), hlookup]
    · exact fun pair hpair => List.mem_union_iff.mpr (.inl hpair)
    · exact fun object hobject => List.mem_union_iff.mpr (.inl hobject)
    · intro identity manifest hlookup
      rw [hpolicy hlookup]
      exact .refl s _
    · exact fun r run hrun => ⟨run, hrun, .refl run⟩
    · intro identity manifest hlookup
      rw [hpolicy hlookup]
      exact ⟨id, id⟩
    · intro identity
      unfold State.register
      rw [State.policy_policySave]
      split
      next heq =>
        rw [heq.trans (h.policyId value.id)]
        exact .inl rfl
      next => exact .inl rfl

theorem Sound.advances_enqueue (h : Sound s) (run : Run D) (hfresh : s.runs.lookup run.id = none)
    (houtcome : run.outcome = .incomplete) (hfinished : run.finishedAt = none)
    (identity : Identity) :
    Advances s ((s.enqueue run).bind identity run.id) ∧
      Quiet s ((s.enqueue run).bind identity run.id) := by
  have hlookup (r : Identity) : ((s.enqueue run).bind identity run.id).runs.lookup r =
      if r = run.id then some run else s.runs.lookup r :=
    Table.lookup_insert_eq s.runs run.id r run
  have hold {r : Identity} {found : Run D} (hfound : s.runs.lookup r = some found) :
      ((s.enqueue run).bind identity run.id).runs.lookup r = some found := by
    rw [hlookup, if_neg, hfound]
    rintro rfl
    rw [hfresh] at hfound
    cases hfound
  have hpolicy (other : Identity) : ((s.enqueue run).bind identity run.id).policy other =
      if other = identity then { s.policy identity with latestRun := some run.id }
      else s.policy other := by
    have hid : ((s.enqueue run).policy identity).id = identity := h.policyId identity
    unfold State.bind
    rw [State.policy_policySave, hid]
    rfl
  refine ⟨⟨⟨fun other => ?_, fun other r hr => ?_, fun r found hfound => ?_, fun r hr => ?_⟩,
    fun _ _ h => h, fun _ h => h, fun _ h => h, fun other manifest _ => ?_,
      fun r found hfound => ⟨found, hold hfound, .refl found⟩⟩,
    rfl, rfl, le_rfl, fun other manifest _ => ?_, fun other => ?_,
      fun r found hfound hclean => ?_⟩
  · rw [hpolicy]
    split
    next heq => exact (h.policyId identity).trans heq.symm
    next => exact h.policyId other
  · rw [hpolicy] at hr
    split at hr
    next =>
      obtain rfl := Option.some.inj hr
      exact ⟨run, by rw [hlookup, if_pos rfl]⟩
    next =>
      obtain ⟨found, hfound⟩ := h.latest other r hr
      exact ⟨found, hold hfound⟩
  · rw [hlookup] at hfound
    split at hfound
    next heq =>
      obtain rfl := Option.some.inj hfound
      exact ⟨heq.symm, fun _ => ⟨houtcome, hfinished⟩⟩
    next => exact h.runs r found hfound
  · obtain ⟨found, hfound, hcancelled⟩ := h.cancelled r hr
    exact ⟨found, hold hfound, hcancelled⟩
  · -- The new run is new to the policy.
    rw [hpolicy]
    split
    next heq =>
      rw [heq]
      exact ⟨le_rfl, fun _ => rfl, .inr ⟨run.id, rfl, hfresh⟩⟩
    next => exact .refl s _
  · rw [hpolicy]
    split
    next heq =>
      rw [heq]
      exact ⟨id, id⟩
    next => exact ⟨id, id⟩
  · rw [hpolicy]
    split
    next heq =>
      rw [heq]
      exact .inl rfl
    next => exact .inl rfl
  · rw [hlookup] at hfound
    split at hfound
    next =>
      obtain rfl := Option.some.inj hfound
      rw [houtcome] at hclean
      cases hclean
    next => exact hfound

section Hashing

variable [DecidableEq D] [Sha256 D]

variable {identity : Identity} {principal : Principal} {event : Event}

theorem Sound.advances_submit (h : Sound s) {drawn : Identity} {key : String}
    (hsubmit : s.submit principal identity key drawn = .ok s') :
    Advances s s' ∧ Quiet s s' := by
  simp only [State.submit, bind_eq_ok] at hsubmit
  obtain ⟨dataset, -, hsubmit⟩ := hsubmit
  split at hsubmit
  next =>
    simp only [bind_eq_ok, raiseIf_eq_ok, pure, Except.pure, Except.ok.injEq] at hsubmit
    obtain ⟨-, -, rfl⟩ := hsubmit
    exact ⟨⟨h, .refl s⟩, .refl s⟩
  next =>
    simp only [bind_eq_ok, raiseIf_eq_ok, pure, Except.pure, Except.ok.injEq, not_not] at hsubmit
    obtain ⟨-, -, -, hfresh, rfl⟩ := hsubmit
    exact h.advances_enqueue _ hfresh rfl rfl identity

/-! ### The judgement of sound records -/

/-- The judgement, where every latest run is there. -/
def judged (s : State D) (scanner : Scanner) (value : Manifest) : Effective D :=
  judge s scanner value ((s.ancestors value).map fun a => (s.policy a, s.latest a))
    (s.policy value.id, s.latest value.id)

/-- The judgement of a known dataset never fails. -/
theorem Sound.effective_eq (h : Sound s) (scanner : Scanner) (value : Manifest) :
    effective s scanner value = .ok (judged s scanner value) := by
  have hinspected : s.inspected = fun a => pure (s.policy a, s.latest a) := funext h.inspected
  unfold effective judged
  rw [hinspected, List.mapM_pure]
  rfl

/-- The digest of the present basis. -/
def basisDigest (s : State D) (value : Manifest) : D :=
  sha256 (.basis s.config (s.basis value))

@[simp]
theorem judged_basisDigest (s : State D) (scanner : Scanner) (value : Manifest) :
    (judged s scanner value).basisDigest = basisDigest s value := by
  simp only [judged, judge, basisDigest, State.basis, List.map_map]
  rfl

@[simp]
theorem judged_exempt (s : State D) (scanner : Scanner) (value : Manifest) :
    (judged s scanner value).exempt =
      honoured (s.policy value.id).exemption (basisDigest s value) s.now := by
  simp only [judged, judge, basisDigest, State.basis, List.map_map]
  rfl

/-- A dataset is held when it has a reason to be blocked. -/
def Held (s : State D) (scanner : Scanner) (value : Manifest) : Prop :=
  (∃ a ∈ s.ancestors value, (s.policy a).quarantined = true) ∨
    (∃ a ∈ s.ancestors value, (s.policy a).inspectionRequired = true) ∧
      (successful s scanner (s.latest value.id) = false ∨
        ∃ a ∈ s.ancestors value, (s.policy a).inspectionRequired = true ∧
          successful s scanner (s.latest a) = false)

theorem isSome_reason {quarantined missing : Bool} :
    (reason quarantined missing).isSome = (quarantined || missing) := by
  cases quarantined <;> cases missing <;> rfl

/-- What is held is blocked unless it is exempt. -/
theorem judged_blocked (s : State D) (scanner : Scanner) (value : Manifest) :
    (judged s scanner value).blocked = true ↔
      Held s scanner value ∧
        honoured (s.policy value.id).exemption (basisDigest s value) s.now = false := by
  have hblocked : (judged s scanner value).blocked =
      ((judged s scanner value).reason.isSome && !(judged s scanner value).exempt) := rfl
  rw [hblocked, judged_exempt, Bool.and_eq_true, Bool.not_eq_true']
  refine and_congr_left fun _ => ?_
  simp only [judged, judge, isSome_reason, Held, Bool.or_eq_true, Bool.and_eq_true, List.any_map,
    List.any_eq_true, Function.comp_apply, Bool.not_eq_true']

/-! ### Granting an exemption -/

/-- An exemption is saved into a policy. -/
def State.granted (s : State D) (identity : Identity) (exemption : Exemption D) : State D :=
  s.policySave { s.policy identity with exemption := some exemption }

omit [DecidableEq D] [Sha256 D] in
theorem Sound.policy_granted (h : Sound s) (identity other : Identity) (exemption : Exemption D) :
    (s.granted identity exemption).policy other =
      if other = identity then { s.policy identity with exemption := some exemption }
      else s.policy other := by
  unfold State.granted
  rw [State.policy_policySave, h.policyId]

omit [DecidableEq D] in
/-- The basis does not cover the exemption itself. -/
theorem Sound.basisDigest_granted (h : Sound s) (identity : Identity) (exemption : Exemption D) :
    basisDigest (s.granted identity exemption) value = basisDigest s value := by
  have hentry (a : Identity) : (s.granted identity exemption).entryOf a = s.entryOf a := by
    simp only [State.entryOf, State.latest, h.policy_granted]
    split
    next heq =>
      rw [heq]
      rfl
    next => rfl
  show sha256 (.basis s.config ((s.ancestors value).map _)) = sha256 (.basis s.config _)
  rw [List.map_congr_left fun a _ => hentry a]
  rfl

omit [DecidableEq D] [Sha256 D] in
theorem Sound.advances_granted (h : Sound s) (identity : Identity) (exemption : Exemption D) :
    Advances s (s.granted identity exemption) where
  sound := h.policySave fun r hr => h.latest identity r hr
  later := by
    refine .policySave ?_
    show Policy.Onward s (s.policy (s.policy identity).id) _
    rw [h.policyId]
    exact ⟨le_rfl, fun _ => rfl, .inl rfl⟩

/-- What a request for an exemption leaves: a new revision, and the exemption when it is granted,
with the digest of the basis after the grant. -/
theorem Sound.exempt_cases (h : Sound s) {scanner : Scanner} {body : ExemptionChange}
    (hexempt : s.exempt scanner principal identity body = .ok s') :
    ∃ dataset, s.datasets.lookup identity = some dataset ∧ ∃ renewed, Advances s renewed ∧
      (∀ other, (renewed.policy other).exemption = (s.policy other).exemption ∨
        (renewed.policy other).exemption = none) ∧
      renewed.datasets = s.datasets ∧
      (s' = renewed ∨ ∃ exemption, s' = renewed.granted identity exemption ∧
        exemption.basisDigest = basisDigest renewed dataset) := by
  simp only [State.exempt, bind_eq_ok, raiseIf_eq_ok] at hexempt
  obtain ⟨dataset, hget, -, -, hexempt⟩ := hexempt
  have hid := h.policyId identity
  set renewed := s.policySave { s.policy identity with
    revision := (s.policy identity).revision + 1, exemption := none } with hrenewed
  have hadvances : Advances s renewed := by
    refine h.advances_policySave ?_ ?_
    · show _ = (s.policy (s.policy identity).id).revision + 1
      rw [hid]
    · show _ = (s.policy (s.policy identity).id).latestRun
      rw [hid]
  have hpolicy : renewed.policy identity = { s.policy identity with
      revision := (s.policy identity).revision + 1, exemption := none } := by
    rw [hrenewed, State.policy_policySave, if_pos hid.symm]
  refine ⟨dataset, State.get_eq_ok hget, renewed, hadvances, fun other => ?_, rfl, ?_⟩
  · rw [hrenewed, State.policy_policySave]
    split
    next => exact .inr rfl
    next => exact .inl rfl
  · split at hexempt
    · simp only [bind_eq_ok, hadvances.sound.effective_eq, Except.ok.injEq, pure, Except.pure]
        at hexempt
      obtain ⟨-, -, current, rfl, rfl⟩ := hexempt
      refine .inr ⟨⟨body.reason, body.expiresAt, principal.subjectId, renewed.now,
        (judged renewed scanner dataset).basisDigest⟩, ?_, judged_basisDigest renewed scanner dataset⟩
      unfold State.granted
      rw [hpolicy]
    · simp only [pure, Except.pure, Except.ok.injEq] at hexempt
      exact .inl hexempt.symm

/-! ### Every event -/

/-- The event decides something: the owner does, or an inspection ends without a detection. -/
def Decides (s : State D) : Event → Prop
  | .update _ _ _ | .exempt _ _ _ _ | .configure _ _ => True
  | .finish identity cause => ∃ run, s.runs.lookup identity = some run ∧
      State.outcomeAtEnd run.files cause = .noDetection
  | _ => False

/-- So does an exemption. -/
theorem Sound.advances_exempt (h : Sound s) {scanner : Scanner} {body : ExemptionChange}
    (hexempt : s.exempt scanner principal identity body = .ok s') : Advances s s' := by
  obtain ⟨dataset, -, renewed, hadvances, -, -, rfl | ⟨exemption, rfl, -⟩⟩ := h.exempt_cases hexempt
  · exact hadvances
  · exact hadvances.trans (hadvances.sound.advances_granted identity exemption)

/-- An operation moves forward and, unless it decides, clears nothing. -/
theorem Sound.perform_cases (h : Sound s) (hperform : perform s event = .ok s') :
    Advances s s' ∧ (¬Decides s event → Quiet s s') := by
  cases event with
  | tick seconds =>
    obtain rfl := Except.ok.inj hperform
    exact ⟨h.advances_tick seconds, fun _ => .tick s seconds⟩
  | create principal value sources => exact (h.advances_create hperform).imp_right fun hq _ => hq
  | submit principal dataset key drawn =>
    exact (h.advances_submit hperform).imp_right fun hq _ => hq
  | start identity => exact (h.advances_start hperform).imp_right fun hq _ => hq
  | scanned identity outcome => exact (h.advances_scanned hperform).imp_right fun hq _ => hq
  | finish identity cause =>
    obtain ⟨hadvances, run, hrun, hquiet⟩ := h.advances_finish hperform
    exact ⟨hadvances, fun hnot => hquiet fun hclean => hnot ⟨run, hrun, hclean⟩⟩
  | cancel identity => exact (h.advances_cancel hperform).imp_right fun hq _ => hq
  | restart =>
    obtain rfl := Except.ok.inj hperform
    exact h.advances_recover.imp_right fun hq _ => hq
  | update principal dataset body =>
    exact ⟨h.advances_update hperform, fun hnot => absurd trivial hnot⟩
  | exempt principal dataset body scanner =>
    exact ⟨h.advances_exempt hperform, fun hnot => absurd trivial hnot⟩
  | configure config installed =>
    exact ⟨h.advances_configure hperform, fun hnot => absurd trivial hnot⟩

/-- A step moves forward. -/
theorem Sound.advances_step (h : Sound s) (event : Event) : Advances s (step s event) := by
  unfold step
  split
  next s' hperform => exact (h.perform_cases hperform).1
  next => exact ⟨h, .refl s⟩

/-- Unless it decides, it clears nothing. -/
theorem Sound.quiet_step (h : Sound s) (hnot : ¬Decides s event) :
    Quiet s (step s event) := by
  unfold step
  split
  next s' hperform => exact (h.perform_cases hperform).2 hnot
  next => exact .refl s

/-- An exemption that is there after an event was there before it, or the event granted it. -/
theorem Sound.exemption_step (h : Sound s) {exemption : Exemption D}
    (hthere : ((step s event).policy identity).exemption = some exemption) :
    (s.policy identity).exemption = some exemption ∨
      ∃ principal body scanner dataset, event = .exempt principal identity body scanner ∧
        (step s event).datasets.lookup identity = some dataset ∧
        exemption.basisDigest = basisDigest (step s event) dataset := by
  by_cases hdecides : Decides s event
  · unfold step at hthere ⊢
    split at hthere
    next s' hperform =>
      -- Of the events that decide, a request for an exemption alone writes one.
      cases event with
      | finish run cause =>
        simp only [perform, State.finish, bind_eq_ok, pure, Except.pure, Except.ok.injEq]
          at hperform
        obtain ⟨run, -, -, -, -, -, rfl⟩ := hperform
        exact .inl hthere
      | update principal dataset body =>
        simp only [perform, State.update, bind_eq_ok, pure, Except.pure, Except.ok.injEq]
          at hperform
        obtain ⟨-, -, -, -, rfl⟩ := hperform
        rw [State.policy_policySave] at hthere
        split at hthere
        next => cases hthere
        next => exact .inl hthere
      | exempt principal dataset body scanner =>
        obtain ⟨value, hvalue, renewed, hadvances, hrenewed, hdatasets, hresult⟩ :=
          h.exempt_cases hperform
        obtain rfl | ⟨granted, rfl, hbasis⟩ := hresult
        · obtain hsame | hnone := hrenewed identity
          · exact .inl (hsame ▸ hthere)
          · rw [hnone] at hthere
            cases hthere
        · rw [hadvances.sound.policy_granted] at hthere
          split at hthere
          next heq =>
            obtain rfl := Option.some.inj hthere
            obtain rfl := heq
            refine .inr ⟨principal, body, scanner, value, rfl, ?_, ?_⟩
            · show renewed.datasets.lookup identity = some value
              rw [hdatasets]
              exact hvalue
            · exact hbasis.trans (hadvances.sound.basisDigest_granted _ _).symm
          next =>
            obtain hsame | hnone := hrenewed identity
            · exact .inl (hsame ▸ hthere)
            · rw [hnone] at hthere
              cases hthere
      | configure config installed =>
        simp only [perform, State.configure, bind_eq_ok, pure, Except.pure, Except.ok.injEq]
          at hperform
        obtain ⟨-, -, -, -, rfl⟩ := hperform
        exact .inl hthere
      | _ => exact absurd hdecides id
    next => exact .inl hthere
  · obtain hsame | hnone := (h.quiet_step hdecides).exemption identity
    · exact .inl (hsame ▸ hthere)
    · rw [hnone] at hthere
      cases hthere

/-! ### Whole runs -/

/-- A run keeps the state sound. -/
theorem Sound.run (h : Sound s) (events : List Event) : Sound (Ficc.run step s events) :=
  run_invariant (I := Sound) (fun _ event hs => (hs.advances_step event).sound) h events

theorem Sound.later_run (h : Sound s) (events : List Event) : Later s (Ficc.run step s events) :=
  run_relates (I := Sound) Later.refl Later.trans
    (fun _ event hs => (hs.advances_step event).sound)
    (fun _ event hs => (hs.advances_step event).later) h events

/-- A run without a decision clears nothing. -/
theorem Sound.quiet_run (h : Sound s) {events : List Event}
    (hquiet : Along step (fun s event => ¬Decides s event) s events) :
    Quiet s (Ficc.run step s events) := by
  induction events generalizing s with
  | nil => exact .refl s
  | cons event events ih =>
    have hadvances := h.advances_step event
    exact .trans hadvances.later (h.quiet_step hquiet.1) (ih hadvances.sound hquiet.2)

end Hashing

end Ficc.Datasets
