import Ficc.Datasets.Events

/-!
# Safety propagates

`safety_propagates` is about every run of the controller. A dataset is blocked when anything that
is reached from it is quarantined or lacks a required inspection, unless its own exemption was
granted for exactly the present basis. A blocked dataset stays blocked until the owner decides
something or an inspection ends without a detection. And an exemption that is honoured was granted
under the present configuration, for the present ancestors and for what is decided about them now.
-/

namespace Ficc.Datasets

open Execution (Identity Digest)

section Propagation

variable {D : Type} [DecidableEq D] [Sha256 D] {s t : State D} {value : Manifest}

/-- The dataset has a current successful inspection: the approved scanner is ready, and the latest
run was completed without a detection under the present configuration and is not too old. -/
def Inspected (s : State D) (scanner : Scanner) (identity : Identity) : Prop :=
  (∃ provider, s.config.provider = some provider) ∧
    (∃ installed, scanner s.config = some installed ∧ s.approval = some installed) ∧
    ∃ r run, (s.policy identity).latestRun = some r ∧ s.runs.lookup r = some run ∧
      run.state = .completed ∧ run.outcome = .noDetection ∧
      run.configDigest = sha256 (.config s.config) ∧
      s.now - run.finishedAt.getD 0 ≤ s.config.maxAgeSeconds

theorem successful_iff (s : State D) (scanner : Scanner) (identity : Identity) :
    successful s scanner (s.latest identity) = true ↔ Inspected s scanner identity := by
  unfold successful Inspected State.latest
  simp only [Bool.and_eq_true, decide_eq_true_eq, Option.any_eq_true, Option.isSome_iff_exists,
    Option.bind_eq_some_iff]
  constructor
  · rintro ⟨⟨⟨hprovider, installed, hinstalled⟩, happroval⟩, run, ⟨r, hlatest, hrun⟩, hgood⟩
    exact ⟨hprovider, ⟨installed, hinstalled, happroval ▸ hinstalled⟩, r, run, hlatest, hrun, hgood⟩
  · rintro ⟨hprovider, ⟨installed, hinstalled, happroval⟩, r, run, hlatest, hrun, hgood⟩
    exact ⟨⟨⟨hprovider, installed, hinstalled⟩, hinstalled.trans happroval.symm⟩, run,
      ⟨r, hlatest, hrun⟩, hgood⟩

/-- Something stands against the use of a dataset. -/
def Objectionable (s : State D) (scanner : Scanner) (identity : Identity) : Prop :=
  (s.policy identity).quarantined = true ∨
    (s.policy identity).inspectionRequired = true ∧ ¬Inspected s scanner identity

variable {manifest : Manifest} {scanner scanner' : Scanner} {identity : Identity}

/-- A dataset is held by every dataset that is reached from it. -/
theorem held_of_reached {target : Identity} (hdataset : s.datasets.lookup target = some manifest)
    (hproject : manifest.projectId = value.projectId)
    (hreached : Relation.ReflTransGen (s.Edge value.projectId) value.id target)
    (h : Objectionable s scanner target) : Held s scanner value := by
  have hmem : target ∈ s.ancestors value :=
    State.mem_ancestors.mpr ⟨⟨manifest, hdataset, hproject⟩, hreached⟩
  obtain hquarantined | ⟨hrequired, hnot⟩ := h
  · exact .inl ⟨target, hmem, hquarantined⟩
  · have hfailed : successful s scanner (s.latest target) = false := by
      rw [← Bool.not_eq_true, successful_iff]
      exact hnot
    exact .inr ⟨⟨target, hmem, hrequired⟩, .inr ⟨target, hmem, hrequired, hfailed⟩⟩

omit [Sha256 D] in
theorem honoured_eq_true {exemption : Option (Exemption D)} {digest : D} {now : ℕ} :
    honoured exemption digest now = true ↔ ∃ granted, exemption = some granted ∧
      granted.basisDigest = digest ∧ ∀ at_, granted.expiresAt = some at_ → now < at_ := by
  simp [honoured, Option.any_eq_true, Option.all_eq_true]

/-! ### Staying blocked -/

/-- A scanner that is ready was ready before. -/
def NoNewScanner (scanner scanner' : Scanner) : Prop :=
  ∀ config installed, scanner' config = some installed → scanner config = some installed

omit [DecidableEq D] in
theorem Quiet.inspected (h : Quiet s t) (hlater : Later s t)
    (hscanner : NoNewScanner scanner scanner')
    (hdataset : s.datasets.lookup identity = some manifest)
    (hinspected : Inspected t scanner' identity) : Inspected s scanner identity := by
  obtain ⟨hprovider, ⟨installed, hinstalled, happroval⟩, r, run, hlatest, hrun, hcompleted,
    hclean, hdigest, hage⟩ := hinspected
  rw [h.config] at hprovider hinstalled hdigest hage
  rw [h.approval] at happroval
  have hrun' := h.clean r run hrun hclean
  refine ⟨hprovider, ⟨installed, hscanner _ _ hinstalled, happroval⟩, r, run, ?_, hrun',
    hcompleted, hclean, hdigest, ?_⟩
  · -- A run that the policy got since is not a successful one.
    obtain hsame | ⟨r', hr', hnew⟩ := (hlater.policy identity manifest hdataset).latest
    · rw [← hsame]
      exact hlatest
    · rw [hlatest] at hr'
      obtain rfl := Option.some.inj hr'
      rw [hrun'] at hnew
      cases hnew
  · have hnow := h.now
    omega

theorem Quiet.successful_eq_false (h : Quiet s t) (hlater : Later s t)
    (hscanner : NoNewScanner scanner scanner')
    (hdataset : s.datasets.lookup identity = some manifest)
    (hfailed : successful s scanner (s.latest identity) = false) :
    successful t scanner' (t.latest identity) = false := by
  rw [← Bool.not_eq_true, successful_iff] at hfailed ⊢
  exact fun hinspected => hfailed (h.inspected hlater hscanner hdataset hinspected)

theorem Quiet.held (h : Quiet s t) (hlater : Later s t) (hscanner : NoNewScanner scanner scanner')
    (hdataset : s.datasets.lookup value.id = some value) (hheld : Held s scanner value) :
    Held t scanner' value := by
  have hflags {a : Identity} (ha : a ∈ s.ancestors value) : ∃ manifest,
      s.datasets.lookup a = some manifest := by
    obtain ⟨⟨manifest, hlookup, -⟩, -⟩ := State.mem_ancestors.mp ha
    exact ⟨manifest, hlookup⟩
  obtain ⟨a, ha, hquarantined⟩ | ⟨⟨a, ha, hrequired⟩, hmissing⟩ := hheld
  · obtain ⟨manifest, hlookup⟩ := hflags ha
    exact .inl ⟨a, hlater.mem_ancestors ha, (h.flags a manifest hlookup).1 hquarantined⟩
  · obtain ⟨manifest, hlookup⟩ := hflags ha
    refine .inr ⟨⟨a, hlater.mem_ancestors ha, (h.flags a manifest hlookup).2 hrequired⟩, ?_⟩
    obtain hfailed | ⟨b, hb, hrequired, hfailed⟩ := hmissing
    · exact .inl (h.successful_eq_false hlater hscanner hdataset hfailed)
    · obtain ⟨manifest, hlookup⟩ := hflags hb
      exact .inr ⟨b, hlater.mem_ancestors hb, (h.flags b manifest hlookup).2 hrequired,
        h.successful_eq_false hlater hscanner hlookup hfailed⟩

/-! ### Where an exemption comes from -/

/-- The exemption of a dataset was granted in the past, for the basis that there was then. -/
def Granted (past : List Event) (identity : Identity) (exemption : Exemption D) : Prop :=
  ∃ first principal body scanner rest dataset,
    past = first ++ .exempt principal identity body scanner :: rest ∧
    let granted := run step State.empty (first ++ [.exempt principal identity body scanner])
    (granted.policy identity).exemption = some exemption ∧
      granted.datasets.lookup identity = some dataset ∧
      exemption.basisDigest = basisDigest granted dataset

theorem granted_of_exemption (events : List Event) {exemption : Exemption D}
    (h : ((run step State.empty events).policy identity).exemption = some exemption) :
    Granted events identity exemption := by
  induction events using List.reverseRecOn generalizing exemption with
  | nil => simp [State.policy, State.empty, Policy.default] at h
  | append_singleton past event ih =>
    have hsound : Sound (run step (State.empty : State D) past) := Sound.empty.run past
    have hstep : run step (State.empty : State D) (past ++ [event]) =
        step (run step State.empty past) event := run_append step _ past [event]
    rw [hstep] at h
    obtain hbefore | ⟨principal, body, scanner, dataset, rfl, hdataset, hbasis⟩ :=
      hsound.exemption_step h
    · obtain ⟨first, principal, body, scanner, rest, dataset, rfl, hgranted⟩ := ih hbefore
      exact ⟨first, principal, body, scanner, rest ++ [event], dataset, by simp, hgranted⟩
    · refine ⟨past, principal, body, scanner, [], dataset, rfl, ?_⟩
      show _ ∧ _ ∧ _
      rw [hstep]
      exact ⟨h, hdataset, hbasis⟩

omit [DecidableEq D] in
/-- Two moments with one digest of the basis have the same configuration and the same basis. -/
theorem CollisionFree.basis_eq (hfree : CollisionFree D)
    (h : basisDigest s value = basisDigest t value) :
    s.config = t.config ∧ s.basis value = t.basis value := by
  have hmessage := hfree h
  simpa only [Message.basis.injEq] using hmessage

/-! ### The three properties -/

/-- A dataset is blocked by everything that is reached from it, unless its own exemption covers the
present basis. -/
def BlocksReached (s : State D) (value : Manifest) : Prop :=
  ∀ scanner, ∃ judgement, effective s scanner value = .ok judgement ∧
    ∀ target manifest, s.datasets.lookup target = some manifest →
      manifest.projectId = value.projectId →
      Relation.ReflTransGen (s.Edge value.projectId) value.id target →
      Objectionable s scanner target →
      judgement.blocked = true ∨
        ∃ exemption, (s.policy value.id).exemption = some exemption ∧
          exemption.basisDigest = judgement.basisDigest

theorem Sound.blocksReached (h : Sound s) (value : Manifest) : BlocksReached s value := by
  intro scanner
  refine ⟨_, h.effective_eq scanner value, ?_⟩
  intro target manifest hdataset hproject hreached hobjectionable
  have hheld := held_of_reached hdataset hproject hreached hobjectionable
  cases hcase : honoured (s.policy value.id).exemption (basisDigest s value) s.now with
  | false => exact .inl ((judged_blocked s scanner value).mpr ⟨hheld, hcase⟩)
  | true =>
    obtain ⟨exemption, hexemption, hbasis, -⟩ := honoured_eq_true.mp hcase
    exact .inr ⟨exemption, hexemption, by rw [judged_basisDigest, hbasis]⟩

/-- A blocked dataset stays blocked along every run that decides nothing. -/
def StaysBlocked (s : State D) (value : Manifest) : Prop :=
  ∀ scanner scanner' more judgement, NoNewScanner scanner scanner' →
    Along step (fun s event => ¬Decides s event) s more →
    effective s scanner value = .ok judgement → judgement.blocked = true →
    ∃ judgement', effective (run step s more) scanner' value = .ok judgement' ∧
      judgement'.blocked = true

theorem stays_blocked (hfree : CollisionFree D) (events : List Event)
    (hdataset : (run step State.empty events : State D).datasets.lookup value.id = some value) :
    StaysBlocked (run step State.empty events : State D) value := by
  intro scanner scanner' more judgement hscanner hquiet heffective hblocked
  set s : State D := run step State.empty events with hs
  have hsound : Sound s := Sound.empty.run events
  have hlater : Later s (run step s more) := hsound.later_run more
  have hsound' : Sound (run step s more) := hsound.run more
  have hq := hsound.quiet_run hquiet
  rw [hsound.effective_eq, Except.ok.injEq] at heffective
  obtain rfl := heffective
  obtain ⟨hheld, hnot⟩ := (judged_blocked s scanner value).mp hblocked
  refine ⟨_, hsound'.effective_eq scanner' value, (judged_blocked _ scanner' value).mpr
    ⟨hq.held hlater hscanner hdataset hheld, ?_⟩⟩
  -- An exemption that is honoured now was there before, and its basis lies before both moments.
  rw [← Bool.not_eq_true, honoured_eq_true]
  rintro ⟨exemption, hexemption, hbasis, hvalid⟩
  have hbefore : (s.policy value.id).exemption = some exemption := by
    obtain hsame | hnone := hq.exemption value.id
    · rw [← hsame]
      exact hexemption
    · rw [hnone] at hexemption
      cases hexemption
  obtain ⟨first, principal, body, grantor, rest, dataset, rfl, hgranted, hthere, hdigest⟩ :=
    granted_of_exemption events hbefore
  set granted : State D :=
    run step State.empty (first ++ [.exempt principal value.id body grantor]) with hgrantedAt
  have hgrantedSound : Sound granted := Sound.empty.run _
  have hrest : run step granted rest = s := by
    rw [hs, hgrantedAt, ← run_append, List.append_assoc]
    rfl
  have hgrantedLater : Later granted s := hrest ▸ hgrantedSound.later_run rest
  obtain rfl : dataset = value := by
    have hkept := hgrantedLater.datasets _ _ hthere
    rw [hdataset] at hkept
    exact (Option.some.inj hkept).symm
  obtain ⟨hconfig, hsame⟩ := hfree.basis_eq (hdigest.symm.trans hbasis)
  obtain ⟨hmiddle, -⟩ :=
    basis_between hgrantedSound hsound hsound' hgrantedLater hlater hsame
  have hdigest' : exemption.basisDigest = basisDigest s dataset := by
    rw [hdigest, basisDigest, basisDigest, hmiddle, hconfig, hq.config]
  have hhonoured : honoured (s.policy dataset.id).exemption (basisDigest s dataset) s.now = true :=
    honoured_eq_true.mpr ⟨exemption, hbefore, hdigest', fun at_ hat =>
      hq.now.trans_lt (hvalid at_ hat)⟩
  rw [hhonoured] at hnot
  cases hnot

/-- An exemption that is honoured was granted under the present configuration, and from then on the
ancestors and what is decided about them have been what they are now. -/
def HonoursGranted (events : List Event) (value : Manifest) : Prop :=
  let s : State D := run step State.empty events
  ∀ scanner judgement, effective s scanner value = .ok judgement → judgement.exempt = true →
    ∃ first principal body grantor rest,
      events = first ++ .exempt principal value.id body grantor :: rest ∧
      let granted : State D :=
        run step State.empty (first ++ [.exempt principal value.id body grantor])
      (granted.policy value.id).exemption = (s.policy value.id).exemption ∧
        granted.config = s.config ∧
        ∀ middle, middle <+: rest →
          (run step granted middle).ancestors value = s.ancestors value ∧
            ∀ a ∈ s.ancestors value, SameControls (run step granted middle) s a

theorem honours_granted (hfree : CollisionFree D) (events : List Event)
    (hdataset : (run step State.empty events : State D).datasets.lookup value.id = some value) :
    HonoursGranted (D := D) events value := by
  intro scanner judgement heffective hexempt
  set s : State D := run step State.empty events with hs
  have hsound : Sound s := Sound.empty.run events
  rw [hsound.effective_eq, Except.ok.injEq] at heffective
  obtain rfl := heffective
  rw [judged_exempt, honoured_eq_true] at hexempt
  obtain ⟨exemption, hexemption, hbasis, -⟩ := hexempt
  obtain ⟨first, principal, body, grantor, rest, dataset, rfl, hgranted, hthere, hdigest⟩ :=
    granted_of_exemption events hexemption
  refine ⟨first, principal, body, grantor, rest, rfl, ?_⟩
  dsimp only
  set granted : State D :=
    run step State.empty (first ++ [.exempt principal value.id body grantor]) with hgrantedAt
  have hgrantedSound : Sound granted := Sound.empty.run _
  have hrest : run step granted rest = s := by
    rw [hs, hgrantedAt, ← run_append, List.append_assoc]
    rfl
  obtain rfl : dataset = value := by
    have hkept := (hrest ▸ hgrantedSound.later_run rest : Later granted s).datasets _ _ hthere
    rw [hdataset] at hkept
    exact (Option.some.inj hkept).symm
  obtain ⟨hconfig, hsame⟩ := hfree.basis_eq (hdigest.symm.trans hbasis)
  refine ⟨hgranted.trans hexemption.symm, hconfig, ?_⟩
  rintro middle ⟨last, rfl⟩
  have hmiddleSound : Sound (run step granted middle) := hgrantedSound.run middle
  have hlast : run step (run step granted middle) last = s := by
    rw [← run_append]
    exact hrest
  have hmiddleLater : Later (run step granted middle) s := hlast ▸ hmiddleSound.later_run last
  -- The moment lies between the grant and now, and so does the one at which it is honoured.
  obtain ⟨-, hancestors, hcontrols⟩ := basis_between hgrantedSound hmiddleSound hsound
    (hgrantedSound.later_run middle) hmiddleLater hsame
  obtain ⟨-, hancestors', hcontrols'⟩ := basis_between hgrantedSound hsound hsound
    ((hgrantedSound.later_run middle).trans hmiddleLater) (.refl s) hsame
  refine ⟨hancestors.trans hancestors'.symm, fun a ha => ?_⟩
  rw [hancestors'] at ha
  obtain ⟨hflags, hrevision, hlatest⟩ := hcontrols a ha
  obtain ⟨hflags', hrevision', hlatest'⟩ := hcontrols' a ha
  exact ⟨hflags.trans hflags'.symm, hrevision.trans hrevision'.symm, hlatest.trans hlatest'.symm⟩

/-- The safety of datasets propagates, in every run of the controller. -/
theorem safety_propagates (hfree : CollisionFree D) (events : List Event) (value : Manifest)
    (hdataset : (run step State.empty events : State D).datasets.lookup value.id = some value) :
    BlocksReached (run step State.empty events : State D) value ∧
      StaysBlocked (run step State.empty events : State D) value ∧
      HonoursGranted (D := D) events value :=
  ⟨(Sound.empty.run events).blocksReached value, stays_blocked hfree events hdataset,
    honours_granted hfree events hdataset⟩

end Propagation

namespace Example

/-- A digest that is the message itself. -/
instance : Sha256 Message := ⟨id⟩

def owner : Principal := ⟨1, 1⟩

def original : Manifest := ⟨10, 1, 1, "first", [], none, none, [⟨5, 7, 3⟩]⟩

/-- Another dataset with a file at the same path. -/
def copy : Manifest := ⟨11, 1, 1, "second", [], none, none, [⟨5, 8, 3⟩]⟩

/-- The owner quarantines the first dataset and exempts the second from what follows. -/
def events : List Event :=
  [.create owner original [], .create owner copy [], .update owner 10 ⟨1, false, false, true⟩,
    .exempt owner 11 ⟨1, true, "reviewed", none⟩ fun _ => none]

def state : State Message := run step State.empty events

theorem safety_propagates_copy :
    (effective state (fun _ => none) copy).map Effective.exempt = .ok true ∧
      (effective (step state (.update owner 10 ⟨2, true, false, true⟩)) (fun _ => none) copy).map
        Effective.blocked = .ok true ∧
      BlocksReached state copy ∧ StaysBlocked state copy ∧
        HonoursGranted (D := Message) events copy := by
  have hthere : state.datasets.lookup copy.id = some copy := by decide
  exact ⟨by decide, by decide, safety_propagates Function.injective_id events copy hthere⟩

end Example

end Ficc.Datasets
