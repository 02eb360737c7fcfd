import Ficc.Federation.Connections

/-!
# Mutations happen at most once

The effect of a mutation is started at most once for a grant and an operation identity, over every
run with concurrent, repeated and interrupted requests. A repetition of a completed operation
returns the recorded result, and one with other arguments is refused.

The receipt of an effect stays until its grant is retired, and a grant that is retired has ended.
So whoever repeats an operation either finds the receipt or is not authorised. The digests of
arguments are compared and nothing else is known about them, so the last part assumes of the two
arguments that it compares that they do not collide.
-/

namespace Ficc.Federation

open Execution (Identity Digest Hash)
open Authority (Local Authorised Revoked check)
open Operations (Answers Registered Settles)

/-- The request whose effect the event starts. -/
def Event.started : Event → Option Request
  | .effect request => some request
  | _ => none

namespace Manager

/-- The requests whose effects have been started, the newest first. -/
def effects (s : Manager) : List Request := s.history.filterMap Event.started

variable [Hash (Key × Identity)] [Hash (Signed Offer)] [Hash Receipt] [Hash Arguments]

omit [Hash (Key × Identity)] [Hash (Signed Offer)] [Hash Receipt] in
/-- The receipt of a request is there, or nobody can use its grant any more. -/
def Retained (s : Manager) (request : Request) : Prop :=
  s.Ended request.grant ∨ ∃ record, s.operations.lookup request.id = some record ∧
    record.grant = request.grant ∧ record.digest = Hash.digest request.arguments

/-- The effects have their receipts, and no operation was started twice. -/
structure Once (s : Manager) : Prop where
  serving : s.Serving
  retained : ∀ {request}, request ∈ s.effects → s.Retained request
  nodup : (s.effects.map fun request => (request.grant, request.id)).Nodup

/-- A step starts the effect of the request. -/
structure Starts (s s' : Manager) (request : Request) : Prop where
  authorised : ∃ peer value, Authorised s request.grant peer value
  absent : s.operations.lookup request.id = none
  receipt : ∃ record, s'.operations.lookup request.id = some record ∧
    record.grant = request.grant ∧ record.digest = Hash.digest request.arguments
  effects : s'.effects = request :: s.effects

/-- A step starts at most one effect. -/
theorem effects_change {s s' : Manager} {a : Step} (hkeyed : s.Keyed) (hchange : Change s a s') :
    s'.effects = s.effects ∨ ∃ request, Starts s s' request := by
  cases hchange with
  | @begins number env answers effect session grant record _ _ hbegun _ hrecord =>
    obtain ⟨value, hauthorised, hnone, -⟩ := Operations.dispatch_eq_begun hbegun
    refine .inr ⟨session.request, ⟨_, _, hauthorised⟩, hnone, ?_, rfl⟩
    exact ⟨record, AList.lookup_insert _, by rw [hrecord]; rfl, by rw [hrecord]; rfl⟩
  | @runs number env answers effect session grant record next grants _ _ hbegun hrecord houtcome =>
    obtain ⟨value, hauthorised, hnone, -⟩ := Operations.dispatch_eq_begun hbegun
    refine .inr ⟨session.request, ⟨_, _, hauthorised⟩, hnone,
      ⟨next, AList.lookup_insert _, ?_⟩, rfl⟩
    obtain ⟨-, rfl⟩ | ⟨-, hsettles⟩ := houtcome
    · exact ⟨by rw [hrecord]; rfl, by rw [hrecord]; rfl⟩
    · rw [hsettles.grant, hsettles.digest, hrecord]
      exact ⟨rfl, rfl⟩
  | @beginsStop number env answers result stop session grant record grants events _ _ hbegun
      hrecord hevents _ =>
    obtain rfl | rfl := hevents
    · exact .inl rfl
    · obtain ⟨value, hauthorised, hnone, -⟩ := Operations.dispatch_eq_begun hbegun
      refine .inr ⟨session.request, ⟨_, _, hauthorised⟩, hnone, ?_, rfl⟩
      exact ⟨record, AList.lookup_insert _, by rw [hrecord]; rfl, by rw [hrecord]; rfl⟩
  | statusHalf _ _ _ hnext hs' =>
    subst hnext
    obtain rfl | rfl := hs' <;> exact .inl rfl
  | confirmedHalf _ _ _ _ _ hnext hs' =>
    subst hnext
    obtain rfl | rfl := hs' <;> exact .inl rfl
  | @settle number effect session record _ _ =>
    obtain ⟨grants, operations, -, hsettle⟩ := Operations.settle_frame
      (fun _ => hkeyed.grants.key_eq) record effect
    rw [hsettle]
    exact .inl rfl
  | _ => exact .inl rfl

/-- The receipt before and after a step: it is the same, or only its outcome became known. -/
structure Carries (record next : OperationRecord) : Prop where
  grant : next.grant = record.grant
  digest : next.digest = record.digest
  same : record.state ≠ .uncertain → next = record

omit [Hash (Key × Identity)] [Hash (Signed Offer)] [Hash Receipt] [Hash Arguments] in
theorem Carries.refl (record : OperationRecord) : Carries record record := ⟨rfl, rfl, fun _ => rfl⟩

/-- A receipt stays until its grant has ended, and a known outcome does not change. -/
theorem receipt_change {s s' : Manager} {a : Step} (h : s.Serving) (hchange : Change s a s')
    {k : Identity} {record : OperationRecord} (hrecord : s.operations.lookup k = some record) :
    (∃ next, s'.operations.lookup k = some next ∧ Carries record next) ∨
      s'.Ended record.grant := by
  have hstays : ∃ next, s.operations.lookup k = some next ∧ Carries record next :=
    ⟨record, hrecord, .refl record⟩
  -- An operation that begins has an identity without a receipt.
  have hnew {request : Request} {new : OperationRecord}
      (hnone : s.operations.lookup request.id = none) :
      ∃ next, (s.operations.insert request.id new).lookup k = some next ∧ Carries record next := by
    have hne : k ≠ request.id := by
      rintro rfl
      rw [hnone] at hrecord
      cases hrecord
    exact ⟨record, (AList.lookup_insert_ne hne).trans hrecord, .refl record⟩
  cases hchange with
  | begins _ _ hbegun =>
    obtain ⟨-, -, hnone, -⟩ := Operations.dispatch_eq_begun hbegun
    exact .inl (hnew hnone)
  | runs _ _ hbegun =>
    obtain ⟨-, -, hnone, -⟩ := Operations.dispatch_eq_begun hbegun
    exact .inl (hnew hnone)
  | beginsStop _ _ hbegun =>
    obtain ⟨-, -, hnone, -⟩ := Operations.dispatch_eq_begun hbegun
    exact .inl (hnew hnone)
  | @settle number effect session old hsession hmutating =>
    obtain ⟨hreceipted, hold⟩ := h.receipted hsession hmutating
    rw [← hreceipted.id] at hold
    obtain heq | ⟨grants, next, -, hsettles, heq⟩ := Operations.settle_spec
      (fun _ => h.keyed.grants.key_eq) hold effect
    · rw [heq]
      exact .inl hstays
    · rw [heq]
      left
      by_cases hk : k = old.id
      · subst hk
        obtain rfl : record = old := Option.some.inj (hrecord.symm.trans hold)
        exact ⟨next, AList.lookup_insert _, hsettles.grant, hsettles.digest,
          fun hknown => absurd hreceipted.uncertain hknown⟩
      · exact ⟨record, (AList.lookup_insert_ne hk).trans hrecord, .refl record⟩
  | @purges number access task rest grantId htask htodo hready =>
    obtain ⟨hended, -⟩ := h.unused htask htodo hready
    by_cases hgrant : record.grant = grantId
    · right
      rw [hgrant]
      refine ⟨hended.1, fun found hfound => ?_⟩
      simp at hfound
    · left
      refine ⟨record, ?_, .refl record⟩
      simp only [Table.lookup_discard, hrecord, Option.filter_eq_some_iff]
      exact ⟨trivial, by simp [hgrant]⟩
  | statusHalf _ _ _ hnext hs' =>
    subst hnext
    obtain rfl | rfl := hs' <;> exact .inl hstays
  | confirmedHalf _ _ _ _ _ hnext hs' =>
    subst hnext
    obtain rfl | rfl := hs' <;> exact .inl hstays
  | _ => exact .inl hstays

theorem Retained.change {s s' : Manager} {a : Step} (h : s.Serving) (hchange : Change s a s')
    {request : Request} (hretained : s.Retained request) : s'.Retained request := by
  obtain hended | ⟨record, hrecord, hgrant, hdigest⟩ := hretained
  · exact .inl (hended.change h.keyed hchange)
  · obtain ⟨next, hnext, hcarries⟩ | hended := receipt_change h hchange hrecord
    · exact .inr ⟨next, hnext, hcarries.grant.trans hgrant, hcarries.digest.trans hdigest⟩
    · exact .inl (hgrant ▸ hended)

omit [Hash (Key × Identity)] [Hash (Signed Offer)] [Hash Receipt] in
/-- An operation that was started before is not started again. -/
theorem Once.starts_new {s s' : Manager} (h : s.Once) {request : Request}
    (hstarts : Starts s s' request) :
    (request.grant, request.id) ∉ s.effects.map fun request => (request.grant, request.id) := by
  intro hmem
  obtain ⟨earlier, hearlier, heq⟩ := List.mem_map.mp hmem
  obtain ⟨hgrant, hid⟩ := Prod.mk.inj heq
  obtain ⟨peer, value, hauthorised⟩ := hstarts.authorised
  obtain hended | ⟨record, hrecord, -⟩ := h.retained hearlier
  · rw [hgrant] at hended
    exact hended.2 value hauthorised.grant hauthorised.active
  · rw [hid, hstarts.absent] at hrecord
    cases hrecord

theorem Once.change {s s' : Manager} {a : Step} (h : s.Once) (hchange : Change s a s') :
    s'.Once := by
  have hserving := h.serving.change hchange
  obtain heffects | ⟨request, hstarts⟩ := effects_change h.serving.keyed hchange
  · refine ⟨hserving, fun {request} hmem => ?_, heffects ▸ h.nodup⟩
    rw [heffects] at hmem
    exact (h.retained hmem).change h.serving hchange
  · refine ⟨hserving, fun {found} hmem => ?_, ?_⟩
    · rw [hstarts.effects] at hmem
      obtain rfl | hmem := List.mem_cons.mp hmem
      · exact .inr hstarts.receipt
      · exact (h.retained hmem).change h.serving hchange
    · rw [hstarts.effects, List.map_cons, List.nodup_cons]
      exact ⟨h.starts_new hstarts, h.nodup⟩

theorem once_run (key : Key) (actions : List Step) : (run step (initial key) actions).Once :=
  run_invariant (fun _ a h => h.change (change_step h.serving.keyed a))
    ⟨serving_initial key, fun h => (by cases h), List.nodup_nil⟩ actions

/-! ### Repetitions -/

section Repetitions

/-- The outcome of an operation is recorded, or nobody can ask for it under its grant. -/
def Completed (s : Manager) (k : Identity) (record : OperationRecord) : Prop :=
  s.operations.lookup k = some record ∨ s.Ended record.grant

/-- A completed operation stays completed. -/
theorem completed_run {s : Manager} (h : s.Serving) {k : Identity} {record : OperationRecord}
    (hrecord : s.operations.lookup k = some record) (hcomplete : record.state = .complete)
    (actions : List Step) : (run step s actions).Completed k record := by
  have hkeeps : ∀ (s : Manager) (a : Step), s.Serving ∧ s.Completed k record →
      (step s a).Serving ∧ (step s a).Completed k record := by
    rintro s a ⟨hserving, hcompleted⟩
    have hchange := change_step hserving.keyed a
    refine ⟨hserving.change hchange, ?_⟩
    obtain hlookup | hended := hcompleted
    · obtain ⟨next, hnext, hcarries⟩ | hended := receipt_change hserving hchange hlookup
      · have hknown : record.state ≠ .uncertain := by
          rw [hcomplete]
          exact OperationState.noConfusion
        rw [hcarries.same hknown] at hnext
        exact .inl hnext
      · exact .inr hended
    · exact .inr (hended.change hserving.keyed hchange)
  exact (run_invariant hkeeps ⟨h, .inl hrecord⟩ actions).2

omit [Hash (Key × Identity)] [Hash (Signed Offer)] [Hash Receipt]

/-- An authorised repetition of a completed operation returns its result. -/
theorem dispatch_repeats {s : Manager} {request : Request} {record : OperationRecord}
    (hrecord : s.operations.lookup request.id = some record)
    (hcomplete : record.state = .complete) (hgrant : request.grant = record.grant)
    (hdigest : Hash.digest request.arguments = record.digest) {peer : Peer} {env : Local}
    {answers : Answers} {value : Grant}
    (hcheck : check s request.grant peer request.generation none none env = .ok value)
    (hbytes : request.bytes ≤ value.spec.requestBytes) :
    Operations.dispatch s request peer env answers = .ok (.repeated record.result) := by
  have hsize : ¬value.spec.requestBytes < request.bytes := not_lt.mpr hbytes
  simp [Operations.dispatch, Operations.begins, hcheck, hrecord, raiseIf, hsize, hcomplete,
    ← hgrant, hdigest]

/-- A request under a grant that has ended is refused. -/
theorem dispatch_of_ended {s : Manager} {request : Request} (h : s.Ended request.grant)
    (peer : Peer) (env : Local) (answers : Answers) :
    ∃ error, Operations.dispatch s request peer env answers = .error error := by
  rcases hcheck : check s request.grant peer request.generation none none env with error | value
  · refine ⟨error, ?_⟩
    simp only [Operations.dispatch, hcheck]
    rfl
  · exact absurd hcheck (h.refuses peer request.generation none none env value)

/-- A repetition with other arguments is refused. -/
theorem dispatch_conflict {s : Manager} {started request : Request} (h : s.Retained started)
    (hid : request.id = started.id) (hgrant : request.grant = started.grant)
    (hdigest : Hash.digest request.arguments ≠ Hash.digest started.arguments) (peer : Peer)
    (env : Local) (answers : Answers) :
    ∃ error, Operations.dispatch s request peer env answers = .error error := by
  obtain hended | ⟨record, hrecord, -, hof⟩ := h
  · exact dispatch_of_ended (hgrant ▸ hended) peer env answers
  · rw [← hid] at hrecord
    obtain herror | ⟨hsame, -⟩ := Operations.dispatch_of_retained hrecord peer env answers
    · exact herror
    · exact absurd (hsame.symm.trans hof) hdigest

end Repetitions

section Step

/-- A request that is refused or repeated leaves everything but its connection as it is. -/
theorem step_dispatch_of_not_begun {s : Manager} {number : ℕ} {session : Session} {env : Local}
    {answers : Answers} (hsession : s.sessions.lookup number = some session)
    (hphase : session.phase = .admitted)
    (h : ∀ next record, Operations.dispatch s session.request session.peer env answers ≠
      .ok (.begun next record)) (effect : Except Error Result) :
    step s (.dispatch number env answers effect) = s.enter number session .done := by
  obtain ⟨request, peer, phase⟩ := session
  subst hphase
  simp only [step, dispatch, hsession]
  rcases hdispatch : Operations.dispatch s request peer env answers with
    - | ⟨_⟩ | ⟨next, record⟩
  · rfl
  · rfl
  · exact absurd hdispatch (h next record)

end Step

/-- Over every run, the effect of a mutation is started at most once for a grant and an operation
identity. After a run in which an operation has been completed, and after whatever happens then,
an authorised repetition returns the recorded result and changes nothing but its connection. And
a request that repeats the identity of an operation whose effect was started under the grant, with
other arguments, is refused and changes nothing but its connection. -/
theorem mutations_once (key : Key) (actions : List Step) :
    let s := run step (initial key) actions
    (s.effects.map fun request => (request.grant, request.id)).Nodup ∧
    (∀ k record, s.operations.lookup k = some record → record.state = .complete →
      ∀ later number session env answers effect value,
        let s' := run step s later
        s'.sessions.lookup number = some session → session.phase = .admitted →
        session.request.id = k → session.request.grant = record.grant →
        Hash.digest session.request.arguments = record.digest →
        check s' session.request.grant session.peer session.request.generation none none env =
          .ok value →
        session.request.bytes ≤ value.spec.requestBytes →
        Operations.dispatch s' session.request session.peer env answers =
            .ok (.repeated record.result) ∧
          step s' (.dispatch number env answers effect) = s'.enter number session .done) ∧
    (∀ started ∈ s.effects, ∀ number session env answers effect,
        s.sessions.lookup number = some session → session.phase = .admitted →
        session.request.id = started.id → session.request.grant = started.grant →
        session.request.arguments ≠ started.arguments →
        (Hash.digest session.request.arguments = Hash.digest started.arguments →
          session.request.arguments = started.arguments) →
        (∃ error, Operations.dispatch s session.request session.peer env answers =
            .error error) ∧
          step s (.dispatch number env answers effect) = s.enter number session .done) := by
  intro s
  have honce : s.Once := once_run key actions
  refine ⟨honce.nodup, ?_, ?_⟩
  · intro k record hrecord hcomplete later number session env answers effect value s' hsession
      hphase hid hgrant hdigest hcheck hbytes
    have hrepeats : Operations.dispatch s' session.request session.peer env answers =
        .ok (.repeated record.result) := by
      obtain hlookup | hended := completed_run honce.serving hrecord hcomplete later
      · subst hid
        exact dispatch_repeats hlookup hcomplete hgrant hdigest hcheck hbytes
      · rw [← hgrant] at hended
        exact absurd hcheck (hended.refuses _ _ _ _ _ _)
    refine ⟨hrepeats, step_dispatch_of_not_begun hsession hphase (fun next begun hbegun => ?_) _⟩
    rw [hrepeats] at hbegun
    cases hbegun
  · intro started hstarted number session env answers effect hsession hphase hid hgrant hne hfree
    obtain ⟨error, herror⟩ := dispatch_conflict (honce.retained hstarted) hid hgrant
      (fun heq => hne (hfree heq)) session.peer env answers
    refine ⟨⟨error, herror⟩,
      step_dispatch_of_not_begun hsession hphase (fun next begun hbegun => ?_) _⟩
    rw [herror] at hbegun
    cases hbegun

end Manager

end Ficc.Federation
