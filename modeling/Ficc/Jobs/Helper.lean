import Ficc.Execution.Spec
import Ficc.Foundations.Table

/-!
# The helper of managed jobs

The controller runs a job on a machine by a call of the helper there, over SSH. The helper keeps
the request of a job in a directory, which is published by one rename before the job is started,
and the receipts of the job beside it. What the operating system says during a call is its
`Environment`.

A call that raises answers with an error that says whether it is uncertain. A submission is
uncertain if its request is there when the call ends.
-/

namespace Ficc.Jobs

open Execution

/-- The states of a job on a machine, on both sides. -/
inductive JobState
  | queued | dispatching | running | cancelRequested | unknown
  | succeeded | failed | cancelled | interrupted
deriving DecidableEq

/-- The states of a final result. -/
def TERMINAL : List JobState := [.succeeded, .failed, .cancelled, .interrupted]

/-- A reservation of a GPU. -/
structure Reservation where
  uuid : String
  memoryBytes : ℕ
deriving DecidableEq

/-- A job of a user. What is only passed on is left as one text. -/
structure Job where
  content : String
  allowSessionLifetime : Bool
  gpuReservations : Table Identity (List Reservation)
deriving DecidableEq

/-- The reservations of a job on a machine. -/
def Job.reservations (job : Job) (nodeId : Identity) : List Reservation :=
  (job.gpuReservations.lookup nodeId).getD []

/-- The job as it is sent to a machine, with the reservations there. -/
def Job.restrict (job : Job) (nodeId : Identity) : Job :=
  { job with
    gpuReservations := match job.gpuReservations.lookup nodeId with
      | some reservations => AList.singleton nodeId reservations
      | none => ∅ }

/-- The job that is sent has the reservations of its machine. -/
theorem Job.reservations_restrict (job : Job) (nodeId : Identity) :
    (job.restrict nodeId).reservations nodeId = job.reservations nodeId := by
  unfold Job.restrict Job.reservations
  cases job.gpuReservations.lookup nodeId with
  | none => rfl
  | some reservations => simp [AList.lookup, AList.singleton]

/-- What a call asks of the helper. -/
inductive Action
  | submit (job : Job) (nodeId : Identity)
  | status
  | cancel (force : Bool)
deriving DecidableEq

/-- The body of a call. -/
structure Payload where
  controllerId : Identity
  jobId : Identity
  action : Action
deriving DecidableEq

/-- The published directory of a job: its request, its receipts and its markers. -/
structure Receipt where
  controllerId : Identity
  digest : Digest
  bootId : Identity
  reservations : List Reservation
  /-- The content of `result.json`. -/
  result : Option JobState
  /-- There is a `cancel.json`. -/
  cancel : Bool
  /-- The content of `launch_error.json`. -/
  launchError : Option String
deriving DecidableEq

/-- An answer about a job. A field that is absent is `none`. -/
structure Response where
  jobId : Identity
  state : JobState
  reservations : Option (List Reservation)
  error : Option (Option String)
deriving DecidableEq

/-- What the helper prints. -/
inductive Reply
  | result (response : Response)
  | error (text : String) (uncertain : Bool)
deriving DecidableEq

/-- What the service manager says about the unit of a job. -/
inductive UnitStatus
  | notFound
  /-- The unit has another name or description. -/
  | foreign
  | active
  | ended (populated success : Bool)
deriving DecidableEq

/-- What becomes of the start of a unit. -/
inductive Launch
  | started
  /-- An error that the helper catches and keeps. -/
  | failed (text : String)
  /-- Another error. -/
  | raised (error : Error)

/-- What the operating system says during a call. -/
structure Environment where
  bootId : Identity
  unit : Identity → Except Error UnitStatus
  /-- Managed jobs are unavailable, or depend on the login session. -/
  refusal : Option Error
  /-- The retained output is too large. -/
  outputFull : Bool
  /-- Storage or GPU memory is short. -/
  shortage : Option Error
  launch : Launch

/-- The state of the helper on a machine. -/
structure Helper where
  /-- The content of `controller.json`. -/
  owner : Option Identity
  jobs : Table Identity Receipt
  /-- The jobs whose units it was asked to start. -/
  launched : List Identity

/-- The text of an error. -/
def text : Error → String
  | .failure _ message _ => message
  | .conflict text => text
  | .value text => text
  | .os => "Input/output error"
  | .integrity => "Integrity error"

namespace Helper

/-- A machine without jobs. -/
def empty : Helper := ⟨none, ∅, []⟩

/-- Writes the final result of a job. -/
def finish (s : Helper) (jobId : Identity) (receipt : Receipt) (result : JobState) : Helper :=
  { s with jobs := s.jobs.insert jobId { receipt with result := some result } }

/-- The state of a job, with its final result written when it can be told. -/
def snapshot (env : Environment) (s : Helper) (jobId : Identity) :
    Helper × Except Error Response :=
  match s.jobs.lookup jobId with
  | none => (s, .error .os)
  | some receipt =>
    let answer (state : JobState) (error : Option String) : Response :=
      ⟨jobId, state, some receipt.reservations, some error⟩
    match receipt.result with
    | some result => (s, .ok (answer result none))
    | none =>
      if receipt.bootId ≠ env.bootId then
        (s.finish jobId receipt .interrupted, .ok (answer .interrupted none))
      else
        match env.unit jobId with
        | .error error => (s, .error error)
        | .ok .notFound =>
          (s, .ok (answer .unknown (some (receipt.launchError.getD
            "No unit or result confirms the launch outcome."))))
        | .ok .foreign =>
          (s, .error (.value "The unit identity does not match the saved job."))
        | .ok .active =>
          (s, .ok (answer (if receipt.cancel then .cancelRequested else .running) none))
        | .ok (.ended true _) =>
          (s, .ok (answer .unknown (some "The job service still has remaining processes.")))
        | .ok (.ended false success) =>
          let result := if success then .interrupted else if receipt.cancel then .cancelled
            else .failed
          (s.finish jobId receipt result, .ok (answer result none))

/-- Looks at the retained jobs in order. Says whether one of them is not final. -/
def survey (env : Environment) (s : Helper) : List Identity → Helper × Except Error Bool
  | [] => (s, .ok false)
  | jobId :: jobIds =>
    match s.snapshot env jobId with
    | (s, .error error) => (s, .error error)
    | (s, .ok status) =>
      match s.survey env jobIds with
      | (s, .error error) => (s, .error error)
      | (s, .ok busy) => (s, .ok (busy || decide (status.state ∉ TERMINAL)))

variable [Hash (Job × Identity)]

/-- The request of a job. -/
def request (env : Environment) (controllerId : Identity) (job : Job) (nodeId : Identity) :
    Receipt :=
  ⟨controllerId, Hash.digest (job, nodeId), env.bootId, job.reservations nodeId, none, false, none⟩

omit [Hash (Job × Identity)] in
/-- The request of a job is published, and its unit is about to be started. -/
def store (s : Helper) (jobId : Identity) (request : Receipt) : Helper :=
  { s with jobs := s.jobs.insert jobId request, launched := jobId :: s.launched }

/-- Publishes the request of a job and starts its unit. -/
def publish (env : Environment) (s : Helper) (controllerId jobId : Identity) (job : Job)
    (nodeId : Identity) : Helper × Except Error Response :=
  let request := request env controllerId job nodeId
  let s := s.store jobId request
  match env.launch with
  | .started => s.snapshot env jobId
  | .failed text =>
    ({ s with jobs := s.jobs.insert jobId { request with launchError := some text } },
      .ok ⟨jobId, .unknown, some request.reservations, some (some text)⟩)
  | .raised error => (s, .error error)

/-- Admits a new job. -/
def admitJob (env : Environment) (s : Helper) (controllerId jobId : Identity) (job : Job)
    (nodeId : Identity) : Helper × Except Error Response :=
  match env.refusal with
  | some error => (s, .error error)
  | none =>
    if 256 ≤ s.jobs.entries.length then
      (s, .error (.value "Retained job receipt capacity is full."))
    else
      match s.survey env s.jobs.keys with
      | (s, .error error) => (s, .error error)
      | (s, .ok busy) =>
        if env.outputFull = true then
          (s, .error (.value "Retained job output capacity is full."))
        else if busy = true then
          (s, .error (.value "Another job is active or has an unknown outcome."))
        else
          match env.shortage with
          | some error => (s, .error error)
          | none => s.publish env controllerId jobId job nodeId

/-- Submits a job. A request that is there is not started again. -/
def submit (env : Environment) (s : Helper) (controllerId jobId : Identity) (job : Job)
    (nodeId : Identity) : Helper × Except Error Response :=
  match s.jobs.lookup jobId with
  | some old =>
    if old.digest ≠ Hash.digest (job, nodeId) ∨ old.controllerId ≠ controllerId then
      (s, .error (.value "The job identity has a different request."))
    else s.snapshot env jobId
  | none => s.admitJob env controllerId jobId job nodeId

/-- Marks a job as cancelled and stops its unit. -/
def cancelJob (env : Environment) (s : Helper) (jobId : Identity) (receipt : Receipt) :
    Helper × Except Error Response :=
  match s.snapshot env jobId with
  | (s, .error error) => (s, .error error)
  | (s, .ok status) =>
    if status.state ∈ TERMINAL then (s, .ok status)
    else
      let s : Helper := { s with jobs := s.jobs.insert jobId { receipt with cancel := true } }
      match env.unit jobId with
      | .error error => (s, .error error)
      | .ok .foreign =>
        (s, .error (.value "The unit identity does not match the saved job."))
      | .ok _ => s.snapshot env jobId

/-- Does what a call asks, for the controller that owns the jobs of the machine. -/
def dispatch (env : Environment) (s : Helper) (payload : Payload) :
    Helper × Except Error Response :=
  if ∃ owner ∈ s.owner, owner ≠ payload.controllerId then
    (s, .error (.value "This node job namespace belongs to another controller."))
  else
    let s : Helper := { s with owner := some payload.controllerId }
    match payload.action with
    | .submit job nodeId => s.submit env payload.controllerId payload.jobId job nodeId
    | action =>
      match s.jobs.lookup payload.jobId with
      | none =>
        (s, .ok ⟨payload.jobId, .unknown, none, some (some "No retained request confirms this job.")⟩)
      | some receipt =>
        if receipt.controllerId ≠ payload.controllerId then
          (s, .error (.value "Invalid controller identity."))
        else
          match action with
          | .cancel _ => s.cancelJob env payload.jobId receipt
          | _ => s.snapshot env payload.jobId

/-- Handles a call. -/
def main (env : Environment) (s : Helper) (payload : Payload) : Helper × Reply :=
  match s.dispatch env payload with
  | (s, .ok response) => (s, .result response)
  | (s, .error error) =>
    let uncertain :=
      match payload.action with
      | .submit _ _ => (s.jobs.lookup payload.jobId).isSome
      | _ => true
    (s, .error (text error) uncertain)

/-- The runner of a job writes its result. -/
def complete (s : Helper) (jobId : Identity) (result : JobState) : Helper :=
  match s.jobs.lookup jobId with
  | some receipt => if receipt.result = none then s.finish jobId receipt result else s
  | none => s

section Requests

/-- The reservations of the request of a job, if there is one. -/
def known (s : Helper) (jobId : Identity) : Option (List Reservation) :=
  (s.jobs.lookup jobId).map Receipt.reservations

/-- The two states have the same requests, and the same units have been started. -/
structure Keeps (s s' : Helper) : Prop where
  known : s'.known = s.known
  launched : s'.launched = s.launched

omit [Hash (Job × Identity)]

theorem Keeps.refl (s : Helper) : Keeps s s := ⟨rfl, rfl⟩

variable {s : Helper} {jobId : Identity}

theorem Keeps.trans {s' s'' : Helper} (h : Keeps s s') (h' : Keeps s' s'') : Keeps s s'' :=
  ⟨h'.known.trans h.known, h'.launched.trans h.launched⟩

/-- Writing a receipt or a marker of a job. -/
theorem keeps_insert {old new : Receipt} (hold : s.jobs.lookup jobId = some old)
    (hnew : new.reservations = old.reservations) :
    Keeps s { s with jobs := s.jobs.insert jobId new } := by
  refine ⟨funext fun other => ?_, rfl⟩
  simp only [known, Table.lookup_insert_eq]
  split_ifs with hother
  · rw [hother, hold, Option.map_some, Option.map_some, hnew]
  · rfl

theorem keeps_snapshot (env : Environment) (s : Helper) (jobId : Identity) :
    Keeps s (s.snapshot env jobId).1 := by
  unfold snapshot
  cases hlookup : s.jobs.lookup jobId with
  | none => exact .refl s
  | some receipt =>
    dsimp only
    cases receipt.result with
    | some result => exact .refl s
    | none =>
      dsimp only
      by_cases hboot : receipt.bootId ≠ env.bootId
      · rw [if_pos hboot]
        exact keeps_insert hlookup rfl
      · rw [if_neg hboot]
        rcases env.unit jobId with error | _ | _ | _ | ⟨_ | _, success⟩
        case ok.ended.false => exact keeps_insert hlookup rfl
        all_goals exact .refl s

theorem keeps_complete (s : Helper) (jobId : Identity) (result : JobState) :
    Keeps s (s.complete jobId result) := by
  unfold complete
  cases hlookup : s.jobs.lookup jobId with
  | none => exact .refl s
  | some receipt =>
    dsimp only
    split_ifs
    · exact keeps_insert hlookup rfl
    · exact .refl s

/-- The answer about a job gives the reservations of its request. -/
theorem snapshot_eq_ok {env : Environment} {response : Response}
    (h : (s.snapshot env jobId).2 = .ok response) :
    response.jobId = jobId ∧ response.reservations = s.known jobId := by
  unfold snapshot at h
  cases hlookup : s.jobs.lookup jobId with
  | none =>
    rw [hlookup] at h
    cases h
  | some receipt =>
    have hknown : s.known jobId = some receipt.reservations := by rw [known, hlookup, Option.map_some]
    rw [hlookup] at h
    dsimp only at h
    rw [hknown]
    cases hresult : receipt.result with
    | some result =>
      rw [hresult] at h
      cases h
      exact ⟨rfl, rfl⟩
    | none =>
      rw [hresult] at h
      dsimp only at h
      by_cases hboot : receipt.bootId ≠ env.bootId
      · rw [if_pos hboot] at h
        cases h
        exact ⟨rfl, rfl⟩
      · rw [if_neg hboot] at h
        rcases hunit : env.unit jobId with error | _ | _ | _ | ⟨_ | _, success⟩ <;>
          rw [hunit] at h <;> cases h <;> exact ⟨rfl, rfl⟩

theorem keeps_survey (env : Environment) (s : Helper) (jobIds : List Identity) :
    Keeps s (s.survey env jobIds).1 := by
  induction jobIds generalizing s with
  | nil => exact .refl s
  | cons jobId jobIds ih =>
    have hfirst := keeps_snapshot env s jobId
    unfold survey
    rcases hsnapshot : s.snapshot env jobId with ⟨next, error | status⟩
    · rw [hsnapshot] at hfirst
      exact hfirst
    · rw [hsnapshot] at hfirst
      have hrest := hfirst.trans (ih next)
      dsimp only
      rcases hsurvey : next.survey env jobIds with ⟨last, error | busy⟩ <;>
        rw [hsurvey] at hrest <;> exact hrest

/-- What a call did to the requests: nothing, or it has published the request of its job. -/
inductive Handles (s s' : Helper) (payload : Payload) : Prop
  | kept (keeps : Keeps s s')
  | published {job : Job} {nodeId : Identity} (action : payload.action = .submit job nodeId)
    (absent : s.known payload.jobId = none)
    (known : s'.known = Function.update s.known payload.jobId (some (job.reservations nodeId)))
    (launched : s'.launched = payload.jobId :: s.launched)

/-- What a call answers: about its own job, with the reservations of the request. -/
def Answers (s' : Helper) (jobId : Identity) (result : Except Error Response) : Prop :=
  ∀ response, result = .ok response → response.jobId = jobId ∧
    ∀ reservations ∈ response.reservations, s'.known jobId = some reservations

theorem answers_error (error : Error) :
    s.Answers jobId (.error error) := nofun

theorem answers_snapshot (env : Environment) (s : Helper) (jobId : Identity) :
    (s.snapshot env jobId).1.Answers jobId (s.snapshot env jobId).2 := by
  intro response h
  obtain ⟨hid, hreservations⟩ := snapshot_eq_ok h
  refine ⟨hid, fun reservations hmem => ?_⟩
  rw [(keeps_snapshot env s jobId).known, ← hreservations]
  exact hmem

theorem cancelJob_spec (env : Environment) {receipt : Receipt}
    (hlookup : s.jobs.lookup jobId = some receipt) :
    Keeps s (s.cancelJob env jobId receipt).1 ∧
      (s.cancelJob env jobId receipt).1.Answers jobId (s.cancelJob env jobId receipt).2 := by
  have hkeeps := keeps_snapshot env s jobId
  have hanswers := answers_snapshot env s jobId
  unfold cancelJob
  rcases hsnapshot : s.snapshot env jobId with ⟨next, error | status⟩
  · rw [hsnapshot] at hkeeps
    exact ⟨hkeeps, answers_error _⟩
  rw [hsnapshot] at hkeeps hanswers
  dsimp only
  split_ifs
  · exact ⟨hkeeps, hanswers⟩
  -- The marker is written into a directory that is still there.
  obtain ⟨found, hfound, hreservations⟩ : ∃ found, next.jobs.lookup jobId = some found ∧
      receipt.reservations = found.reservations := by
    have hknown : next.known jobId = some receipt.reservations := by
      rw [hkeeps.known, known, hlookup, Option.map_some]
    obtain ⟨found, hfound, heq⟩ := Option.map_eq_some_iff.mp hknown
    exact ⟨found, hfound, heq.symm⟩
  have hmarked : Keeps s { next with
      jobs := next.jobs.insert jobId { receipt with cancel := true } } :=
    hkeeps.trans (keeps_insert hfound hreservations)
  rcases env.unit jobId with error | unit
  · exact ⟨hmarked, answers_error _⟩
  · cases unit with
    | foreign => exact ⟨hmarked, answers_error _⟩
    | _ => exact ⟨hmarked.trans (keeps_snapshot _ _ _), answers_snapshot _ _ _⟩

variable [Hash (Job × Identity)]

theorem publish_spec (env : Environment) {payload : Payload} {job : Job} {nodeId : Identity}
    (haction : payload.action = .submit job nodeId) (habsent : s.known payload.jobId = none) :
    Handles s (s.publish env payload.controllerId payload.jobId job nodeId).1 payload ∧
      (s.publish env payload.controllerId payload.jobId job nodeId).1.Answers payload.jobId
        (s.publish env payload.controllerId payload.jobId job nodeId).2 := by
  generalize hrequest : request env payload.controllerId job nodeId = receipt
  generalize hnext : s.store payload.jobId receipt = next
  have hreservations : receipt.reservations = job.reservations nodeId := hrequest ▸ rfl
  have hlookup : next.jobs.lookup payload.jobId = some receipt := by
    rw [← hnext]
    exact AList.lookup_insert _
  have hknown : next.known =
      Function.update s.known payload.jobId (some (job.reservations nodeId)) := by
    rw [← hnext]
    funext other
    simp only [known, store, Table.lookup_insert_eq, Function.update_apply]
    split_ifs with hother
    · rw [Option.map_some, hreservations]
    · rfl
  have hlaunched : next.launched = payload.jobId :: s.launched := by
    rw [← hnext]
    rfl
  have hself : next.known payload.jobId = some receipt.reservations := by
    rw [known, hlookup, Option.map_some]
  -- Whatever follows keeps the published request.
  have hthen {last : Helper} (hkeeps : Keeps next last) : Handles s last payload :=
    .published haction habsent (hkeeps.known.trans hknown) (hkeeps.launched.trans hlaunched)
  unfold publish
  simp only [hrequest, hnext]
  cases env.launch with
  | started => exact ⟨hthen (keeps_snapshot _ _ _), answers_snapshot _ _ _⟩
  | failed text =>
    have hwritten : Keeps next { next with
        jobs := next.jobs.insert payload.jobId { receipt with launchError := some text } } :=
      keeps_insert hlookup rfl
    refine ⟨hthen hwritten, ?_⟩
    intro response h
    cases h
    refine ⟨rfl, fun reservations hmem => ?_⟩
    rw [hwritten.known, hself]
    exact hmem
  | raised error => exact ⟨hthen (.refl _), answers_error _⟩

theorem submit_spec (env : Environment) {payload : Payload} {job : Job} {nodeId : Identity}
    (haction : payload.action = .submit job nodeId) :
    Handles s (s.submit env payload.controllerId payload.jobId job nodeId).1 payload ∧
      (s.submit env payload.controllerId payload.jobId job nodeId).1.Answers payload.jobId
        (s.submit env payload.controllerId payload.jobId job nodeId).2 := by
  unfold submit
  cases hlookup : s.jobs.lookup payload.jobId with
  | some old =>
    dsimp only
    split_ifs
    · exact ⟨.kept (.refl s), answers_error _⟩
    · exact ⟨.kept (keeps_snapshot _ _ _), answers_snapshot _ _ _⟩
  | none =>
    have hrefused (error : Error) : Handles s s payload ∧ s.Answers payload.jobId (.error error) :=
      ⟨.kept (.refl s), answers_error _⟩
    have hsurvey := keeps_survey env s s.jobs.keys
    have habsent : s.known payload.jobId = none := by rw [known, hlookup, Option.map_none]
    dsimp only
    unfold admitJob
    cases env.refusal with
    | some error => exact hrefused _
    | none =>
      dsimp only
      by_cases hcapacity : 256 ≤ s.jobs.entries.length
      · rw [if_pos hcapacity]
        exact hrefused _
      rw [if_neg hcapacity]
      rcases hsurveyed : s.survey env s.jobs.keys with ⟨next, error | busy⟩
      · rw [hsurveyed] at hsurvey
        exact ⟨.kept hsurvey, answers_error _⟩
      rw [hsurveyed] at hsurvey
      dsimp only
      by_cases hfull : env.outputFull = true
      · rw [if_pos hfull]
        exact ⟨.kept hsurvey, answers_error _⟩
      rw [if_neg hfull]
      by_cases hbusy : busy = true
      · rw [if_pos hbusy]
        exact ⟨.kept hsurvey, answers_error _⟩
      rw [if_neg hbusy]
      cases env.shortage with
      | some error => exact ⟨.kept hsurvey, answers_error _⟩
      | none =>
        obtain ⟨hhandles, hanswers⟩ := publish_spec env haction
          (by rw [hsurvey.known, habsent] : next.known payload.jobId = none)
        refine ⟨?_, hanswers⟩
        cases hhandles with
        | kept keeps => exact .kept (hsurvey.trans keeps)
        | published action absent known launched =>
          exact .published action habsent (known.trans (by rw [hsurvey.known]))
            (launched.trans (by rw [hsurvey.launched]))

theorem dispatch_spec (env : Environment) (s : Helper) (payload : Payload) :
    Handles s (s.dispatch env payload).1 payload ∧
      (s.dispatch env payload).1.Answers payload.jobId (s.dispatch env payload).2 := by
  unfold dispatch
  split_ifs
  · exact ⟨.kept (.refl s), answers_error _⟩
  dsimp only
  generalize hnext : ({ s with owner := some payload.controllerId } : Helper) = next
  have howned : Keeps s next := by
    rw [← hnext]
    exact ⟨rfl, rfl⟩
  have hjobs : next.jobs = s.jobs := by rw [← hnext]
  have hkept {last : Helper} (hkeeps : Keeps next last) : Handles s last payload :=
    .kept (howned.trans hkeeps)
  cases haction : payload.action with
  | submit job nodeId =>
    obtain ⟨hhandles, hanswers⟩ := submit_spec env (s := next) haction
    refine ⟨?_, hanswers⟩
    cases hhandles with
    | kept keeps => exact hkept keeps
    | published action absent known launched =>
      exact .published action (howned.known ▸ absent) (howned.known ▸ known)
        (howned.launched ▸ launched)
  | status =>
    dsimp only
    cases hlookup : s.jobs.lookup payload.jobId with
    | none =>
      refine ⟨hkept (.refl _), ?_⟩
      rintro response ⟨⟩
      exact ⟨rfl, nofun⟩
    | some receipt =>
      dsimp only
      split_ifs
      · exact ⟨hkept (.refl _), answers_error _⟩
      · exact ⟨hkept (keeps_snapshot _ _ _), answers_snapshot _ _ _⟩
  | cancel force =>
    dsimp only
    cases hlookup : s.jobs.lookup payload.jobId with
    | none =>
      refine ⟨hkept (.refl _), ?_⟩
      rintro response ⟨⟩
      exact ⟨rfl, nofun⟩
    | some receipt =>
      rw [← hjobs] at hlookup
      obtain ⟨hkeeps, hanswers⟩ := cancelJob_spec env hlookup
      dsimp only
      split_ifs
      · exact ⟨hkept (.refl _), answers_error _⟩
      · exact ⟨hkept hkeeps, hanswers⟩

/-- A call keeps the requests or publishes that of its job, and it answers about its job. When it
says that a submission is not uncertain, there is no request. -/
theorem main_spec (env : Environment) (s : Helper) (payload : Payload) :
    Handles s (s.main env payload).1 payload ∧
      (∀ response, (s.main env payload).2 = .result response → response.jobId = payload.jobId ∧
        ∀ reservations ∈ response.reservations,
          (s.main env payload).1.known payload.jobId = some reservations) ∧
      ∀ text, (s.main env payload).2 = .error text false →
        (∃ job nodeId, payload.action = .submit job nodeId) ∧
          (s.main env payload).1.known payload.jobId = none := by
  obtain ⟨hhandles, hanswers⟩ := dispatch_spec env s payload
  unfold main
  rcases hdispatch : s.dispatch env payload with ⟨next, error | response⟩
  · rw [hdispatch] at hhandles
    refine ⟨hhandles, nofun, ?_⟩
    intro text h
    have huncertain := (Reply.error.inj h).2
    cases haction : payload.action with
    | submit job nodeId =>
      rw [haction] at huncertain
      refine ⟨⟨job, nodeId, rfl⟩, ?_⟩
      rw [known, Option.map_eq_none_iff]
      simpa using huncertain
    | status =>
      rw [haction] at huncertain
      cases huncertain
    | cancel force =>
      rw [haction] at huncertain
      cases huncertain
  · rw [hdispatch] at hhandles hanswers
    refine ⟨hhandles, ?_, nofun⟩
    intro other h
    cases h
    exact hanswers response rfl

end Requests

end Helper

end Ficc.Jobs
