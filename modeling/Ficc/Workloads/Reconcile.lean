import Ficc.Workloads.Commands

/-!
# Reconciliation by pages

Before the runner uses an executor it reads all attempts of its ledger, page by page, records
those that it knows, stops those that it does not know, and marks as unknown what no page
reported. Between two pages the ledger changes, and so does the controller's own store, because
every request is awaited.

The loop is a sequence of `rounds`, and round `n` takes page `n`. The cursor rises in every round,
so that the loop ends whatever the executor answers.

## Main results

* `rounds_ended`: no sequence of pages keeps the loop going.
* `sweep_spec`: what the end of the loop leaves of the attempts that it did not find.
* `History.observed_of_open`: a report of an open attempt that the loop has taken is observed.
* `reconciles_by_pages`: every attempt that an honest executor has all the time is taken exactly
  once, and what no page reported is no longer dispatched.
-/

namespace Ficc.Workloads

open Execution

namespace Commands

/-- The decoded answer of an executor to one request. -/
inductive Answer
  | failure (code message : String)
  | snapshot (deploymentId : Identity) (snapshot : Snapshot)
  | other

/-- A request whose answer has arrived. -/
def call (reply : Except Error Answer) : Except Error Answer := do
  match ← reply with
  | .failure code message => .error (.failure code message 409)
  | answer => .ok answer

/-- The snapshot after a cursor that an executor answered. -/
def snapshot (store : Store) (nodeId : Identity) (after : Option Identity)
    (reply : Except Error Answer) : Except Error Snapshot := do
  match ← call reply with
  | .snapshot deploymentId snapshot => do
    let node ← store.contributor nodeId
    raiseIf (snapshot.nodeId ≠ nodeId ∨ snapshot.deploymentId ≠ deploymentId ∨
        snapshot.offer.mode ≠ node.mode)
      (.failure "executor_identity"
        "The executor capacity does not bind the approved contributor." 409)
    let ids := snapshot.attempts.map fun item => item.attemptId
    raiseIf (ids ≠ ids.dedup.insertionSort (· ≤ ·) ∨
        (¬∀ identity ∈ ids, Keyset.Beyond after identity) ∨
        (snapshot.next ≠ none ∧ snapshot.next ≠ ids.getLast?))
      (.failure "executor_response" "The executor snapshot has an invalid attempt cursor." 502)
    .ok snapshot
  | _ =>
    .error (.failure "executor_response"
      "The executor did not return the requested capacity snapshot." 502)

end Commands

namespace Commands

/-- A page is the answer to its request. -/
theorem snapshot_eq_ok {store : Store} {nodeId : Identity} {after : Option Identity}
    {reply : Except Error Answer} {page : Snapshot}
    (h : snapshot store nodeId after reply = .ok page) :
    ∃ deploymentId, reply = .ok (.snapshot deploymentId page) := by
  simp only [snapshot, call, bind_eq_ok] at h
  obtain ⟨answer, ⟨raw, rfl, hcall⟩, h⟩ := h
  cases raw with
  | snapshot deploymentId value =>
    obtain rfl := Except.ok.inj hcall
    simp only [bind_eq_ok, raiseIf_eq_ok, exists_const, Except.ok.injEq] at h
    obtain ⟨-, -, -, -, rfl⟩ := h
    exact ⟨deploymentId, rfl⟩
  | failure code message => cases hcall
  | other =>
    obtain rfl := Except.ok.inj hcall
    cases h

end Commands

namespace Reconcile

/-- The session and the executor that a reconciliation is for. -/
structure Binding where
  session : Identity
  installationId : Identity
  ledgerId : Option Identity
deriving DecidableEq

/-- A report that the loop has taken, with the store before and after it. -/
structure Taken where
  report : Report
  before : Store
  after : Store

/-- The state of the loop. The log of the reports that it has taken is never read. -/
structure Pass where
  store : Store
  missing : List Identity
  cursor : Option Identity
  log : List Taken

/-- The identities of the reports taken so far. -/
def Pass.seen (pass : Pass) : List Identity := pass.log.map fun taken => taken.report.attemptId

/-- The pass after a report has been taken. -/
def Pass.note (pass : Pass) (result : Report) (store : Store) : Pass :=
  { pass with store, log := pass.log ++ [⟨result, pass.store, store⟩] }

section Loop

variable [Hash Plan] [Hash Submission]

/-- What the loop awaits: the answers to its requests, with what other tasks of the controller do
to the store meanwhile. No report and no cursor is used twice in a run. -/
structure Peer where
  stop : Report → List Store.Operation × Except Error Commands.Answer
  snapshot : ℕ → Identity → List Store.Operation × Except Error Commands.Answer
  /-- The time at which an attempt is recorded. -/
  now : Identity → ℚ

/-- The loop takes one report of a page. -/
def takeReport (peer : Peer) (first : Snapshot) (result : Report) (pass : Pass) :
    Pass × Except Error Unit :=
  if ¬Keyset.Beyond pass.cursor result.attemptId then
    (pass, .error (.failure "executor_response"
      "The executor attempt cursor did not advance." 502))
  else
    let pass := { pass with
      cursor := some result.attemptId
      missing := pass.missing.filter fun identity => identity ≠ result.attemptId }
    match pass.store.attempt result.attemptId with
    | .error _ =>
      if result.state ∉ TERMINAL ∧ result.state ≠ .released then
        let (operations, reply) := peer.stop result
        ({ pass.note result pass.store with store := run Store.step pass.store operations },
          (Commands.call reply).map fun _ => ())
      else (pass.note result pass.store, .ok ())
    | .ok attempt =>
      if attempt.state ≠ .released ∧ attempt.state ≠ .abandoned then
        let (store, recorded) :=
          Commands.observation pass.store result first (peer.now result.attemptId)
        (pass.note result store, recorded.map fun _ => ())
      else (pass.note result pass.store, .ok ())

/-- The loop takes the reports of a page in order. -/
def takeReports (peer : Peer) (first : Snapshot) : List Report → Pass → Pass × Except Error Unit :=
  forEach (takeReport peer first)

/-- Marks an attempt that no page has reported. -/
def mark (peer : Peer) (identity : Identity) (store : Store) : Store × Except Error Unit :=
  match Commands.uncertain store identity "attempt_not_observed" (peer.now identity) with
  | .error e => (store, .error e)
  | .ok store => (store, .ok ())

/-- Marks what no page has reported. The order of the set does not matter when all are marked. -/
def sweep (peer : Peer) : List Identity → Store → Store × Except Error Unit :=
  forEach (mark peer)

/-- The loop between two rounds. -/
inductive Status
  /-- The session and the executor have been reconciled before. -/
  | bound
  | reading (page : Snapshot) (pass : Pass)
  | raised (error : Error) (store : Store)
  | reconciled (pass : Pass) (store : Store)

/-- The loop does not go on. -/
def Status.Ended : Status → Prop
  | .reading .. => False
  | _ => True

/-- The executor of a page is the one of the first page. -/
def sameExecutor (page first : Snapshot) : Prop :=
  (page.installationId, page.ledgerId, page.admissionVersion, page.offer) =
    (first.installationId, first.ledgerId, first.admissionVersion, first.offer)

instance (page first : Snapshot) : Decidable (sameExecutor page first) :=
  inferInstanceAs (Decidable (_ = _))

/-- One round of the loop. -/
def turn (peer : Peer) (nodeId : Identity) (first : Snapshot) (n : ℕ) : Status → Status
  | .reading page pass =>
    if ¬sameExecutor page first then
      .raised (.failure "executor_changed"
        "The executor changed while reconciling its attempts." 409) pass.store
    else match takeReports peer first page.attempts pass with
      | (pass, .error e) => .raised e pass.store
      | (pass, .ok _) =>
        match page.next with
        | none =>
          match sweep peer pass.missing pass.store with
          | (store, .error e) => .raised e store
          | (store, .ok _) => .reconciled pass store
        | some next =>
          if page.attempts = [] ∨ some next ≠ pass.cursor then
            .raised (.failure "executor_response"
              "The executor attempt cursor differs from its page." 502) pass.store
          else
            let (operations, reply) := peer.snapshot n next
            let store := run Store.step pass.store operations
            match Commands.snapshot store nodeId (some next) reply with
            | .error e => .raised e store
            | .ok page => .reading page { pass with store }
  | status => status

/-- The attempts of a node that are neither released nor abandoned. -/
def openAttempts (store : Store) (nodeId : Identity) : List Attempt :=
  (store.attemptsOn nodeId).filter fun item => item.state ≠ .released ∧ item.state ≠ .abandoned

/-- The reconciliation of a node before its first round. -/
def begin (reconciled : Option Binding) (session : Except Error Identity) (store : Store)
    (nodeId : Identity) (first : Snapshot) : Status :=
  match session with
  | .error e => .raised e store
  | .ok session =>
    if reconciled = some ⟨session, first.installationId, first.ledgerId⟩ then .bound
    else .reading first ⟨store, (openAttempts store nodeId).map Attempt.id, none, []⟩

/-- The loop after a number of rounds. -/
def rounds (peer : Peer) (reconciled : Option Binding) (session : Except Error Identity)
    (store : Store) (nodeId : Identity) (first : Snapshot) : ℕ → Status
  | 0 => begin reconciled session store nodeId first
  | n + 1 => turn peer nodeId first n (rounds peer reconciled session store nodeId first n)

end Loop

section Reports

variable [Hash Plan] [Hash Submission] {peer : Peer} {first : Snapshot} {pass pass' : Pass}

/-- The identities of reports. -/
def ids (reports : List Report) : List Identity := reports.map fun item => item.attemptId

/-- The controller holds the attempt of the report open when the report is taken. -/
def Taken.Open (taken : Taken) : Prop :=
  ∃ attempt, taken.before.lookupAttempt taken.report.attemptId = some attempt ∧
    attempt.state ≠ .released ∧ attempt.state ≠ .abandoned

/-- The report is given to `Commands.observation`, which records it. -/
def Taken.Observed (peer : Peer) (first : Snapshot) (taken : Taken) : Prop :=
  ∃ attempt, Commands.observation taken.before taken.report first
    (peer.now taken.report.attemptId) = (taken.after, .ok attempt)

/-- The second store comes from the first by taking the reports of the log, with operations of other
tasks in between. The report of an open attempt is observed, and another changes nothing. -/
inductive History (peer : Peer) (first : Snapshot) (store : Store) : List Taken → Store → Prop
  | begun : History peer first store [] store
  | others {log : List Taken} {store' : Store} (operations : List Store.Operation)
      (h : History peer first store log store') :
      History peer first store log (run Store.step store' operations)
  | observed {log : List Taken} {taken : Taken} (h : History peer first store log taken.before)
      (hopen : taken.Open) (hobserved : taken.Observed peer first) :
      History peer first store (log ++ [taken]) taken.after
  | passed {log : List Taken} {taken : Taken} (h : History peer first store log taken.before)
      (hclosed : ¬taken.Open) (hsame : taken.after = taken.before) :
      History peer first store (log ++ [taken]) taken.after

/-- A report of an open attempt that the loop has taken is observed. -/
theorem History.observed_of_open {store store' : Store} {log : List Taken}
    (h : History peer first store log store') :
    ∀ taken ∈ log, taken.Open → taken.Observed peer first := by
  induction h with
  | begun => exact fun taken hmem => absurd hmem List.not_mem_nil
  | others operations h ih => exact ih
  | observed h hopen hobserved ih =>
    intro taken hmem
    obtain hmem | hmem := List.mem_append.mp hmem
    · exact ih taken hmem
    · rw [List.mem_singleton.mp hmem]
      exact fun _ => hobserved
  | passed h hclosed hsame ih =>
    intro taken hmem hopen
    obtain hmem | hmem := List.mem_append.mp hmem
    · exact ih taken hmem hopen
    · rw [List.mem_singleton.mp hmem] at hopen
      exact absurd hopen hclosed

/-- The second pass has taken the reports after the first. -/
structure Takes (peer : Peer) (first : Snapshot) (reports : List Report) (pass pass' : Pass) :
    Prop where
  ordered : (ids reports).Pairwise (· < ·)
  beyond : ∀ id ∈ ids reports, Keyset.Beyond pass.cursor id
  cursor : pass'.cursor = Keyset.advance pass.cursor (ids reports)
  seen : pass'.seen = pass.seen ++ ids reports
  missing : ∀ id, id ∈ pass'.missing ↔ id ∈ pass.missing ∧ id ∉ ids reports
  history : ∀ store, History peer first store pass.log pass.store →
    History peer first store pass'.log pass'.store

omit [Hash Submission] in
theorem linked_records [Hash Submission] {store store' : Store} {report : Report}
    (hl : store.Linked) (h : Commands.Records report store store') : store'.Linked := by
  induction h with
  | refl => exact hl
  | tail _ hlast ih =>
    obtain ⟨result, job, attempt, -, hacts⟩ := hlast
    exact ih.act hacts

/-- A run of the store keeps its links. -/
theorem linked_run {store : Store} (hl : store.Linked) (operations : List Store.Operation) :
    (run Store.step store operations).Linked :=
  run_invariant (I := Store.Linked) (fun _ operation h => Store.linked_step h operation) hl
    operations

theorem History.linked {store store' : Store} {log : List Taken}
    (h : History peer first store log store') (hl : store.Linked) : store'.Linked := by
  induction h with
  | begun => exact hl
  | others operations h ih => exact linked_run ih operations
  | @observed log taken h hopen hobserved ih =>
    obtain ⟨attempt, hobservation⟩ := hobserved
    have hrecords := Commands.records_observation ih.bound taken.report first
      (peer.now taken.report.attemptId)
    rw [hobservation] at hrecords
    exact linked_records ih hrecords
  | passed h hclosed hsame ih => rwa [hsame]

/-- A report that is taken is beyond the cursor and becomes the cursor. -/
theorem takes_report {result : Report} {u : Unit}
    (h : takeReport peer first result pass = (pass', .ok u)) :
    Takes peer first [result] pass pass' := by
  unfold takeReport at h
  by_cases hbeyond : Keyset.Beyond pass.cursor result.attemptId
  swap
  · rw [if_pos hbeyond] at h
    cases (Prod.mk.inj h).2
  rw [if_neg (not_not.mpr hbeyond)] at h
  -- The branches differ in the stores alone: the one that the log has, and the one after it.
  have htakes : ∀ store after : Store, (∀ origin, History peer first origin pass.log pass.store →
      History peer first origin (pass.log ++ [⟨result, pass.store, after⟩]) store) →
      Takes peer first [result] pass
        { store
          missing := pass.missing.filter fun identity => identity ≠ result.attemptId
          cursor := some result.attemptId
          log := pass.log ++ [⟨result, pass.store, after⟩] } := by
    intro store after hhistory
    refine ⟨List.pairwise_singleton _ _, ?_, rfl, ?_, fun id => ?_, hhistory⟩
    · intro id hid
      rw [List.mem_singleton.mp hid]
      exact hbeyond
    · simp [Pass.seen, ids]
    · simp [ids, List.mem_filter]
  dsimp only at h
  split at h
  · next hunknown =>
    have hclosed : ¬(⟨result, pass.store, pass.store⟩ : Taken).Open := by
      rintro ⟨attempt, hattempt, -⟩
      rw [Store.attempt_eq_ok.mpr hattempt] at hunknown
      cases hunknown
    split at h
    · obtain ⟨rfl, -⟩ := Prod.mk.inj h
      exact htakes _ _ fun origin hbefore => (hbefore.passed hclosed rfl).others _
    · obtain ⟨rfl, -⟩ := Prod.mk.inj h
      exact htakes _ _ fun origin hbefore => hbefore.passed hclosed rfl
  · next attempt hknown =>
    have hattempt := Store.attempt_eq_ok.mp hknown
    split at h
    · next hstate =>
      obtain ⟨rfl, hrecorded⟩ := Prod.mk.inj h
      obtain ⟨recorded, hrecorded, -⟩ := map_eq_ok.mp hrecorded
      exact htakes _ _ fun origin hbefore =>
        hbefore.observed ⟨attempt, hattempt, hstate⟩ ⟨recorded, Prod.ext rfl hrecorded⟩
    · next hstate =>
      obtain ⟨rfl, -⟩ := Prod.mk.inj h
      refine htakes _ _ fun origin hbefore => hbefore.passed ?_ rfl
      rintro ⟨found, hfound, hopen⟩
      obtain rfl := Option.some.inj (hattempt.symm.trans hfound)
      exact hstate hopen

/-- One report and the rest. -/
theorem Takes.cons {result : Report} {rest : List Report} {middle : Pass}
    (h : Takes peer first [result] pass middle) (h' : Takes peer first rest middle pass') :
    Takes peer first (result :: rest) pass pass' := by
  have hcursor : middle.cursor = some result.attemptId := h.cursor
  have hgreater : ∀ id ∈ ids rest, result.attemptId < id := fun id hid =>
    h'.beyond id hid result.attemptId hcursor
  have hbeyond : Keyset.Beyond pass.cursor result.attemptId :=
    h.beyond result.attemptId (List.mem_singleton_self _)
  refine ⟨List.pairwise_cons.mpr ⟨hgreater, h'.ordered⟩, ?_, ?_, ?_, fun id => ?_,
    fun store hbefore => h'.history store (h.history store hbefore)⟩
  · intro id hid
    rcases List.mem_cons.mp hid with rfl | hrest
    · exact hbeyond
    · exact fun last hlast => (hbeyond last hlast).trans (hgreater id hrest)
  · rw [h'.cursor, hcursor, Keyset.advance, Keyset.advance]
    cases rest with
    | nil => rfl
    | cons next rest =>
      have hlast : (ids (next :: rest)).getLast? = some _ :=
        List.getLast?_eq_some_getLast (List.cons_ne_nil _ _)
      have hlast' : (ids (result :: next :: rest)).getLast? = some _ :=
        List.getLast?_eq_some_getLast (List.cons_ne_nil _ _)
      rw [hlast, hlast']
      rfl
  · rw [h'.seen, h.seen, List.append_assoc]
    rfl
  · rw [h'.missing, h.missing, and_assoc]
    simp [ids]

/-- The reports of a page are taken one by one. -/
theorem takes_reports {reports : List Report} {u : Unit}
    (h : takeReports peer first reports pass = (pass', .ok u)) :
    Takes peer first reports pass pass' := by
  refine forEach_relates (R := Takes peer first) (fun pass => ?_) (fun result rest pass middle pass' => ?_) h
  · exact ⟨.nil, by simp [ids], rfl, (List.append_nil _).symm, fun id => by simp [ids],
      fun _ => id⟩
  · exact fun hresult hrest => (takes_report hresult).cons hrest

end Reports

section Rounds

variable [Hash Plan] [Hash Submission] {peer : Peer} {reconciled : Option Binding}
  {session : Except Error Identity} {store store' : Store} {nodeId : Identity} {first : Snapshot}
  {n : ℕ} {pass : Pass}

/-- A round that reads a page follows one that took all reports of the page before. -/
theorem turn_eq_reading {status : Status} {page : Snapshot}
    (h : turn peer nodeId first n status = .reading page pass) :
    ∃ page₀ pass₀ pass₁ next, status = .reading page₀ pass₀ ∧
      Takes peer first page₀.attempts pass₀ pass₁ ∧ page₀.attempts ≠ [] ∧ page₀.next = some next ∧
      pass₁.cursor = some next ∧
      pass = { pass₁ with store := run Store.step pass₁.store (peer.snapshot n next).1 } ∧
      Commands.snapshot pass.store nodeId (some next) (peer.snapshot n next).2 = .ok page := by
  cases status with
  | reading page₀ pass₀ =>
    unfold turn at h
    dsimp only at h
    split at h
    · cases h
    split at h
    · cases h
    rename_i pass₁ u hreports
    split at h
    · split at h <;> cases h
    rename_i next hnext
    split at h
    · cases h
    rename_i hcursor
    rw [not_or, not_not] at hcursor
    split at h
    · cases h
    rename_i page' hsnapshot
    cases h
    exact ⟨page₀, pass₀, pass₁, next, rfl, takes_reports hreports, hcursor.1, hnext,
      hcursor.2.symm, rfl, hsnapshot⟩
  | bound => cases h
  | raised error store => cases h
  | reconciled pass store => cases h

/-- A round that ends the loop took the last page, or found it ended. -/
theorem turn_eq_reconciled {status : Status}
    (h : turn peer nodeId first n status = .reconciled pass store') :
    status = .reconciled pass store' ∨
      ∃ page₀ pass₀ u, status = .reading page₀ pass₀ ∧
        Takes peer first page₀.attempts pass₀ pass ∧
        page₀.next = none ∧ sweep peer pass.missing pass.store = (store', .ok u) := by
  cases status with
  | reading page₀ pass₀ =>
    unfold turn at h
    dsimp only at h
    split at h
    · cases h
    split at h
    · cases h
    rename_i pass₁ u hreports
    split at h
    · rename_i hnext
      split at h
      · cases h
      · rename_i swept u' hsweep
        cases h
        exact .inr ⟨page₀, pass₀, u', rfl, takes_reports hreports, hnext, hsweep⟩
    · split at h
      · cases h
      · split at h <;> cases h
  | bound => cases h
  | raised error store => cases h
  | reconciled pass store => exact .inl h

/-- Every round moves the cursor up. -/
theorem le_cursor {page : Snapshot}
    (h : rounds peer reconciled session store nodeId first (n + 1) = .reading page pass) :
    ∃ last, pass.cursor = some last ∧ n ≤ last.toNat := by
  induction n generalizing page pass with
  | zero =>
    obtain ⟨-, -, pass₁, next, -, -, -, -, hcursor, rfl, -⟩ := turn_eq_reading h
    exact ⟨next, hcursor, Nat.zero_le _⟩
  | succ n ih =>
    obtain ⟨page₀, pass₀, pass₁, next, hstatus, htakes, hnonempty, -, hcursor, rfl, -⟩ :=
      turn_eq_reading h
    obtain ⟨last, hlast, hle⟩ := ih hstatus
    -- The new cursor is the identity of a report, and all of them are beyond the old one.
    have hmem : next ∈ ids page₀.attempts := by
      have hgetLast : (ids page₀.attempts).getLast? = some _ :=
        List.getLast?_eq_some_getLast (List.map_eq_nil_iff.not.mpr hnonempty)
      rw [htakes.cursor, Keyset.advance, hgetLast] at hcursor
      exact List.mem_of_getLast? (hgetLast.trans hcursor)
    have hlt : last.toNat < next.toNat := htakes.beyond next hmem last hlast
    exact ⟨next, hcursor, by omega⟩

/-- The loop ends, whatever the executor answers. -/
theorem rounds_ended (h : 2 ^ 128 < n) :
    (rounds peer reconciled session store nodeId first n).Ended := by
  obtain ⟨m, rfl⟩ : ∃ m, n = m + 1 := ⟨n - 1, by omega⟩
  cases hrounds : rounds peer reconciled session store nodeId first (m + 1) with
  | reading page pass =>
    obtain ⟨last, -, hle⟩ := le_cursor hrounds
    have hlt : last.toNat < 2 ^ 128 := last.isLt
    omega
  | bound => trivial
  | raised error store => trivial
  | reconciled pass store => trivial

/-- What the loop has done when it reads a page. -/
structure Progress (peer : Peer) (first : Snapshot) (store : Store) (nodeId : Identity)
    (pass : Pass) : Prop where
  history : History peer first store pass.log pass.store
  missing : ∀ id, id ∈ pass.missing ↔
    id ∈ (openAttempts store nodeId).map Attempt.id ∧ id ∉ pass.seen

/-- Taken reports are progress. -/
theorem Progress.takes {reports : List Report} {pass' : Pass}
    (h : Progress peer first store nodeId pass) (htakes : Takes peer first reports pass pass') :
    Progress peer first store nodeId pass' where
  history := htakes.history store h.history
  missing id := by
    rw [htakes.missing, h.missing, htakes.seen, List.mem_append, not_or, and_assoc]

theorem progress_reading {page : Snapshot}
    (h : rounds peer reconciled session store nodeId first n = .reading page pass) :
    Progress peer first store nodeId pass := by
  induction n generalizing page pass with
  | zero =>
    unfold rounds begin at h
    split at h
    · cases h
    split at h
    · cases h
    · cases h
      exact ⟨.begun, fun id => by simp [Pass.seen]⟩
  | succ n ih =>
    obtain ⟨page₀, pass₀, pass₁, next, hstatus, htakes, -, -, -, rfl, -⟩ := turn_eq_reading h
    have hprogress : Progress peer first store nodeId pass₁ := (ih hstatus).takes htakes
    exact ⟨hprogress.history.others _, hprogress.missing⟩

/-- The loop has ended by taking a last page. -/
theorem exists_last_page
    (h : rounds peer reconciled session store nodeId first n = .reconciled pass store') :
    ∃ m page pass₀ u, m < n ∧
      rounds peer reconciled session store nodeId first m = .reading page pass₀ ∧
      Takes peer first page.attempts pass₀ pass ∧ page.next = none ∧
      sweep peer pass.missing pass.store = (store', .ok u) := by
  induction n with
  | zero =>
    unfold rounds begin at h
    split at h
    · cases h
    · split at h <;> cases h
  | succ n ih =>
    rcases turn_eq_reconciled h with hbefore | ⟨page, pass₀, u, hstatus, htakes, hnext, hsweep⟩
    · obtain ⟨m, page, pass₀, u, hlt, hrest⟩ := ih hbefore
      exact ⟨m, page, pass₀, u, hlt.trans n.lt_succ_self, hrest⟩
    · exact ⟨n, page, pass₀, u, n.lt_succ_self, hstatus, htakes, hnext, hsweep⟩

end Rounds

section Sweep

variable [Hash Plan] [Hash Submission] {peer : Peer} {store store' : Store}

/-- The state of an attempt that no page reported. -/
def unobserved (state : State) : State := if Dispatched state then .unknown else state

omit [Hash Plan] [Hash Submission] in
theorem unobserved_idem (state : State) : unobserved (unobserved state) = unobserved state := by
  cases state <;> rfl

/-- The second store has the attempts of the first, of which some are now unknown. -/
structure Marks (marked : List Identity) (store store' : Store) : Prop where
  linked : store'.Linked
  forth : ∀ id attempt, store.lookupAttempt id = some attempt →
    ∃ attempt', store'.lookupAttempt id = some attempt' ∧
      attempt'.state = if id ∈ marked then unobserved attempt.state else attempt.state
  back : ∀ id, store'.lookupAttempt id ≠ none → store.lookupAttempt id ≠ none
  found : ∀ id ∈ marked, store.lookupAttempt id ≠ none

/-- An attempt that is marked is uncertain. -/
theorem marks_uncertain (hl : store.Linked) {identity : Identity} {reason : String} {now : ℚ}
    (h : Commands.uncertain store identity reason now = .ok store') :
    Marks [identity] store store' := by
  simp only [Commands.uncertain, bind_eq_ok, Store.attempt_eq_ok] at h
  obtain ⟨attempt, hattempt, h⟩ := h
  have hfound : ∀ id ∈ [identity], store.lookupAttempt id ≠ none := by
    intro id hid
    rw [List.mem_singleton.mp hid, hattempt]
    exact Option.some_ne_none attempt
  split at h
  · rename_i hdispatched
    obtain ⟨⟨returned, next⟩, htransition, rfl⟩ := map_eq_ok.mp h
    obtain ⟨job, found, hid, -, -, hacts⟩ := Store.transition_eq_ok hl.bound htransition
    obtain ⟨job', attempt', -, -, htouches, -, hwrites⟩ := hacts.writes
    have hkept : attempt'.id = identity ∧ attempt'.state = .unknown := by
      obtain ⟨updatedAt, rfl⟩ := htouches
      exact ⟨hid, rfl⟩
    refine ⟨hl.act hacts, fun id other hother => ?_, fun id hsome => ?_, hfound⟩
    · rw [hwrites.attempts, hkept.1]
      by_cases hsame : id = identity
      · rw [hsame, hattempt] at hother
        obtain rfl := Option.some.inj hother
        refine ⟨attempt', if_pos hsame, ?_⟩
        rw [hkept.2, if_pos (List.mem_singleton.mpr hsame), unobserved, if_pos hdispatched]
      · refine ⟨other, (if_neg hsame).trans hother, ?_⟩
        rw [if_neg (List.mem_singleton.not.mpr hsame)]
    · by_cases hsame : id = identity
      · exact hfound id (List.mem_singleton.mpr hsame)
      · rwa [hwrites.attempts, hkept.1, if_neg hsame] at hsome
  · rename_i hrests
    obtain rfl := Except.ok.inj h
    refine ⟨hl, fun id other hother => ⟨other, hother, ?_⟩, fun _ => id, hfound⟩
    split_ifs with hid
    · rw [List.mem_singleton.mp hid, hattempt] at hother
      obtain rfl := Option.some.inj hother
      exact (if_neg hrests).symm
    · rfl

theorem marks_mark (hl : store.Linked) {identity : Identity} {u : Unit}
    (h : mark peer identity store = (store', .ok u)) : Marks [identity] store store' := by
  unfold mark at h
  split at h
  · cases (Prod.mk.inj h).2
  · next huncertain =>
    obtain ⟨rfl, -⟩ := Prod.mk.inj h
    exact marks_uncertain hl huncertain

/-- One mark and the rest. -/
theorem Marks.cons {identity : Identity} {rest : List Identity} {middle : Store}
    (h : Marks [identity] store middle) (h' : Marks rest middle store') :
    Marks (identity :: rest) store store' where
  linked := h'.linked
  forth id attempt hattempt := by
    obtain ⟨attempt₁, hattempt₁, hstate₁⟩ := h.forth id attempt hattempt
    obtain ⟨attempt₂, hattempt₂, hstate₂⟩ := h'.forth id attempt₁ hattempt₁
    refine ⟨attempt₂, hattempt₂, ?_⟩
    rw [hstate₂, hstate₁]
    -- An attempt that is marked twice is unknown after the first time.
    by_cases hsame : id = identity <;> by_cases hlater : id ∈ rest <;>
      simp [hsame, hlater, unobserved_idem]
  back id hsome := h.back id (h'.back id hsome)
  found id hid := by
    rcases List.mem_cons.mp hid with hsame | hlater
    · exact h.found id (List.mem_singleton.mpr hsame)
    · exact h.back id (h'.found id hlater)

/-- What the end of the loop leaves of the attempts that it did not find. -/
theorem sweep_spec (hl : store.Linked) {missing : List Identity} {u : Unit}
    (h : sweep peer missing store = (store', .ok u)) : Marks missing store store' := by
  refine forEach_relates
    (R := fun missing store store' => store.Linked → Marks missing store store')
    (fun store hl => ?_) (fun identity rest store middle store' hmark hrest hl => ?_) h hl
  · exact ⟨hl, fun id attempt hattempt => ⟨attempt, hattempt, by simp⟩, fun _ => id, by simp⟩
  · have hfirst := marks_mark hl hmark
    exact hfirst.cons (hrest hfirst.linked)

end Sweep

section Honest

variable [Hash Plan]

omit [Hash Plan] in
theorem ids_reports {values : List Value} {shown : List Report}
    (h : Supervisor.reports values = .ok shown) :
    ids shown = values.map fun value => value.plan.attemptId := by
  induction values generalizing shown with
  | nil =>
    obtain rfl := Except.ok.inj h
    rfl
  | cons value values ih =>
    simp only [Supervisor.reports, Value.publicReport, bind_eq_ok, Except.ok.injEq] at h
    obtain ⟨report, ⟨result, hvalid, rfl⟩, rest, hrest, rfl⟩ := h
    obtain ⟨hfence, -⟩ := AttemptResult.validate_eq_ok hvalid
    have hid : result.attemptId = value.plan.attemptId := by rw [hfence]; rfl
    rw [ids, List.map_cons, List.map_cons, hid]
    exact congrArg _ (ih hrest)

/-- The identities after a cursor that a ledger has, in order. -/
def remaining (ledger : Ledger) (after : Option Identity) : List Identity :=
  ((ledger.attempts.rows.filter fun row => Keyset.Beyond after row.1).insertionSort
    fun a b => a.1 ≤ b.1).map Prod.fst

omit [Hash Plan] in
theorem mem_remaining {ledger : Ledger} {after : Option Identity} {id : Identity} :
    id ∈ remaining ledger after ↔ ledger.get id ≠ none ∧ Keyset.Beyond after id := by
  simp only [remaining, List.mem_map, List.mem_insertionSort, List.mem_filter, Table.mem_rows,
    decide_eq_true_eq, Prod.exists, Ledger.get, ne_eq, Option.map_eq_none_iff]
  constructor
  · rintro ⟨id', row, ⟨hrow, hbeyond⟩, rfl⟩
    exact ⟨by simp [hrow], hbeyond⟩
  · rintro ⟨hget, hbeyond⟩
    obtain ⟨row, hrow⟩ := Option.ne_none_iff_exists'.mp hget
    exact ⟨id, row, ⟨hrow, hbeyond⟩, rfl⟩

omit [Hash Plan] in
/-- The rest of the ledger is ordered. -/
theorem ordered_remaining (ledger : Ledger) (after : Option Identity) :
    (remaining ledger after).Pairwise (· < ·) := by
  have hnodup : (remaining ledger after).Nodup := by
    refine (List.Perm.map Prod.fst (List.perm_insertionSort _ _)).nodup_iff.mpr ?_
    exact (Table.nodup_map_fst_rows ledger.attempts).sublist (List.filter_sublist.map Prod.fst)
  have hsorted : (remaining ledger after).Pairwise (· ≤ ·) := by
    refine List.pairwise_map.mpr ?_
    have htotal : Std.Total fun a b : Identity × Row => a.1 ≤ b.1 := ⟨fun a b => le_total a.1 b.1⟩
    have htrans : IsTrans (Identity × Row) fun a b => a.1 ≤ b.1 := ⟨fun _ _ _ => le_trans⟩
    exact List.pairwise_insertionSort _ _
  exact (hsorted.and hnodup).imp fun h => lt_of_le_of_ne h.1 h.2

/-- A page of the ledger has the first remaining identities. -/
theorem page_spec {ledger : Ledger} (hl : ledger.Bound) (after : Option Identity) (limit : ℕ) :
    ((Supervisor.page ledger after limit).1.map fun value => value.plan.attemptId) =
        (remaining ledger after).take limit ∧
      (Supervisor.page ledger after limit).2 = decide (limit < (remaining ledger after).length) := by
  have hmem : ∀ row ∈ (ledger.attempts.rows.filter fun row =>
      Keyset.Beyond after row.1).insertionSort fun a b => a.1 ≤ b.1,
      row ∈ ledger.attempts.rows :=
    fun row hrow => (List.mem_filter.mp ((List.mem_insertionSort _).mp hrow)).1
  unfold Supervisor.page remaining
  dsimp only
  constructor
  · -- Every row is stored under the identity of its plan.
    rw [List.map_map, ← List.map_take]
    refine List.map_congr_left fun row hrow => hl.key ?_
    rw [Ledger.get, Table.mem_rows.mp (hmem row (List.mem_of_mem_take hrow))]
    rfl
  · rw [List.length_map]

/-- A snapshot of an executor is a page of the attempts in its ledger. -/
theorem page_of_snapshot {s : Supervisor} (hs : s.Consistent) {after : Option Identity}
    {probe : Slot → Except Error Execution.Binding} {snapshot : Snapshot}
    (h : s.snapshot after probe = .ok snapshot) {P : Identity → Prop}
    (hP : ∀ id, P id → s.ledger.get id ≠ none) :
    Keyset.Page P after (ids snapshot.attempts) snapshot.next.isSome := by
  have hpage := Keyset.page_take (P := P) (ordered_remaining s.ledger after)
    (fun id hid => (mem_remaining.mp hid).2)
    (fun id hid hbeyond => mem_remaining.mpr ⟨hP id hid, hbeyond⟩) 64
  obtain ⟨hkeys, hmore⟩ := page_spec hs.ledger.bound after 64
  rw [← hkeys, ← hmore] at hpage
  have hnonempty : (Supervisor.page s.ledger after 64).2 = true →
      (Supervisor.page s.ledger after 64).1 ≠ [] := by
    intro hannounced hnone
    rw [hmore, decide_eq_true_eq] at hannounced
    have hlength := congrArg List.length hkeys
    rw [hnone, List.map_nil, List.length_take, List.length_nil] at hlength
    omega
  unfold Supervisor.snapshot at h
  generalize Supervisor.page s.ledger after 64 = page at h hpage hnonempty
  obtain ⟨attempts, more⟩ := page
  simp only [bind_eq_ok, Except.ok.injEq] at h
  obtain ⟨offer, -, shown, hshown, rfl⟩ := h
  have hnext : (if more then attempts.getLast?.map fun value => value.plan.attemptId
      else none).isSome = more := by
    cases more with
    | false => rfl
    | true =>
      have hlast : attempts.getLast? = some _ := List.getLast?_eq_some_getLast (hnonempty rfl)
      rw [if_pos rfl, hlast]
      rfl
  dsimp only
  rw [hnext, ids_reports hshown]
  exact hpage

/-- The executor answers from its ledger, which it changes between the requests. -/
structure Honest (peer : Peer) (first : Snapshot) (states : ℕ → Supervisor) : Prop where
  installed : ∃ settings identity operations,
    states 0 = run Supervisor.step (Supervisor.install settings identity) operations
  evolves : ∀ n, ∃ operations, states (n + 1) = run Supervisor.step (states n) operations
  first : ∃ probe, (states 0).snapshot none probe = .ok first
  later : ∀ n cursor deploymentId snapshot,
    (peer.snapshot n cursor).2 = .ok (.snapshot deploymentId snapshot) →
    ∃ probe, (states (n + 1)).snapshot (some cursor) probe = .ok snapshot

variable [Hash Submission] {peer : Peer} {first : Snapshot} {states : ℕ → Supervisor}

omit [Hash Submission] in
theorem Honest.consistent (h : Honest peer first states) (n : ℕ) : (states n).Consistent := by
  induction n with
  | zero =>
    obtain ⟨settings, identity, operations, hstart⟩ := h.installed
    rw [hstart]
    exact run_invariant Supervisor.consistent_step
      (Supervisor.consistent_install settings identity) operations
  | succ n ih =>
    obtain ⟨operations, hnext⟩ := h.evolves n
    rw [hnext]
    exact run_invariant Supervisor.consistent_step ih operations

/-- What the loop has read of the attempts that the executor has all the time. -/
theorem walked_reading {reconciled : Option Binding} {session : Except Error Identity}
    {store : Store} {nodeId : Identity} {n last : ℕ} {page : Snapshot} {pass : Pass}
    (h : Honest peer first states)
    (hrounds : rounds peer reconciled session store nodeId first n = .reading page pass)
    (hle : n ≤ last) :
    let P (id : Identity) : Prop := ∀ m ≤ last, (states m).ledger.get id ≠ none
    Keyset.Walked P pass.cursor pass.seen ∧
      Keyset.Page P pass.cursor (ids page.attempts) page.next.isSome := by
  intro P
  induction n generalizing page pass with
  | zero =>
    unfold rounds begin at hrounds
    split at hrounds
    · cases hrounds
    split at hrounds
    · cases hrounds
    cases hrounds
    obtain ⟨probe, hfirst⟩ := h.first
    exact ⟨Keyset.walked_nil,
      page_of_snapshot (h.consistent 0) hfirst fun id hid => hid 0 (Nat.zero_le last)⟩
  | succ n ih =>
    obtain ⟨page₀, pass₀, pass₁, next, hstatus, htakes, -, hnext, hcursor, rfl, hsnapshot⟩ :=
      turn_eq_reading hrounds
    obtain ⟨hwalked, hpage⟩ := ih hstatus (by omega)
    have hwalked' : Keyset.Walked P pass₁.cursor pass₁.seen := by
      rw [htakes.cursor, htakes.seen]
      exact hwalked.append hpage
    refine ⟨hwalked', ?_⟩
    -- The next page is a snapshot that the executor took after the cursor.
    obtain ⟨deploymentId, hreply⟩ := Commands.snapshot_eq_ok hsnapshot
    obtain ⟨probe, hlater⟩ := h.later n next deploymentId page hreply
    have hcursor' : some next = pass₁.cursor := hcursor.symm
    rw [hcursor'] at hlater
    exact page_of_snapshot (h.consistent (n + 1)) hlater fun id hid => hid (n + 1) hle

end Honest

section Completeness

variable [Hash Plan] [Hash Submission]

/-- The state of an attempt that has ended, or that the controller is done with. -/
def Finished (state : State) : Prop :=
  state ∈ TERMINAL ∨ state = .released ∨ state = .abandoned

instance : DecidablePred Finished := fun _ => inferInstanceAs (Decidable (_ ∨ _))

omit [Hash Plan] [Hash Submission] in
theorem unobserved_eq {state : State} (h : state ≠ .queued) :
    unobserved state = if Finished state then state else .unknown := by
  cases state with
  | queued => exact absurd rfl h
  | _ => rfl

omit [Hash Plan] [Hash Submission] in
theorem exists_filter_eq_singleton {log : List Taken} {id : Identity}
    (h : (log.map fun taken => taken.report.attemptId).count id = 1) :
    ∃ taken ∈ log, log.filter (fun taken => taken.report.attemptId = id) = [taken] := by
  have hlength : (log.filter fun taken => taken.report.attemptId = id).length = 1 := by
    rw [← h, List.count, List.countP_map, List.countP_eq_length_filter]
    exact congrArg List.length (List.filter_congr fun taken _ => rfl)
  obtain ⟨taken, htaken⟩ := List.length_eq_one_iff.mp hlength
  have hmem : taken ∈ log.filter fun taken => taken.report.attemptId = id := by
    rw [htaken]
    exact List.mem_singleton_self taken
  exact ⟨taken, (List.mem_filter.mp hmem).1, htaken⟩

/-- The loop ends whatever the executor answers. When it has reconciled an executor, its store comes
from the reports that it took (`History`). The report of an attempt that an honest executor had all
the time was taken exactly once, and observed when the controller held the attempt open, and an open
attempt of the node that no page reported is unknown unless it had finished. -/
theorem reconciles_by_pages (projects identities : List Identity)
    (contributors : Table Identity Contributor) (policyRevision : ℕ) (managed : List String)
    (before : List Store.Operation) (peer : Peer) (reconciled : Option Binding)
    (session : Except Error Identity) (nodeId : Identity) (first : Snapshot) :
    let store := run Store.step
      (Store.initial projects identities contributors policyRevision managed) before
    let loop := rounds peer reconciled session store nodeId first
    (∀ n, 2 ^ 128 < n → (loop n).Ended) ∧
      ∀ n pass store', loop n = .reconciled pass store' →
        History peer first store pass.log pass.store ∧
        (∀ states, Honest peer first states →
          ∀ id, (∀ m < n, (states m).ledger.get id ≠ none) →
            ∃ taken, pass.log.filter (fun taken => taken.report.attemptId = id) = [taken] ∧
              (taken.Open → taken.Observed peer first)) ∧
        ∀ attempt ∈ openAttempts store nodeId, attempt.id ∉ pass.seen →
          ∃ last final, pass.store.lookupAttempt attempt.id = some last ∧
            store'.lookupAttempt attempt.id = some final ∧
            final.state = if Finished last.state then last.state else .unknown := by
  intro store loop
  have hlinked : store.Linked :=
    linked_run (Store.linked_initial projects identities contributors policyRevision managed) before
  refine ⟨fun n hn => rounds_ended hn, fun n pass store' hloop => ?_⟩
  obtain ⟨last, page, pass₀, u, hlast, hreading, htakes, hnext, hsweep⟩ := exists_last_page hloop
  have hprogress : Progress peer first store nodeId pass := (progress_reading hreading).takes htakes
  refine ⟨hprogress.history, fun states hhonest id hpresent => ?_, fun attempt hattempt hunseen => ?_⟩
  · obtain ⟨hwalked, hpage⟩ := walked_reading hhonest hreading le_rfl
    rw [hnext] at hpage
    obtain ⟨hordered, hall⟩ := hwalked.last_page hpage
    rw [← htakes.seen] at hordered hall
    have hnodup : pass.seen.Nodup := hordered.imp ne_of_lt
    have honce : pass.seen.count id = 1 :=
      List.count_eq_one_of_mem hnodup (hall id fun m hm => hpresent m (by omega))
    obtain ⟨taken, hmem, htaken⟩ := exists_filter_eq_singleton honce
    exact ⟨taken, htaken, hprogress.history.observed_of_open taken hmem⟩
  · have hmarks := sweep_spec (hprogress.history.linked hlinked) hsweep
    have hmissing : attempt.id ∈ pass.missing :=
      (hprogress.missing attempt.id).mpr ⟨List.mem_map_of_mem hattempt, hunseen⟩
    obtain ⟨found, hfound⟩ := Option.ne_none_iff_exists'.mp (hmarks.found attempt.id hmissing)
    obtain ⟨final, hfinal, hstate⟩ := hmarks.forth attempt.id found hfound
    rw [if_pos hmissing] at hstate
    have hvalid := (hprogress.history.linked hlinked).attempt hfound
    exact ⟨found, final, hfound, hfinal, hstate.trans (unobserved_eq hvalid.literal)⟩

end Completeness

/-- The last pass and the final store of a loop that has reconciled. -/
def Status.result : Status → Option (Pass × Store)
  | .reconciled pass store => some (pass, store)
  | _ => none

theorem eq_reconciled {status : Status} {pass : Pass} {store : Store}
    (h : status.result = some (pass, store)) : status = .reconciled pass store := by
  cases status with
  | reconciled pass' store' =>
    obtain ⟨rfl, rfl⟩ := Prod.mk.inj (Option.some.inj h)
    rfl
  | _ => cases h

namespace Sample

open Execution.Sample (hash settings reading)
open Workloads.Sample (submissionHash probe reserved succeeded)

/-- The executor of a ledger after some operations. -/
def executor (ledgerId : Identity) (operations : List (@Supervisor.Operation hash)) : Supervisor :=
  letI := hash
  run Supervisor.step (Supervisor.install settings ledgerId) operations

/-- The controller has prepared its attempt. -/
def own : List (@Supervisor.Operation hash) :=
  letI := hash
  [.prepare (Execution.Sample.admission (Execution.Sample.plan 5 6 1 3) 110 (by decide)) probe
    (reading 100) (reading 100)]

/-- Another controller has prepared the attempt 9. -/
def foreign : List (@Supervisor.Operation hash) :=
  letI := hash
  [.prepare (Execution.Sample.admission (Execution.Sample.plan 9 8 1 3) 120 (by decide)) probe
    (reading 100) (reading 100)]

/-- The first page of an executor. -/
def first (ledgerId : Identity) (operations : List (@Supervisor.Operation hash)) :
    Except Error Snapshot :=
  (executor ledgerId operations).snapshot none probe

/-- The only page of the executor with the attempt of the controller. -/
def ownPage : Snapshot := (first 7 own).toOption.get (by decide +kernel)

/-- The only page of a new executor with another attempt. -/
def foreignPage : Snapshot := (first 8 foreign).toOption.get (by decide +kernel)

/-- The only page of a new executor. -/
def emptyPage : Snapshot := (first 8 []).toOption.get (by decide +kernel)

/-- Every request is answered, and nothing else happens. -/
def peer : Peer :=
  ⟨fun _ => ([], .ok .other), fun _ _ => ([], .ok .other), fun _ => 110⟩

/-- The store after the first attempt has been reserved, and then more. -/
def store (more : List Store.Operation) : Store :=
  letI := hash
  letI := submissionHash
  run Store.step Workloads.Sample.store (reserved ++ more)

end Sample

theorem Sample.honest {ledgerId : Identity}
    {operations : List (@Supervisor.Operation Execution.Sample.hash)} {page : Snapshot}
    (h : Sample.first ledgerId operations = .ok page) :
    letI := Execution.Sample.hash
    Honest Sample.peer page fun _ => Sample.executor ledgerId operations :=
  letI := Execution.Sample.hash
  { installed := ⟨Execution.Sample.settings, ledgerId, operations, rfl⟩
    evolves := fun _ => ⟨[], rfl⟩
    first := ⟨Workloads.Sample.probe, h⟩
    later := fun _ _ _ _ hreply => nomatch hreply }

theorem eq_of_map {α β : Type} {o : Option α} (f : α → β) {a : α} {b : β} (h : o = some a)
    (hmap : o.map f = some b) : f a = b := by
  rw [h] at hmap
  exact Option.some.inj hmap

/-- The attempt of the controller is observed once when its executor reports it, and it is unknown
when a new executor has another attempt instead. -/
theorem reconciles_by_pages_foreign :
    letI := Execution.Sample.hash
    letI := Workloads.Sample.submissionHash
    (∃ pass store', rounds Sample.peer none (.ok 1) (Sample.store []) 1 Sample.ownPage 1 =
        .reconciled pass store' ∧
      ∃ taken, pass.log.filter (fun taken => taken.report.attemptId = 5) = [taken] ∧
        taken.Observed Sample.peer Sample.ownPage) ∧
    ∃ pass store', rounds Sample.peer none (.ok 1) (Sample.store []) 1 Sample.foreignPage 1 =
        .reconciled pass store' ∧
      ∃ final, store'.lookupAttempt 5 = some final ∧ final.state = .unknown := by
  let _ := Execution.Sample.hash
  let _ := Workloads.Sample.submissionHash
  constructor
  · obtain ⟨⟨pass, store'⟩, hresult⟩ := Option.isSome_iff_exists.mp
      (show (rounds Sample.peer none (.ok 1) (Sample.store []) 1 Sample.ownPage 1).result.isSome
        by decide +kernel)
    obtain ⟨-, hreconciles⟩ := reconciles_by_pages [1] [1] Workloads.Sample.contributors 0 []
      (Workloads.Sample.reserved ++ []) Sample.peer none (.ok 1) 1 Sample.ownPage
    obtain ⟨-, htaken, -⟩ := hreconciles 1 pass store' (eq_reconciled hresult)
    obtain ⟨taken, hfilter, hobserved⟩ := htaken (fun _ => Sample.executor 7 Sample.own)
      (Sample.honest (by decide +kernel)) 5 fun _ _ => by decide +kernel
    refine ⟨pass, store', eq_reconciled hresult, taken, hfilter, hobserved ?_⟩
    -- The store before the report has the attempt, which is being prepared.
    have hlog : ((pass.log.filter fun taken => taken.report.attemptId = 5).map fun taken =>
        (taken.before.lookupAttempt taken.report.attemptId).map Attempt.state) =
          [some .preparing] :=
      eq_of_map (fun result => (result.1.log.filter fun taken => taken.report.attemptId = 5).map
        fun taken => (taken.before.lookupAttempt taken.report.attemptId).map Attempt.state) hresult
        (by decide +kernel)
    rw [hfilter, List.map_singleton, List.singleton_inj] at hlog
    obtain ⟨attempt, hattempt, hstate⟩ := Option.map_eq_some_iff.mp hlog
    exact ⟨attempt, hattempt, by rw [hstate]; decide, by rw [hstate]; decide⟩
  · obtain ⟨⟨pass, store'⟩, hresult⟩ := Option.isSome_iff_exists.mp
      (show (rounds Sample.peer none (.ok 1) (Sample.store []) 1 Sample.foreignPage 1).result.isSome
        by decide +kernel)
    obtain ⟨-, hreconciles⟩ := reconciles_by_pages [1] [1] Workloads.Sample.contributors 0 []
      (Workloads.Sample.reserved ++ []) Sample.peer none (.ok 1) 1 Sample.foreignPage
    obtain ⟨-, -, hunreported⟩ := hreconciles 1 pass store' (eq_reconciled hresult)
    refine ⟨pass, store', eq_reconciled hresult, ?_⟩
    have hopen : (openAttempts (Sample.store []) 1).map Attempt.id = [5] := by decide +kernel
    have hseen : pass.seen = [9] :=
      eq_of_map (fun result => result.1.seen) hresult (by decide +kernel)
    have hstate : (pass.store.lookupAttempt 5).map Attempt.state = some .preparing :=
      eq_of_map (fun result => (result.1.store.lookupAttempt 5).map Attempt.state) hresult
        (by decide +kernel)
    obtain ⟨attempt, hattempt, hid⟩ : ∃ attempt ∈ openAttempts (Sample.store []) 1,
        attempt.id = 5 := List.mem_map.mp (by rw [hopen]; exact List.mem_singleton_self 5)
    obtain ⟨last, final, hlast, hfinal, hmarked⟩ := hunreported attempt hattempt
      (by rw [hseen, hid]; decide)
    rw [hid] at hlast hfinal
    rw [hlast, Option.map_some, Option.some.injEq] at hstate
    rw [hstate] at hmarked
    exact ⟨final, hfinal, hmarked⟩

/-- An attempt that the controller does not know is not observed, and one whose outcome the
controller has recorded keeps it, though a new installation of its executor does not report it. -/
theorem not_unknown_of_unreported :
    (¬∀ [Hash Plan] [Hash Submission] (projects identities : List Identity)
      (contributors : Table Identity Contributor) (policyRevision : ℕ) (managed : List String)
      (before : List Store.Operation) (peer : Peer) (reconciled : Option Binding)
      (session : Except Error Identity) (nodeId : Identity) (first : Snapshot)
      (states : ℕ → Supervisor) (n : ℕ) (pass : Pass) (store' : Store),
      let store := run Store.step
        (Store.initial projects identities contributors policyRevision managed) before
      Honest peer first states →
      rounds peer reconciled session store nodeId first n = .reconciled pass store' →
      ∀ id, (∀ m < n, (states m).ledger.get id ≠ none) →
        ∃ taken ∈ pass.log, taken.report.attemptId = id ∧ taken.Observed peer first) ∧
    ¬∀ [Hash Plan] [Hash Submission] (projects identities : List Identity)
      (contributors : Table Identity Contributor) (policyRevision : ℕ) (managed : List String)
      (before : List Store.Operation) (peer : Peer) (reconciled : Option Binding)
      (session : Except Error Identity) (nodeId : Identity) (first : Snapshot)
      (states : ℕ → Supervisor) (n : ℕ) (pass : Pass) (store' : Store),
      let store := run Store.step
        (Store.initial projects identities contributors policyRevision managed) before
      Honest peer first states →
      rounds peer reconciled session store nodeId first n = .reconciled pass store' →
      ∀ attempt ∈ openAttempts store nodeId, attempt.id ∉ pass.seen →
        ∃ final, store'.lookupAttempt attempt.id = some final ∧ final.state = .unknown := by
  let _ := Execution.Sample.hash
  let _ := Workloads.Sample.submissionHash
  constructor
  · intro hclaim
    obtain ⟨⟨pass, store'⟩, hresult⟩ := Option.isSome_iff_exists.mp
      (show (rounds Sample.peer none (.ok 1) (Sample.store []) 1 Sample.foreignPage 1).result.isSome
        by decide +kernel)
    obtain ⟨taken, hmem, hid, attempt, hobserved⟩ := hclaim [1] [1] Workloads.Sample.contributors 0
      [] (Workloads.Sample.reserved ++ []) Sample.peer none (.ok 1) 1 Sample.foreignPage
      (fun _ => Sample.executor 8 Sample.foreign) 1 pass store' (Sample.honest (by decide +kernel))
      (eq_reconciled hresult) 9 fun _ _ => by decide +kernel
    -- The store has no such attempt.
    have hrefused : (pass.log.all fun taken => (Commands.observation taken.before taken.report
        Sample.foreignPage (Sample.peer.now taken.report.attemptId)).2.toOption.isNone) = true :=
      eq_of_map (fun result => result.1.log.all fun taken => (Commands.observation taken.before
        taken.report Sample.foreignPage (Sample.peer.now taken.report.attemptId)).2.toOption.isNone)
        hresult (by decide +kernel)
    have hnone := List.all_eq_true.mp hrefused taken hmem
    rw [hobserved] at hnone
    cases hnone
  · intro hclaim
    let store := Sample.store [Workloads.Sample.succeeded]
    obtain ⟨⟨pass, store'⟩, hresult⟩ := Option.isSome_iff_exists.mp
      (show (rounds Sample.peer none (.ok 1) store 1 Sample.emptyPage 1).result.isSome
        by decide +kernel)
    have hopen : (openAttempts store 1).map Attempt.id = [5] := by decide +kernel
    have hseen : pass.seen = [] :=
      eq_of_map (fun result => result.1.seen) hresult (by decide +kernel)
    have hstate : (store'.lookupAttempt 5).map Attempt.state = some .succeeded :=
      eq_of_map (fun result => (result.2.lookupAttempt 5).map Attempt.state) hresult
        (by decide +kernel)
    obtain ⟨attempt, hattempt, hid⟩ : ∃ attempt ∈ openAttempts store 1, attempt.id = 5 :=
      List.mem_map.mp (by rw [hopen]; exact List.mem_singleton_self 5)
    obtain ⟨final, hfinal, hunknown⟩ := hclaim [1] [1] Workloads.Sample.contributors 0 []
      (Workloads.Sample.reserved ++ [Workloads.Sample.succeeded]) Sample.peer none (.ok 1) 1
      Sample.emptyPage (fun _ => Sample.executor 8 []) 1 pass store'
      (Sample.honest (by decide +kernel)) (eq_reconciled hresult) attempt hattempt
      (by rw [hseen]; exact List.not_mem_nil)
    rw [hid] at hfinal
    rw [hfinal, Option.map_some, Option.some.injEq, hunknown] at hstate
    cases hstate

end Reconcile

end Ficc.Workloads
