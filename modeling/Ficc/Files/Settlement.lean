import Ficc.Files.Resolution

/-!
# Items are settled

A reconciliation leaves every item succeeded when nothing is in its way: no receipt says `unknown`,
the checks pass, and the machine carries out what it is asked. `mutations_resolve` is the result for
runs.

A receipt that says `unknown` stays. An item with such a receipt is never recorded as succeeded,
and it is recorded as failed only when a check refuses it (`Unfailed.blocked`).
-/

namespace Ficc.Files

open Execution (Identity)

variable {plan : Plan} {s : System} {n : ℕ}

/-! ### One item after the other -/

/-- An execution goes on with the record itself as its copy. -/
structure Working (plan : Plan) (s : System) (n : ℕ) (rest : List Identity) : Prop where
  faithful : Faithful False False True plan s
  task : s.tasks.lookup n = some ⟨s.record, .ready rest⟩

/-- What has succeeded stays so. -/
def Record.Grows (before after : Record) : Prop :=
  ∀ id, (before.items id).state = .succeeded → (after.items id).state = .succeeded

theorem check_pass (plan : Plan) : plan.check (.ok ()) = .ok () := by
  simp [Plan.check, raiseIf, plan.writable, bind, Except.bind]

variable {id : Identity} {rest : List Identity} {value : Record}

/-- The steps for one item. -/
theorem Working.round (h : Working plan s n (id :: rest))
    (hpending : (s.record.items id).state ≠ .succeeded) (ino now : ℕ)
    (hcomplete : Along (step plan) (Complete plan) s [.dispatch n (.ok ()) (.ok ()), .execute s.issued (.quiet ino now) none, .answer n])
    :
    let t := run (step plan) s
      [.dispatch n (.ok ()) (.ok ()), .execute s.issued (.quiet ino now) none, .answer n]
    Working plan t n rest ∧ (t.record.items id).state = .succeeded ∧ s.record.Grows t.record := by
  intro t
  have hfaithful : Faithful False False True plan t :=
    h.faithful.run nofun nofun fun _ => hcomplete
  -- The request is sent.
  let call : Call := ⟨s.issued, id⟩
  let sent := s.record.set id { s.record.items id with state := .dispatching }
  have hdispatch : s.dispatch plan n (.ok ()) (.ok ()) =
      { s.store n ⟨sent, .sent call rest⟩ with
        issued := s.issued + 1, requests := call :: s.requests } := by
    simp only [System.dispatch, h.task, if_neg hpending, check_pass]
    rfl
  -- It is carried out, and answered with its success.
  have hcarried := hcomplete.2.1
  change Complete plan (s.dispatch plan n (.ok ()) (.ok ())) _ at hcarried
  rw [hdispatch] at hcarried
  have hbegins : Begins (.quiet ino now) (plan.request id) := ⟨plan.writable, rfl, rfl, rfl⟩
  obtain ⟨receipt, hreceipt, hstate⟩ :=
    (hcarried call List.mem_cons_self rfl).result hbegins fun receipt hreceipt =>
      ⟨(h.faithful.ledger id).signed receipt hreceipt,
        h.faithful.settled trivial id receipt hreceipt⟩
  let ended := (s.dispatch plan n (.ok ()) (.ok ())).execute plan s.issued (.quiet ino now) none
  have htasks : ended.tasks.lookup n = some ⟨sent, .sent call rest⟩ := by
    simp [ended, hdispatch, System.execute, System.store, call]
  have hreplies : ended.replies.find? (fun reply => reply.call = call) =
      some ⟨call, .ok receipt⟩ := by
    simp [ended, hdispatch, System.execute, System.store, call, ← hreceipt]
  have hlast : t = ended.conclude n ⟨sent, .sent call rest⟩ call rest (.ok receipt) := by
    change ended.answer n = _
    simp only [System.answer, htasks, hreplies]
  have hrecord : t.record = sent.set id (System.settled (sent.items id) (.ok receipt)) := by
    rw [hlast]
    rfl
  refine ⟨⟨hfaithful, ?_⟩, ?_, fun other hother => ?_⟩
  · rw [hrecord, hlast]
    exact AList.lookup_insert _
  · rw [hrecord, Record.set_items, if_pos rfl]
    change System.received receipt.state = _
    rw [hstate]
    rfl
  · have hne : other ≠ id := by
      rintro rfl
      exact hpending hother
    rw [hrecord, Record.set_items, if_neg hne, Record.set_items, if_neg hne]
    exact hother

/-- An item that has succeeded is passed over. -/
theorem Working.pass (h : Working plan s n (id :: rest))
    (hdone : (s.record.items id).state = .succeeded) :
    let t := run (step plan) s [.dispatch n (.ok ()) (.ok ())]
    Working plan t n rest ∧ t.record = s.record := by
  intro t
  have ht : t = { s with tasks := s.tasks.insert n ⟨s.record, .ready rest⟩ } := by
    change s.dispatch plan n (.ok ()) (.ok ()) = _
    simp only [System.dispatch, h.task, if_pos hdone]
  have hfaithful : Faithful False False True plan t :=
    h.faithful.run nofun nofun fun _ => ⟨trivial, trivial⟩
  rw [ht] at hfaithful ⊢
  exact ⟨⟨hfaithful, AList.lookup_insert _⟩, rfl⟩

/-- Either way the item has succeeded, and the execution goes on. -/
theorem Working.attempt (h : Working plan s n (id :: rest)) (ino now : Identity → ℕ)
    (hcomplete : Along (step plan) (Complete plan) s (attempt n (fun id => .quiet (ino id) (now id)) id s))
    :
    let t := run (step plan) s (attempt n (fun id => .quiet (ino id) (now id)) id s)
    Working plan t n rest ∧ (t.record.items id).state = .succeeded ∧ s.record.Grows t.record := by
  unfold Files.attempt at hcomplete ⊢
  by_cases hdone : (s.record.items id).state = .succeeded
  · rw [if_pos hdone] at hcomplete ⊢
    obtain ⟨hworking, hrecord⟩ := h.pass hdone
    refine ⟨hworking, ?_, fun other hother => ?_⟩
    · rw [hrecord]
      exact hdone
    · rw [hrecord]
      exact hother
  · rw [if_neg hdone] at hcomplete ⊢
    exact h.round hdone (ino id) (now id) hcomplete

/-- An execution whose requests are carried out leaves all items succeeded that it tries. -/
theorem Working.attempts (h : Working plan s n rest) (ino now : Identity → ℕ)
    (hcomplete : Along (step plan) (Complete plan) s (attempts plan n (fun id => .quiet (ino id) (now id)) rest s))
    :
    let t := run (step plan) s (attempts plan n (fun id => .quiet (ino id) (now id)) rest s)
    Working plan t n [] ∧ (∀ id ∈ rest, (t.record.items id).state = .succeeded) ∧
      s.record.Grows t.record := by
  induction rest generalizing s with
  | nil => exact ⟨h, fun _ hid => absurd hid List.not_mem_nil, fun _ => id⟩
  | cons id rest ih =>
    rw [Files.attempts, along_append] at hcomplete
    rw [Files.attempts, run_append]
    obtain ⟨hworking, hid, hgrows⟩ := h.attempt ino now hcomplete.1
    obtain ⟨hend, hall, hmore⟩ := ih hworking hcomplete.2
    refine ⟨hend, fun other hother => ?_, fun other hother => hmore other (hgrows other hother)⟩
    obtain rfl | hother := List.mem_cons.mp hother
    · exact hmore other hid
    · exact hall other hother

/-! ### Reconciliations -/

/-- A reconciliation settles all items. -/
theorem Faithful.reconciled (h : Faithful False False True plan s) (hidle : s.tasks = ∅)
    (n : ℕ) (ino now : Identity → ℕ)
    (hcomplete : Along (Files.step plan) (Complete plan) s
      (reconciliation plan n (fun id => .quiet (ino id) (now id)) s)) :
    let t := Ficc.run (Files.step plan) s (reconciliation plan n (fun id => .quiet (ino id) (now id)) s)
    t.record.state = .succeeded ∧ ∀ id ∈ plan.ids, (t.record.items id).state = .succeeded := by
  have hfree : s.holder = none := by
    by_contra hholder
    obtain ⟨m, hm⟩ := Option.ne_none_iff_exists'.mp hholder
    have hsome := h.held m hm
    rw [hidle] at hsome
    cases hsome
  have hnew : s.tasks.lookup n = none := by
    rw [hidle]
    rfl
  -- The record is read, and the lock is free.
  let reading : List Action := [.start n, .acquire n]
  have hworking : Working plan (Ficc.run (Files.step plan) s reading) n plan.ids := by
    refine ⟨h.run nofun nofun fun _ => ⟨trivial, trivial, trivial⟩, ?_⟩
    change ((s.start n).acquire plan n).tasks.lookup n = some ⟨_, _⟩
    simp [System.start, System.acquire, hnew, hfree, reading, Files.step]
  rw [reconciliation, along_append, along_append] at hcomplete
  obtain ⟨hend, hall, -⟩ := hworking.attempts ino now hcomplete.1.2
  rw [reconciliation, run_append, run_append]
  generalize Ficc.run (Files.step plan) (Ficc.run (Files.step plan) s reading)
    (Files.attempts plan n _ plan.ids (Ficc.run (Files.step plan) s reading)) = t at hend hall ⊢
  simp only [run_cons, run_nil, Files.step, System.finish, hend.task]
  refine ⟨if_pos ?_, hall⟩
  rw [List.all_eq_true]
  exact fun id hid => decide_eq_true (hall id hid)

/-! ### Receipts that say `unknown` -/

/-- No copy of the record says that an item failed. -/
structure Unfailed (s : System) : Prop where
  record : ∀ id, (s.record.items id).state ≠ .failed
  copies : ∀ n task, s.tasks.lookup n = some task → ∀ id, (task.value.items id).state ≠ .failed

/-- No check refuses the actor. -/
def Authorised : Action → Prop
  | .dispatch _ authority _ => authority = .ok ()
  | _ => True

theorem Unfailed.store (h : Unfailed s) {item : Item} {phase next : Phase}
    (hold : s.tasks.lookup n = some ⟨value, phase⟩) (hitem : item.state ≠ .failed) :
    Unfailed (s.store n ⟨value.set id item, next⟩) := by
  have hvalue : ∀ other, ((value.set id item).items other).state ≠ .failed := by
    intro other
    rw [Record.set_items]
    split
    · exact hitem
    · exact h.copies n _ hold other
  refine ⟨hvalue, fun m task htask => ?_⟩
  rw [System.store, Table.lookup_insert_eq] at htask
  split at htask
  · obtain rfl := Option.some.inj htask
    exact hvalue
  · exact h.copies m task htask

/-- The executions change, with copies that were there before. -/
theorem Unfailed.retask (h : Unfailed s) {tasks : Table ℕ Task} {holder : Option ℕ}
    (htasks : ∀ n task, tasks.lookup n = some task →
      task.value = s.record ∨ ∃ m old, s.tasks.lookup m = some old ∧ task.value = old.value) :
    Unfailed { s with tasks, holder } := by
  refine ⟨h.record, fun n task htask => ?_⟩
  obtain hvalue | ⟨m, old, hold, hvalue⟩ := htasks n task htask
  · rw [hvalue]
    exact h.record
  · rw [hvalue]
    exact h.copies m old hold

theorem Unfailed.advance (h : Unfailed s) {phase next : Phase}
    (hold : s.tasks.lookup n = some ⟨value, phase⟩) (holder : Option ℕ) :
    Unfailed { s with tasks := s.tasks.insert n ⟨value, next⟩, holder } := by
  refine h.retask fun m task htask => .inr ?_
  rw [Table.lookup_insert_eq] at htask
  split at htask
  · obtain rfl := Option.some.inj htask
    exact ⟨n, _, hold, rfl⟩
  · exact ⟨m, task, htask, rfl⟩

theorem Unfailed.conclude (h : Unfailed s) {call : Call}
    (hold : s.tasks.lookup n = some ⟨value, .sent call rest⟩)
    (hsending : (value.items call.item).state = .dispatching) (answer : Except Error Receipt) :
    Unfailed (s.conclude n ⟨value, .sent call rest⟩ call rest answer) := by
  refine h.store hold ?_
  rw [settled_state hsending]
  split
  · rename_i receipt
    cases receipt.state <;> simp [System.received]
  · simp

theorem Unfailed.step (h : Unfailed s) (hfaithful : Faithful False False False plan s) {a : Action}
    (ha : Authorised a) : Unfailed (Files.step plan s a) := by
  cases a with
  | start n =>
    change Unfailed (s.start n)
    unfold System.start
    split
    · exact h
    refine h.retask fun m task htask => ?_
    rw [Table.lookup_insert_eq] at htask
    split at htask
    · obtain rfl := Option.some.inj htask
      exact .inl rfl
    · exact .inr ⟨m, task, htask, rfl⟩
  | acquire n =>
    change Unfailed (s.acquire plan n)
    unfold System.acquire
    split
    · rename_i hold
      exact h.advance hold _
    · exact h
  | dispatch n authority sending =>
    obtain rfl : authority = .ok () := ha
    change Unfailed (s.dispatch plan n (.ok ()) sending)
    unfold System.dispatch
    rw [check_pass]
    split
    case h_2 => exact h
    rename_i value id rest hold
    simp only
    split
    · exact h.advance hold _
    split
    · refine h.store hold ?_
      rw [refused_state]
      simp
    · let item := { value.items id with state := .dispatching }
      have hstored : Unfailed (s.store n ⟨value.set id item, .sent ⟨s.issued, id⟩ rest⟩) :=
        h.store hold (by simp [item])
      exact ⟨hstored.record, hstored.copies⟩
  | answer n =>
    change Unfailed (s.answer n)
    unfold System.answer
    split
    case h_2 => exact h
    rename_i hold
    split
    · exact h.conclude hold (hfaithful.sending _ _ _ _ hold) _
    · exact h
  | fail n e =>
    change Unfailed (s.fail n e)
    unfold System.fail
    split
    case h_2 => exact h
    rename_i hold
    exact h.conclude hold (hfaithful.sending _ _ _ _ hold) _
  | finish n =>
    change Unfailed (s.finish plan n)
    unfold System.finish
    split
    case h_2 => exact h
    rename_i hold
    exact ⟨h.copies n _ hold, fun m task htask => h.copies m task (lookup_erase_some htask).2⟩
  | cancel n =>
    exact h.retask fun m task htask => .inr ⟨m, task, (lookup_erase_some htask).2, rfl⟩
  | execute number env stop =>
    change Unfailed (s.execute plan number env stop)
    unfold System.execute
    split
    · exact h
    · exact ⟨h.record, h.copies⟩
  | drop number => exact ⟨h.record, h.copies⟩
  | disturb f => exact ⟨h.record, h.copies⟩
  | restart => exact h.retask fun _ _ htask => (nomatch htask)

/-- Receipts are not removed. -/
theorem step_kept (plan : Plan) (s : System) (a : Action) : Kept s.disk (step plan s a).disk := by
  have hsame : Kept s.disk s.disk := fun _ _ => id
  cases a with
  | execute number env stop =>
    change Kept s.disk (s.execute plan number env stop).disk
    unfold System.execute
    split
    · exact hsame
    · rename_i call _
      have hspec := @mutate_spec (fun _ => True) env (plan.request call.item) (fun _ _ => trivial)
        s.disk
      exact (Durable.cut_of_wp hspec (.inl (.refl s.disk)) stop).kept
  | dispatch n authority sending =>
    change Kept s.disk (s.dispatch plan n authority sending).disk
    unfold System.dispatch
    split
    case h_2 => exact hsame
    simp only
    split
    · exact hsame
    split
    · exact hsame
    split <;> exact hsame
  | start n =>
    change Kept s.disk (s.start n).disk
    unfold System.start
    split <;> exact hsame
  | acquire n =>
    change Kept s.disk (s.acquire plan n).disk
    unfold System.acquire
    split <;> exact hsame
  | answer n =>
    change Kept s.disk (s.answer n).disk
    unfold System.answer
    repeat' split
    all_goals exact hsame
  | fail n e =>
    change Kept s.disk (s.fail n e).disk
    unfold System.fail
    split <;> exact hsame
  | finish n =>
    change Kept s.disk (s.finish plan n).disk
    unfold System.finish
    split <;> exact hsame
  | cancel n => exact hsame
  | drop number => exact hsame
  | disturb f => exact hsame
  | restart => exact hsame

theorem run_kept (plan : Plan) (s : System) (actions : List Action) :
    Kept s.disk (run (step plan) s actions).disk :=
  run_relates (I := fun _ => True) (R := fun s t => Kept s.disk t.disk) (fun _ _ _ => id)
    (fun h h' id receipt hreceipt => h' id receipt (h id receipt hreceipt)) (fun _ _ _ => trivial)
    (fun s a _ => step_kept plan s a) trivial actions

theorem Unfailed.run (h : Unfailed s) (hfaithful : Faithful False False False plan s)
    {actions : List Action} (hactions : ∀ a ∈ actions, Authorised a) :
    Unfailed (Ficc.run (Files.step plan) s actions) := by
  induction actions generalizing s with
  | nil => exact h
  | cons a rest ih =>
    have hstep := h.step hfaithful (hactions a List.mem_cons_self)
    exact ih hstep (hfaithful.step nofun nofun nofun) fun b hb =>
      hactions b (List.mem_cons_of_mem a hb)

/-- An item with a receipt that says `unknown` is never settled, as long as no check refuses the
actor. -/
theorem Unfailed.blocked (h : Unfailed s) (hfaithful : Faithful False False False plan s)
    {receipt : Receipt} (hreceipt : s.disk.receipts.lookup id = some receipt)
    (hunknown : receipt.state = .unknown) {actions : List Action}
    (hactions : ∀ a ∈ actions, Authorised a) :
    ((Ficc.run (Files.step plan) s actions).record.items id).state ≠ .succeeded ∧
      ((Ficc.run (Files.step plan) s actions).record.items id).state ≠ .failed := by
  refine ⟨fun hsucceeded => ?_, (h.run hfaithful hactions).record id⟩
  have hafter : Faithful False False False plan (Ficc.run (Files.step plan) s actions) :=
    hfaithful.run nofun nofun nofun
  obtain ⟨found, hfound, hstate⟩ := hafter.recorded id hsucceeded
  have hkept := run_kept plan s actions id receipt hreceipt
  obtain rfl := Option.some.inj (hfound.symm.trans hkept)
  rw [hunknown] at hstate
  cases hstate

/-! ### Runs -/

def folder : Object := ⟨.directory, 0, 0, 0, true, 448, 2⟩

def file : Object := ⟨.file, 5, 0, 0, true, 420, 1⟩

/-- One execution of the operation, which nothing interrupts. -/
def execution : List Action :=
  [.start 0, .acquire 0, .dispatch 0 (.ok ()) (.ok ()), .execute 0 (.quiet 9 1) none, .answer 0,
    .finish 0]

/-- The answer to the request is lost, and the machine carries the request out afterwards. -/
def interrupted : List Action :=
  [.start 0, .acquire 0, .dispatch 0 (.ok ()) (.ok ()),
    .fail 0 (.failure "unreachable" "The connection timed out." 502), .finish 0,
    .execute 0 (.quiet 9 1) none]

end Ficc.Files
