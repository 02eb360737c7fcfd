import Ficc.Files.Mutations
import Ficc.Files.Operations

/-!
# Mutations are recorded truthfully

What holds of a file operation in every run. The mutation of an item takes effect at most once, and
has taken effect when the item is recorded as succeeded. The rest is subject to conditions on the
steps:

* `Orderly` steps leave no failed item whose mutation took effect, or can still take effect;
* `Calm` steps remove no object other than the selected one;
* `Complete` steps leave no receipt behind that stays `unknown`, so that a reconciliation settles
  every item.

`Faithful` is what holds in every state, with the three conditions on the run as parameters.
-/

namespace Ficc.Files

open Execution (Identity)
open Durable (cut cut_of_wp result_of_wp)

variable {plan : Plan} {calm orderly complete : Prop} {s : System}

/-! ### What the machine knows about an item -/

/-- The effects of the request of an item. -/
def Disk.effectsOf (disk : Disk) (id : Identity) : List Effect :=
  (disk.effects.filter fun entry => entry.1 = id).map Prod.snd

theorem effectsOf_congr {disk disk' : Disk} (h : disk'.effects = disk.effects) (id : Identity) :
    disk'.effectsOf id = disk.effectsOf id := by
  rw [Disk.effectsOf, h, Disk.effectsOf]

/-- The effects of the request itself. -/
theorem effectsOf_added {disk disk' : Disk} {id : Identity} {added : List Effect}
    (h : disk'.effects = disk.effects ++ added.map (id, ·)) :
    disk'.effectsOf id = disk.effectsOf id ++ added := by
  simp [Disk.effectsOf, h, List.filter_map, Function.comp_def]

/-- Those of the others are not touched. -/
theorem effectsOf_others {disk disk' : Disk} {id other : Identity} {added : List Effect}
    (h : disk'.effects = disk.effects ++ added.map (id, ·)) (hother : other ≠ id) :
    disk'.effectsOf other = disk.effectsOf other := by
  simp [Disk.effectsOf, h, List.filter_map, Function.comp_def, hother.symm]

/-- The objects that the request of an item may remove. -/
def Removable (calm : Prop) (plan : Plan) (id : Identity) (ino : ℕ) : Prop :=
  calm → Selected (plan.request id) ino

/-- What the receipt of an item says about its effects. -/
structure Ledger (calm : Prop) (plan : Plan) (disk : Disk) (id : Identity) : Prop where
  absent : disk.receipts.lookup id = none → disk.effectsOf id = []
  signed : ∀ receipt, disk.receipts.lookup id = some receipt →
    receipt.digest = (plan.request id).signature
  allowed : Allowed (Removable calm plan id) (disk.effectsOf id)
  done : ∀ receipt, disk.receipts.lookup id = some receipt → receipt.state = .succeeded →
    decisive (disk.effectsOf id) = 1

theorem Ledger.congr {disk disk' : Disk} {id : Identity} (h : Ledger calm plan disk id)
    (hreceipts : disk'.receipts.lookup id = disk.receipts.lookup id)
    (heffects : disk'.effectsOf id = disk.effectsOf id) : Ledger calm plan disk' id := by
  refine ⟨?_, ?_, ?_, ?_⟩
  all_goals simp only [hreceipts, heffects]
  · exact h.absent
  · exact h.signed
  · exact h.allowed
  · exact h.done

/-- A request keeps the ledger of every item. -/
theorem Ledger.outcome {disk disk' : Disk} {id : Identity} (h : ∀ id, Ledger calm plan disk id)
    (houtcome : Outcome (Removable calm plan id) (plan.request id) disk disk') (other : Identity) :
    Ledger calm plan disk' other := by
  obtain hsame | ⟨hnone, state, hwrote⟩ := houtcome
  · exact (h other).congr (by rw [hsame.1]) (effectsOf_congr hsame.2 other)
  obtain ⟨added, hadded, hallowed, hdone⟩ := hwrote.effects
  by_cases hother : other = id
  · subst hother
    have heffects : disk'.effectsOf other = added :=
      (effectsOf_added hadded).trans (congrArg (· ++ added) ((h other).absent hnone))
    obtain ⟨result, hown⟩ := hwrote.own
    have hown : disk'.receipts.lookup other = some ⟨(plan.request other).signature, state, result⟩ :=
      hown
    refine ⟨fun h => ?_, fun receipt h => ?_, ?_, fun receipt h hstate => ?_⟩
    · rw [hown] at h
      cases h
    · rw [hown] at h
      obtain rfl := Option.some.inj h
      rfl
    · rw [heffects]
      exact hallowed
    · rw [hown] at h
      obtain rfl := Option.some.inj h
      rw [heffects]
      exact hdone hstate
  · exact (h other).congr (hwrote.others other hother) (effectsOf_others hadded hother)

/-- The receipts that are there stay. -/
def Kept (disk disk' : Disk) : Prop :=
  ∀ id receipt, disk.receipts.lookup id = some receipt → disk'.receipts.lookup id = some receipt

/-- A request keeps what has succeeded. -/
theorem Outcome.kept {selected : ℕ → Prop} {request : Request} {disk disk' : Disk}
    (h : Outcome selected request disk disk') : Kept disk disk' := by
  intro id receipt hreceipt
  obtain hsame | ⟨hnone, state, hwrote⟩ := h
  · rw [hsame.1]
    exact hreceipt
  · rw [hwrote.others id ?_]
    · exact hreceipt
    · rintro rfl
      rw [hnone] at hreceipt
      cases hreceipt

/-- The receipts of the other items are what they were. -/
theorem Outcome.others {selected : ℕ → Prop} {request : Request} {disk disk' : Disk}
    (h : Outcome selected request disk disk') {id : Identity} (hid : id ≠ request.operationId) :
    disk'.receipts.lookup id = disk.receipts.lookup id := by
  obtain hsame | ⟨-, state, hwrote⟩ := h
  · rw [hsame.1]
  · exact hwrote.others id hid

/-- The machine has recorded that the mutation of an item took effect. -/
def Succeeded (disk : Disk) (id : Identity) : Prop :=
  ∃ receipt, disk.receipts.lookup id = some receipt ∧ receipt.state = .succeeded

/-- What has succeeded stays so. -/
theorem Succeeded.kept {disk disk' : Disk} {id : Identity} (h : Succeeded disk id)
    (hkept : Kept disk disk') : Succeeded disk' id := by
  obtain ⟨receipt, hreceipt, hstate⟩ := h
  exact ⟨receipt, hkept id receipt hreceipt, hstate⟩

/-! ### The invariant -/

/-- No request was sent for the item, as far as its record says. -/
def Item.idle (item : Item) : Prop := item.state = .queued ∨ item.state = .failed

/-- The machine knows nothing of the item, and will not hear of it. -/
def Untouched (s : System) (id : Identity) : Prop :=
  s.disk.receipts.lookup id = none ∧ ∀ call ∈ s.requests, call.item ≠ id

/-- What a copy of the record says about success is true. -/
def Record.True (value : Record) (disk : Disk) : Prop :=
  ∀ id, (value.items id).state = .succeeded → Succeeded disk id

structure Faithful (calm orderly complete : Prop) (plan : Plan) (s : System) : Prop where
  ledger : ∀ id, Ledger calm plan s.disk id
  answered : ∀ reply ∈ s.replies, ∀ receipt, reply.answer = .ok receipt →
    s.disk.receipts.lookup reply.call.item = some receipt
  recorded : s.record.True s.disk
  copied : ∀ n task, s.tasks.lookup n = some task → task.value.True s.disk
  /-- An execution that goes on has the lock, and what has the lock is an execution. -/
  holding : ∀ n task, s.tasks.lookup n = some task → task.phase ≠ .waiting → s.holder = some n
  held : ∀ n, s.holder = some n → (s.tasks.lookup n).isSome
  sending : ∀ n value call rest, s.tasks.lookup n = some ⟨value, .sent call rest⟩ →
    (value.items call.item).state = .dispatching
  current : orderly → ∀ n task, s.holder = some n → s.tasks.lookup n = some task →
    task.value = s.record
  untouched : orderly → ∀ id, (s.record.items id).idle → Untouched s id
  settled : complete → ∀ id receipt, s.disk.receipts.lookup id = some receipt →
    receipt.state = .succeeded

/-- An execution gets the lock with a copy of the record that is still the record, and an item that
is recorded as `unknown` is not refused by a check. -/
def Orderly (plan : Plan) (s : System) : Action → Prop
  | .acquire n => ∀ task, s.tasks.lookup n = some task → task.value = s.record
  | .dispatch n authority _ => ∀ value id rest,
    s.tasks.lookup n = some ⟨value, .ready (id :: rest)⟩ → plan.check authority ≠ .ok () →
      (value.items id).state ≠ .unknown
  | _ => True

/-- Nobody replaces an object that is put aside to be deleted. -/
def Calm (plan : Plan) (s : System) : Action → Prop
  | .execute number env _ => ∀ call ∈ s.requests, call.number = number →
    Undisturbed env (plan.request call.item)
  | _ => True

/-- A request that has saved its first receipt is carried out to its end. -/
def Complete (plan : Plan) (s : System) : Action → Prop
  | .execute number env stop => ∀ call ∈ s.requests, call.number = number →
    Carried env (plan.request call.item) s.disk stop
  | _ => True

/-! ### Steps -/

/-- An execution that goes on saves its copy. -/
theorem Faithful.store (h : Faithful calm orderly complete plan s) {n : ℕ} {old task : Task}
    (hold : s.tasks.lookup n = some old) (hphase : old.phase ≠ .waiting)
    (htrue : task.value.True s.disk)
    (hsending : ∀ call rest, task.phase = .sent call rest →
      (task.value.items call.item).state = .dispatching)
    (hidle : orderly → ∀ id, (task.value.items id).idle → Untouched s id) :
    Faithful calm orderly complete plan (s.store n task) := by
  have hholder : s.holder = some n := h.holding n old hold hphase
  have htasks : ∀ {m found}, (s.store n task).tasks.lookup m = some found →
      m = n ∧ found = task ∨ m ≠ n ∧ s.tasks.lookup m = some found := by
    intro m found hfound
    rw [System.store, Table.lookup_insert_eq] at hfound
    split at hfound
    · rename_i hm
      exact .inl ⟨hm, (Option.some.inj hfound).symm⟩
    · rename_i hm
      exact .inr ⟨hm, hfound⟩
  refine ⟨h.ledger, h.answered, htrue, ?_, ?_, ?_, ?_, ?_, hidle, h.settled⟩
  · intro m found hfound
    obtain ⟨rfl, rfl⟩ | ⟨-, hfound⟩ := htasks hfound
    · exact htrue
    · exact h.copied m found hfound
  · intro m found hfound hwaiting
    obtain ⟨rfl, rfl⟩ | ⟨-, hfound⟩ := htasks hfound
    · exact hholder
    · exact h.holding m found hfound hwaiting
  · intro m hm
    rw [System.store, Table.lookup_insert_eq]
    split
    · rfl
    · exact h.held m hm
  · intro m value call rest hfound
    obtain ⟨rfl, rfl⟩ | ⟨-, hfound⟩ := htasks hfound
    · exact hsending call rest rfl
    · exact h.sending m value call rest hfound
  · intro horderly m found hm hfound
    obtain ⟨rfl, rfl⟩ | ⟨hne, -⟩ := htasks hfound
    · rfl
    · exact absurd (Option.some.inj (hm.symm.trans hholder)) hne

theorem Record.set_items (value : Record) (id other : Identity) (item : Item) :
    (value.set id item).items other = if other = id then item else value.items other := by
  simp [Record.set, Function.update_apply]

/-- It saves its copy after it has changed an item. -/
theorem Faithful.store_set (h : Faithful calm orderly complete plan s) {n : ℕ} {value : Record}
    {phase next : Phase} {id : Identity} {item : Item}
    (hold : s.tasks.lookup n = some ⟨value, phase⟩) (hphase : phase ≠ .waiting)
    (hsucceeded : item.state = .succeeded → Succeeded s.disk id)
    (hsending : ∀ call rest, next = .sent call rest → call.item = id ∧ item.state = .dispatching)
    (hidle : orderly → item.idle → Untouched s id) :
    Faithful calm orderly complete plan (s.store n ⟨value.set id item, next⟩) := by
  refine h.store hold hphase ?_ ?_ ?_
  · intro other
    rw [Record.set_items]
    split
    · rename_i hother
      rw [hother]
      exact hsucceeded
    · exact h.copied n _ hold other
  · intro call rest hnext
    obtain ⟨hcall, hitem⟩ := hsending call rest hnext
    rw [Record.set_items, if_pos hcall]
    exact hitem
  · intro horderly other
    rw [Record.set_items]
    split
    · rename_i hother
      rw [hother]
      exact hidle horderly
    · have hcurrent := h.current horderly n _ (h.holding n _ hold hphase) hold
      have hvalue : value = s.record := hcurrent
      rw [hvalue]
      exact h.untouched horderly other

/-- A request leaves for an item that does not count as untouched. -/
theorem Faithful.send (h : Faithful calm orderly complete plan s) {call : Call}
    (hbusy : ¬(s.record.items call.item).idle) :
    Faithful calm orderly complete plan
      { s with issued := s.issued + 1, requests := call :: s.requests } :=
  { h with
    untouched := fun horderly id hidle => by
      obtain ⟨hnone, hrequests⟩ := h.untouched horderly id hidle
      refine ⟨hnone, fun other hother => ?_⟩
      obtain rfl | hother := List.mem_cons.mp hother
      · rintro rfl
        exact hbusy hidle
      · exact hrequests other hother }

/-- The executions change, and nothing else. -/
theorem Faithful.retask (h : Faithful calm orderly complete plan s) {tasks : Table ℕ Task}
    {holder : Option ℕ}
    (htasks : ∀ n task, tasks.lookup n = some task → task.value.True s.disk ∧
      (task.phase ≠ .waiting → holder = some n) ∧
      ∀ call rest, task.phase = .sent call rest →
        (task.value.items call.item).state = .dispatching)
    (hheld : ∀ n, holder = some n → (tasks.lookup n).isSome)
    (hcurrent : orderly → ∀ n task, holder = some n → tasks.lookup n = some task →
      task.value = s.record) :
    Faithful calm orderly complete plan { s with tasks, holder } :=
  { h with
    copied := fun n task htask => (htasks n task htask).1
    holding := fun n task htask => (htasks n task htask).2.1
    held := hheld
    sending := fun n _ call rest htask => (htasks n _ htask).2.2 call rest rfl
    current := hcurrent }

/-- The executions are fewer. -/
theorem Faithful.retire (h : Faithful calm orderly complete plan s) {tasks : Table ℕ Task}
    {holder : Option ℕ}
    (htasks : ∀ n task, tasks.lookup n = some task → s.tasks.lookup n = some task)
    (hholder : ∀ n, holder = some n → s.holder = some n ∧ (tasks.lookup n).isSome)
    (hkept : ∀ n, s.holder = some n → (tasks.lookup n).isSome → holder = some n) :
    Faithful calm orderly complete plan { s with tasks, holder } := by
  refine h.retask ?_ (fun n hn => (hholder n hn).2) ?_
  · intro n task htask
    have hbefore := htasks n task htask
    refine ⟨h.copied n task hbefore, fun hphase => ?_, fun call rest hsent => ?_⟩
    · exact hkept n (h.holding n task hbefore hphase) (by rw [htask]; rfl)
    · obtain ⟨value, phase⟩ := task
      subst hsent
      exact h.sending n value call rest hbefore
  · intro horderly n task hn htask
    exact h.current horderly n task (hholder n hn).1 (htasks n task htask)

theorem lookup_erase_some {tasks : Table ℕ Task} {n m : ℕ} {task : Task}
    (h : (tasks.erase n).lookup m = some task) : m ≠ n ∧ tasks.lookup m = some task := by
  by_cases hm : m = n
  · subst hm
    rw [AList.lookup_erase] at h
    cases h
  · rw [AList.lookup_erase_ne hm] at h
    exact ⟨hm, h⟩

theorem Faithful.start (h : Faithful calm orderly complete plan s) (n : ℕ) :
    Faithful calm orderly complete plan (s.start n) := by
  unfold System.start
  split
  · exact h
  rename_i hnew
  have hholder : s.holder ≠ some n := fun hn => hnew (h.held n hn)
  refine h.retask ?_ ?_ ?_
  · intro m task htask
    rw [Table.lookup_insert_eq] at htask
    split at htask
    · obtain rfl := Option.some.inj htask
      exact ⟨h.recorded, by simp, by simp⟩
    · refine ⟨h.copied m task htask, h.holding m task htask, fun call rest hsent => ?_⟩
      obtain ⟨value, phase⟩ := task
      subst hsent
      exact h.sending m value call rest htask
  · intro m hm
    rw [Table.lookup_insert_eq]
    split
    · rfl
    · exact h.held m hm
  · intro horderly m task hm htask
    have hmn : m ≠ n := by
      rintro rfl
      exact hholder hm
    rw [AList.lookup_insert_ne hmn] at htask
    exact h.current horderly m task hm htask

/-- An execution with the lock goes on without saving. -/
theorem Faithful.advance (h : Faithful calm orderly complete plan s) {n : ℕ} {value : Record}
    {phase next : Phase} (hold : s.tasks.lookup n = some ⟨value, phase⟩)
    (hphase : phase ≠ .waiting)
    (hsending : ∀ call rest, next ≠ .sent call rest) :
    Faithful calm orderly complete plan
      { s with tasks := s.tasks.insert n ⟨value, next⟩ } := by
  have hholder := h.holding n _ hold hphase
  refine h.retask ?_ ?_ ?_
  · intro m task htask
    rw [Table.lookup_insert_eq] at htask
    split at htask
    · rename_i hm
      obtain rfl := Option.some.inj htask
      exact ⟨h.copied n ⟨value, phase⟩ hold, fun _ => hm ▸ hholder,
        fun call rest hsent => absurd hsent (hsending call rest)⟩
    · refine ⟨h.copied m task htask, h.holding m task htask, fun call rest hsent => ?_⟩
      obtain ⟨value, phase⟩ := task
      subst hsent
      exact h.sending m value call rest htask
  · intro m hm
    rw [Table.lookup_insert_eq]
    split
    · rfl
    · exact h.held m hm
  · intro horderly m task hm htask
    obtain rfl := Option.some.inj (hm.symm.trans hholder)
    rw [AList.lookup_insert] at htask
    obtain rfl := Option.some.inj htask
    have hvalue := h.current horderly m _ hholder hold
    exact hvalue

theorem Faithful.acquire (h : Faithful calm orderly complete plan s) {n : ℕ}
    (horder : orderly → Orderly plan s (.acquire n)) :
    Faithful calm orderly complete plan (s.acquire plan n) := by
  unfold System.acquire
  split
  case h_2 => exact h
  rename_i value hfree hold
  -- Nobody else goes on, since the lock is free.
  have hwaiting : ∀ m task, s.tasks.lookup m = some task → task.phase = .waiting := by
    intro m task htask
    by_contra hphase
    rw [h.holding m task htask hphase] at hfree
    cases hfree
  refine h.retask ?_ ?_ ?_
  · intro m task htask
    rw [Table.lookup_insert_eq] at htask
    split at htask
    · rename_i hm
      obtain rfl := Option.some.inj htask
      exact ⟨h.copied n ⟨value, .waiting⟩ hold, fun _ => by rw [hm], by simp⟩
    · have hphase := hwaiting m task htask
      exact ⟨h.copied m task htask, fun hne => absurd hphase hne, by simp [hphase]⟩
  · intro m hm
    obtain rfl := Option.some.inj hm
    rw [AList.lookup_insert]
    rfl
  · intro horderly m task hm htask
    obtain rfl := Option.some.inj hm
    rw [AList.lookup_insert] at htask
    obtain rfl := Option.some.inj htask
    exact horder horderly ⟨value, .waiting⟩ hold

theorem Faithful.cancel (h : Faithful calm orderly complete plan s) (n : ℕ) :
    Faithful calm orderly complete plan (s.cancel n) := by
  have hothers : ∀ m, m ≠ n → s.holder = some m → ((s.tasks.erase n).lookup m).isSome := by
    intro m hm hholder
    rw [AList.lookup_erase_ne hm]
    exact h.held m hholder
  refine h.retire (fun m task htask => (lookup_erase_some htask).2) (fun m hm => ?_) ?_
  · split at hm
    · cases hm
    · rename_i hne
      have hmn : m ≠ n := by
        rintro rfl
        exact hne hm
      exact ⟨hm, hothers m hmn hm⟩
  · intro m hm hsome
    obtain ⟨task, htask⟩ := Option.isSome_iff_exists.mp hsome
    have hmn := (lookup_erase_some htask).1
    rw [if_neg (by rw [hm]; simpa using hmn)]
    exact hm

/-- A restart keeps the state faithful. -/
theorem Faithful.restart (h : Faithful calm orderly complete plan s) :
    Faithful calm orderly complete plan s.restart :=
  h.retire (fun _ _ htask => (nomatch htask)) (fun _ hm => (nomatch hm))
    fun _ _ hsome => (nomatch hsome)

/-- A refused item is unknown only if it was sent. -/
theorem refused_state (item : Item) (e : Error) :
    (System.refused item e).state = if item.state = .dispatching then .unknown else .failed := rfl

theorem refused_idle {item : Item} {e : Error} (h : (System.refused item e).idle) :
    item.state ≠ .dispatching := by
  intro hitem
  rw [Item.idle, refused_state, if_pos hitem] at h
  simp at h

theorem refused_succeeded {item : Item} {e : Error} :
    (System.refused item e).state ≠ .succeeded := by
  rw [refused_state]
  split <;> simp

/-- A dispatch keeps the state faithful. -/
theorem Faithful.dispatch (h : Faithful calm orderly complete plan s) {n : ℕ}
    {authority sending : Except Error Unit}
    (horder : orderly → Orderly plan s (.dispatch n authority sending)) :
    Faithful calm orderly complete plan (s.dispatch plan n authority sending) := by
  unfold System.dispatch
  split
  case h_2 => exact h
  rename_i value id rest hold
  have hready : Phase.ready (id :: rest) ≠ .waiting := by simp
  simp only
  split
  · -- The item has succeeded and is passed over.
    exact h.advance hold hready (by simp)
  rename_i hpending
  have hvalue : orderly → value = s.record := fun horderly =>
    h.current horderly n _ (h.holding n _ hold hready) hold
  split
  · rename_i e hcheck
    refine h.store_set hold hready (fun hstate => absurd hstate refused_succeeded)
      (fun _ _ hnext => (nomatch hnext)) fun horderly hidle => ?_
    have hne := horder horderly value id rest hold (by rw [hcheck]; simp)
    -- An item that was never dispatched is recorded as failed.
    refine h.untouched horderly id ?_
    rw [← hvalue horderly]
    have hnot := refused_idle hidle
    unfold Item.idle
    cases hstate : (value.items id).state <;> simp_all
  · rename_i hcheck
    have hdispatching : ∀ item : Item, item.state = .dispatching → ¬item.idle := by
      intro item hitem hidle
      rw [Item.idle, hitem] at hidle
      simp at hidle
    split
    · rename_i e
      refine h.store_set hold hready (fun hstate => absurd hstate refused_succeeded)
        (fun _ _ hnext => (nomatch hnext)) fun _ hidle => absurd rfl (refused_idle hidle)
    · refine Faithful.send ?_ ?_
      · refine h.store_set hold hready (fun hstate => (nomatch hstate)) ?_
          fun _ hidle => absurd hidle (hdispatching _ rfl)
        intro call rest hnext
        obtain ⟨rfl, -⟩ := Phase.sent.inj hnext
        exact ⟨rfl, rfl⟩
      · refine hdispatching _ ?_
        change ((value.set id _).items id).state = _
        rw [Record.set_items, if_pos rfl]

/-- What an answer makes of an item that is `dispatching`. -/
theorem settled_state {item : Item} (hitem : item.state = .dispatching)
    (answer : Except Error Receipt) :
    (System.settled item answer).state =
      match answer with
      | .ok receipt => System.received receipt.state
      | .error _ => .unknown := by
  cases answer with
  | ok receipt => rfl
  | error e => exact (refused_state item e).trans (if_pos hitem)

/-- So does an answer. -/
theorem Faithful.conclude (h : Faithful calm orderly complete plan s) {n : ℕ} {value : Record}
    {call : Call} {rest : List Identity} {answer : Except Error Receipt}
    (hold : s.tasks.lookup n = some ⟨value, .sent call rest⟩)
    (hanswer : ∀ receipt, answer = .ok receipt →
      s.disk.receipts.lookup call.item = some receipt) :
    Faithful calm orderly complete plan
      (s.conclude n ⟨value, .sent call rest⟩ call rest answer) := by
  have hstate := settled_state (h.sending n value call rest hold) answer
  refine h.store_set hold (by simp) ?_ (fun _ _ hnext => (nomatch hnext)) fun _ hidle => ?_
  · intro hsucceeded
    rw [hstate] at hsucceeded
    split at hsucceeded
    · rename_i receipt
      refine ⟨receipt, hanswer receipt rfl, ?_⟩
      cases hreceipt : receipt.state with
      | unknown =>
        rw [hreceipt] at hsucceeded
        cases hsucceeded
      | succeeded => rfl
    · cases hsucceeded
  · rw [Item.idle, hstate] at hidle
    split at hidle
    · rename_i receipt
      cases hreceipt : receipt.state <;> simp [hreceipt, System.received] at hidle
    · simp at hidle

theorem Faithful.answer (h : Faithful calm orderly complete plan s) (n : ℕ) :
    Faithful calm orderly complete plan (s.answer n) := by
  unfold System.answer
  split
  case h_2 => exact h
  rename_i value call rest hold
  split
  · rename_i reply hfound
    refine h.conclude hold fun receipt hreceipt => ?_
    have hcall : reply.call = call := by simpa using List.find?_some hfound
    rw [← hcall]
    exact h.answered reply (List.mem_of_find?_eq_some hfound) receipt hreceipt
  · exact h

theorem Faithful.fail (h : Faithful calm orderly complete plan s) (n : ℕ) (e : Error) :
    Faithful calm orderly complete plan (s.fail n e) := by
  unfold System.fail
  split
  case h_2 => exact h
  rename_i value call rest hold
  exact h.conclude hold fun _ hreceipt => (nomatch hreceipt)

/-- So does the end of a request. -/
theorem Faithful.finish (h : Faithful calm orderly complete plan s) (n : ℕ) :
    Faithful calm orderly complete plan (s.finish plan n) := by
  unfold System.finish
  split
  case h_2 => exact h
  rename_i value hold
  have hholder := h.holding n _ hold (by simp)
  -- Nobody else goes on, since this execution has the lock.
  have hretired : Faithful calm orderly complete plan
      { s with tasks := s.tasks.erase n, holder := none } := by
    refine h.retire (fun m task htask => (lookup_erase_some htask).2) (fun _ hm => (nomatch hm))
      fun m hm hsome => ?_
    obtain ⟨task, htask⟩ := Option.isSome_iff_exists.mp hsome
    exact absurd (Option.some.inj (hm.symm.trans hholder)) (lookup_erase_some htask).1
  refine ⟨hretired.ledger, hretired.answered, h.copied n _ hold, hretired.copied,
    hretired.holding, hretired.held, hretired.sending, fun _ _ _ hm => (nomatch hm), ?_,
    hretired.settled⟩
  intro horderly id hidle
  have hvalue : value = s.record := h.current horderly n _ hholder hold
  rw [hvalue] at hidle
  exact h.untouched horderly id hidle

/-! ### Steps of the machine -/

/-- So does a request that the node carries out. -/
theorem Faithful.execute (h : Faithful calm orderly complete plan s) {number : ℕ}
    {env : Environment} {stop : Option ℕ}
    (hcalm : calm → Calm plan s (.execute number env stop))
    (hcomplete : complete → Complete plan s (.execute number env stop)) :
    Faithful calm orderly complete plan (s.execute plan number env stop) := by
  unfold System.execute
  split
  · exact h
  rename_i call hfound
  have hcall := List.mem_of_find?_eq_some hfound
  have hnumber : call.number = number := by simpa using List.find?_some hfound
  have hselected : ∀ ino, (Undisturbed env (plan.request call.item) →
      Selected (plan.request call.item) ino) → Removable calm plan call.item ino :=
    fun ino hino hc => hino (hcalm hc call hcall hnumber)
  have hspec := mutate_spec hselected s.disk
  have houtcome := cut_of_wp hspec (.inl (.refl s.disk)) stop
  have hkept := houtcome.kept
  refine ⟨Ledger.outcome h.ledger houtcome, ?_, fun id hid => (h.recorded id hid).kept hkept,
    fun n task htask id hid => (h.copied n task htask id hid).kept hkept, h.holding, h.held,
    h.sending, h.current, ?_, ?_⟩
  · intro reply hreply receipt hreceipt
    have hbefore : reply ∈ s.replies → _ := fun hmem =>
      hkept _ _ (h.answered reply hmem receipt hreceipt)
    split at hreply
    · rename_i hstop
      obtain rfl | hreply := List.mem_cons.mp hreply
      · rw [hstop]
        exact (result_of_wp hspec hreceipt).2.2
      · exact hbefore hreply
    · exact hbefore hreply
  · intro horderly id hidle
    obtain ⟨hnone, hrequests⟩ := h.untouched horderly id hidle
    have hne : id ≠ call.item := fun hid => hrequests call hcall hid.symm
    refine ⟨?_, fun other hother => hrequests other (List.mem_filter.mp hother).1⟩
    rw [← hnone]
    exact houtcome.others hne
  · intro hc id receipt hreceipt
    by_cases hid : id = call.item
    · subst hid
      cases hbefore : s.disk.receipts.lookup call.item with
      | none => exact (hcomplete hc call hcall hnumber).succeeded hbefore hreceipt
      | some previous =>
        have hafter := hkept _ _ hbefore
        obtain rfl := Option.some.inj (hafter.symm.trans hreceipt)
        exact h.settled hc _ _ hbefore
    · have hothers := @Outcome.others _ _ _ _ houtcome id hid
      exact h.settled hc id receipt (hothers.symm.trans hreceipt)

theorem Faithful.drop (h : Faithful calm orderly complete plan s) (number : ℕ) :
    Faithful calm orderly complete plan (s.drop number) :=
  ⟨h.ledger, fun reply hreply => h.answered reply (List.mem_filter.mp hreply).1, h.recorded,
    h.copied, h.holding, h.held, h.sending, h.current, fun horderly id hidle =>
      ⟨(h.untouched horderly id hidle).1, fun call hcall =>
        (h.untouched horderly id hidle).2 call (List.mem_filter.mp hcall).1⟩, h.settled⟩

theorem Faithful.disturb (h : Faithful calm orderly complete plan s)
    (f : FileSystem → FileSystem) : Faithful calm orderly complete plan (s.disturb f) :=
  ⟨fun id => (h.ledger id).congr rfl rfl, h.answered, h.recorded, h.copied, h.holding, h.held,
    h.sending, h.current, h.untouched, h.settled⟩

/-- So does every step. -/
theorem Faithful.step (h : Faithful calm orderly complete plan s) {a : Action}
    (horderly : orderly → Orderly plan s a) (hcalm : calm → Calm plan s a)
    (hcomplete : complete → Complete plan s a) :
    Faithful calm orderly complete plan (step plan s a) := by
  cases a with
  | start n => exact h.start n
  | acquire n => exact h.acquire horderly
  | dispatch n authority sending => exact h.dispatch horderly
  | answer n => exact h.answer n
  | fail n e => exact h.fail n e
  | finish n => exact h.finish n
  | cancel n => exact h.cancel n
  | execute number env stop => exact h.execute hcalm hcomplete
  | drop number => exact h.drop number
  | disturb f => exact h.disturb f
  | restart => exact h.restart

/-- So does a run. -/
theorem Faithful.run (h : Faithful calm orderly complete plan s) {actions : List Action}
    (horderly : orderly → Along (Files.step plan) (Orderly plan) s actions)
    (hcalm : calm → Along (Files.step plan) (Calm plan) s actions)
    (hcomplete : complete → Along (Files.step plan) (Complete plan) s actions) :
    Faithful calm orderly complete plan (run (Files.step plan) s actions) := by
  induction actions generalizing s with
  | nil => exact h
  | cons a rest ih =>
    refine ih (h.step (fun hc => (horderly hc).1) (fun hc => (hcalm hc).1)
      fun hc => (hcomplete hc).1) ?_ ?_ ?_
    · exact fun hc => (horderly hc).2
    · exact fun hc => (hcalm hc).2
    · exact fun hc => (hcomplete hc).2

end Ficc.Files
