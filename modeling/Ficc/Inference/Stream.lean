import Ficc.Execution.Spec
import Mathlib.Algebra.GroupWithZero.Nat

/-!
# Inference streams

A request to an engine endpoint is a sequence of exchanges with the executor: one opens the stream,
others read from it, and one may cancel it. The caller receives an asynchronous generator of the
data inside two `Stream` objects, whose clean-up cancels the executor's stream and releases the slot
of the request.

A stream is modelled with everything its coroutines share, and with the calls that are suspended in
one of its coroutines. A function below runs a coroutine up to the next `await`; it returns the
stream and what the coroutine has done on the way, in order. The lock of the node and the answer of
the executor are awaited one after the other.

## Main results

* `Sound.resume`, `Sound.anext`, `Sound.aclose`, `Sound.collect`: whatever the coroutines do, the slot
  is released when the stream closes and at no other time, and at most one opening and one
  cancellation are sent.
-/

namespace Ficc.Inference

open Execution

/-- What an exchange asks of the executor. -/
inductive Operation
  | open_
  | read
  | cancel
deriving DecidableEq

/-- The answer of the executor. The data is decoded, and is `some none` where it is no base64. -/
structure EndpointResult where
  status : ℕ
  data : Option (Option (List UInt8))
  error : Bool
  eof : Bool
deriving DecidableEq

/-- What an exchange waits for: the lock of the node, or the answer. -/
inductive Wait
  | lock
  | reply
deriving DecidableEq

/-- Where `response` is suspended. -/
inductive Responding
  | opening (wait : Wait)
  | asleep
  | reading (wait : Wait)
  | cancelling (wait : Wait)
deriving DecidableEq

/-- The method of the outer stream that was called. -/
inductive Caller
  | anext
  | aclose
deriving DecidableEq

/-- How the generator came to its `finally`. -/
inductive Ending
  /-- Its body ended or raised, in a call of the inner `__anext__`. -/
  | raised
  /-- The inner `aclose` closed it. -/
  | closed (caller : Caller)
  /-- It was dropped, and the event loop closes it. -/
  | collected
deriving DecidableEq

/-- Where a call is suspended after `response` has returned. -/
inductive Point
  /-- In the generator, before the next read. -/
  | asleep
  /-- In the generator, reading. -/
  | reading (wait : Wait)
  /-- In the `finally` of the generator, cancelling. -/
  | finishing (ending : Ending) (wait : Wait)
  /-- In the clean-up of the inner stream, cancelling. -/
  | cleaning (caller : Caller) (wait : Wait)
deriving DecidableEq

inductive Generator
  | created
  | suspended
  | running
  | done
deriving DecidableEq

/-- `response` is being awaited, or has raised, or has returned. -/
inductive Stage
  | responding (point : Responding)
  | refused
  | returned
deriving DecidableEq

/-- What a coroutine does besides changing the stream. -/
inductive Effect
  | send (operation : Operation)
  | release
deriving DecidableEq

/-- What ends an `await`. Raising includes the cancellation of the task. -/
inductive Outcome
  | acquired
  | slept
  | replied (value : EndpointResult)
  | raised
deriving DecidableEq

/-- An admitted request. `opened` is shared by the coroutines of `response`; `inner` and `outer` say
whether the two streams are closed. -/
structure Stream where
  service : Identity
  attempt : Identity
  opened : Bool
  stage : Stage
  current : EndpointResult
  generator : Generator
  inner : Bool
  outer : Bool
  calls : List Point
deriving DecidableEq

/-- A request that has been admitted, before its first exchange. -/
def Stream.admitted (service attempt : Identity) : Stream where
  service := service
  attempt := attempt
  opened := true
  stage := .responding (.opening .lock)
  current := ⟨0, none, false, false⟩
  generator := .created
  inner := false
  outer := false
  calls := []

namespace Stream

/-! ### Waiting for the response -/

/-- The exception handler of `response`, and of the admission if `cancel` awaits nothing. -/
def fail (s : Stream) : Stream × List Effect :=
  if s.opened then
    ({ s with opened := false, stage := .responding (.cancelling .lock) }, [])
  else ({ s with stage := .refused }, [.release])

/-- The beginning of an exchange in `response`. The deadline and the authority are checked first. -/
def request (s : Stream) (point : Responding) (permitted : Bool) : Stream × List Effect :=
  if permitted then ({ s with stage := .responding point }, []) else s.fail

/-- `response` looks at an answer. -/
def answer (s : Stream) (value : EndpointResult) : Stream × List Effect :=
  if value.status = 0 ∧ value.eof = false then ({ s with stage := .responding .asleep }, [])
  else if value.status = 0 then s.fail
  else ({ s with stage := .returned, current := value }, [])

/-- `response` goes on after an `await`. An outcome that cannot end the `await` does nothing. -/
def respond (s : Stream) (point : Responding) (outcome : Outcome) (permitted : Bool) :
    Stream × List Effect :=
  match point, outcome with
  | .opening .lock, .acquired =>
    ({ s with stage := .responding (.opening .reply) }, [.send .open_])
  | .opening .reply, .replied value => s.answer value
  | .opening _, .raised => s.fail
  | .asleep, .slept => s.request (.reading .lock) permitted
  | .asleep, .raised => s.fail
  | .reading .lock, .acquired =>
    ({ s with stage := .responding (.reading .reply) }, [.send .read])
  | .reading .reply, .replied value => s.answer value
  | .reading _, .raised => s.fail
  | .cancelling .lock, .acquired =>
    ({ s with stage := .responding (.cancelling .reply) }, [.send .cancel])
  | .cancelling .reply, .replied _ => ({ s with stage := .refused }, [.release])
  | .cancelling _, .raised => ({ s with stage := .refused }, [.release])
  | _, _ => (s, [])

/-! ### Reading and closing -/

/-- A call is suspended. -/
def suspend (s : Stream) (point : Point) : Stream := { s with calls := s.calls ++ [point] }

/-- The inner `aclose` has ended. An `aclose` of the outer stream goes on with `finish`; an
`__anext__` closes the outer stream, unless somebody else does. -/
def innerClosed (s : Stream) (caller : Caller) : Stream × List Effect :=
  match caller with
  | .aclose => (s, [.release])
  | .anext => if s.outer then (s, []) else ({ s with outer := true }, [.release])

/-- The clean-up of the inner stream is `cancel`. -/
def cleanup (s : Stream) (caller : Caller) : Stream × List Effect :=
  if s.opened then ({ s with opened := false }.suspend (.cleaning caller .lock), [])
  else s.innerClosed caller

/-- The generator has ended. An inner `__anext__` then closes the inner stream, where nothing is left
to do for the generator itself. -/
def ended (s : Stream) (ending : Ending) : Stream × List Effect :=
  let s := { s with generator := .done }
  match ending with
  | .raised => if s.inner then s.innerClosed .anext else { s with inner := true }.cleanup .anext
  | .closed caller => s.cleanup caller
  | .collected => (s, [])

/-- The `finally` of the generator. -/
def finally_ (s : Stream) (ending : Ending) : Stream × List Effect :=
  if s.opened then
    ({ s with opened := false, generator := .running }.suspend (.finishing ending .lock), [])
  else s.ended ending

/-- The inner `aclose`. A generator that is running cannot be closed and raises, and its clean-up
runs nevertheless. -/
def closeInner (s : Stream) (caller : Caller) : Stream × List Effect :=
  if s.inner then s.innerClosed caller
  else
    match s.generator with
    | .created => { s with inner := true, generator := .done }.cleanup caller
    | .suspended => { s with inner := true }.finally_ (.closed caller)
    | .running => { s with inner := true }.cleanup caller
    | .done => { s with inner := true }.cleanup caller

/-- The generator after it has yielded the data of an answer, or where there is none. -/
def afterYield (s : Stream) : Stream × List Effect :=
  if s.current.error ∨ s.current.eof then s.finally_ .raised
  else ({ s with generator := .running }.suspend .asleep, [])

/-- The top of the loop of the generator. -/
def loop (s : Stream) (permitted : Bool) : Stream × List Effect :=
  if permitted = false then s.finally_ .raised
  else
    match s.current.data with
    | none => s.afterYield
    | some none => s.finally_ .raised
    | some (some _) => ({ s with generator := .suspended }, [])

/-- `__anext__` of the outer stream. -/
def anext (s : Stream) (permitted : Bool) : Stream × List Effect :=
  if s.outer then (s, [])
  else if s.inner then s.innerClosed .anext
  else
    match s.generator with
    | .created => s.loop permitted
    | .suspended => s.afterYield
    | .running => s.closeInner .anext
    | .done => s.closeInner .anext

/-- `aclose` of the outer stream. -/
def aclose (s : Stream) : Stream × List Effect :=
  if s.outer then (s, []) else { s with outer := true }.closeInner .aclose

/-- The event loop closes a generator that has been dropped. -/
def collect (s : Stream) : Stream × List Effect :=
  if s.generator = .suspended ∧ s.calls = [] then s.finally_ .collected else (s, [])

/-- A call goes on after an `await`. The stream no longer holds the point of the call. An outcome
that cannot end the `await` leaves the call where it was. -/
def resume (s : Stream) (point : Point) (outcome : Outcome) (permitted : Bool) :
    Stream × List Effect :=
  match point, outcome with
  | .asleep, .slept =>
    if permitted then (s.suspend (.reading .lock), []) else s.finally_ .raised
  | .asleep, .raised => s.finally_ .raised
  | .reading .lock, .acquired => (s.suspend (.reading .reply), [.send .read])
  | .reading .reply, .replied value => { s with current := value }.loop permitted
  | .reading _, .raised => s.finally_ .raised
  | .finishing ending .lock, .acquired => (s.suspend (.finishing ending .reply), [.send .cancel])
  | .finishing ending .reply, .replied _ => s.ended ending
  | .finishing ending _, .raised => s.ended ending
  | .cleaning caller .lock, .acquired => (s.suspend (.cleaning caller .reply), [.send .cancel])
  | .cleaning caller .reply, .replied _ => s.innerClosed caller
  | .cleaning caller _, .raised => s.innerClosed caller
  | point, _ => (s.suspend point, [])

/-- What the event loop, or a user of the stream, does with it. -/
inductive Event
  | wake (call : ℕ) (outcome : Outcome) (permitted : Bool)
  | anext (permitted : Bool)
  | aclose
  | collect
deriving DecidableEq

/-- A stream handles an event. -/
def handle (s : Stream) (event : Event) : Stream × List Effect :=
  match s.stage, event with
  | .responding point, .wake _ outcome permitted => s.respond point outcome permitted
  | .returned, .wake call outcome permitted =>
    match s.calls[call]? with
    | some point => { s with calls := s.calls.eraseIdx call }.resume point outcome permitted
    | none => (s, [])
  | .returned, .anext permitted => s.anext permitted
  | .returned, .aclose => s.aclose
  | .returned, .collect => s.collect
  | _, _ => (s, [])

end Stream

/-! ### What a step keeps -/

/-- The number of slots that a call of the method will release. -/
def Caller.owes : Caller → ℕ
  | .anext => 0
  | .aclose => 1

def Ending.owes : Ending → ℕ
  | .closed caller => caller.owes
  | _ => 0

def Point.owes : Point → ℕ
  | .finishing ending _ => ending.owes
  | .cleaning caller _ => caller.owes
  | _ => 0

/-- The number of cancellations that a call is about to send. -/
def Point.cancels : Point → ℕ
  | .finishing _ .lock => 1
  | .cleaning _ .lock => 1
  | _ => 0

namespace Stream

/-- The slots that a stream with a response holds: one until it is closed, and then one while the
call that closes it is suspended. -/
def slots (s : Stream) : ℕ := (s.calls.map Point.owes).sum + if s.outer then 0 else 1

/-- The cancellations that a stream with a response may still send. -/
def cancels (s : Stream) : ℕ := (s.calls.map Point.cancels).sum + if s.opened then 1 else 0

/-- A step of a stream with a response, taken by a call that owes a number of slots: what it releases
it no longer holds, and it sends no more cancellations than it may. -/
structure Keeps (owed : ℕ) (s : Stream) (result : Stream × List Effect) : Prop where
  service : result.1.service = s.service
  attempt : result.1.attempt = s.attempt
  stage : result.1.stage = s.stage
  releases : result.2.count .release + result.1.slots = s.slots + owed
  cancellations : result.2.count (.send .cancel) + result.1.cancels ≤ s.cancels
  openings : result.2.count (.send .open_) = 0

@[simp]
theorem slots_suspend (s : Stream) (point : Point) :
    (s.suspend point).slots = s.slots + point.owes := by
  show ((s.calls ++ [point]).map Point.owes).sum + (if s.outer then 0 else 1) = _
  rw [List.map_append, List.sum_append, slots]
  simp only [List.map_cons, List.map_nil, List.sum_cons, List.sum_nil]
  omega

@[simp]
theorem cancels_suspend (s : Stream) (point : Point) :
    (s.suspend point).cancels = s.cancels + point.cancels := by
  show ((s.calls ++ [point]).map Point.cancels).sum + (if s.opened then 1 else 0) = _
  rw [List.map_append, List.sum_append, cancels]
  simp only [List.map_cons, List.map_nil, List.sum_cons, List.sum_nil]
  omega

variable {s : Stream}

variable {owed : ℕ} {result : Stream × List Effect}

/-- A call that does nothing but wait owes what its point owes. -/
theorem keeps_suspend (point : Point) (howed : point.owes = owed) (hcancels : point.cancels = 0) :
    Keeps owed s (s.suspend point, []) where
  service := rfl
  attempt := rfl
  stage := rfl
  releases := by simp [howed]
  cancellations := by simp [hcancels]
  openings := rfl

/-- A call that begins to cancel. -/
theorem keeps_cancel (point : Point) (hopened : s.opened = true) (howed : point.owes = owed)
    (hcancels : point.cancels = 1) :
    Keeps owed s ({ s with opened := false }.suspend point, []) where
  service := rfl
  attempt := rfl
  stage := rfl
  releases := by
    rw [slots_suspend, howed]
    exact Nat.zero_add _
  cancellations := by
    have hafter : { s with opened := false }.cancels = (s.calls.map Point.cancels).sum := rfl
    have hbefore : s.cancels = (s.calls.map Point.cancels).sum + 1 := by simp [cancels, hopened]
    rw [cancels_suspend, hafter, hbefore, hcancels]
    exact le_of_eq (Nat.zero_add _)
  openings := rfl

/-- A call that has its lock sends. -/
theorem keeps_send {point : Point} {operation : Operation} (howed : point.owes = owed)
    (hcancels : point.cancels = 0) (hopen : operation ≠ .open_) (hcancel : operation ≠ .cancel) :
    Keeps owed s (s.suspend point, [.send operation]) where
  service := rfl
  attempt := rfl
  stage := rfl
  releases := by simp [howed]
  cancellations := by simp [hcancels, hcancel]
  openings := by simp [hopen]

theorem keeps_self (s : Stream) : Keeps 0 s (s, []) := ⟨rfl, rfl, rfl, by simp, by simp, rfl⟩

/-- Every step releases what its caller owes, or the stream still holds it. -/
theorem keeps_innerClosed (s : Stream) (caller : Caller) :
    Keeps caller.owes s (s.innerClosed caller) := by
  cases caller with
  | aclose => exact ⟨rfl, rfl, rfl, by simp [innerClosed, Caller.owes]; omega, by simp [innerClosed],
      rfl⟩
  | anext =>
    unfold innerClosed
    by_cases houter : s.outer = true
    · exact ⟨by simp [houter], by simp [houter], by simp [houter], by simp [houter, Caller.owes],
        by simp [houter], by simp [houter]⟩
    · simp only [houter, if_false, Bool.false_eq_true]
      exact ⟨rfl, rfl, rfl, by simp [slots, houter, Caller.owes]; omega, le_of_eq (by simp [cancels]),
        rfl⟩

theorem keeps_cleanup (s : Stream) (caller : Caller) :
    Keeps caller.owes s (s.cleanup caller) := by
  unfold cleanup
  split_ifs with hopened
  · exact keeps_cancel (.cleaning caller .lock) hopened rfl rfl
  · exact keeps_innerClosed s caller

/-- The flags of the inner stream and of the generator hold no slot. -/
theorem Keeps.of_same {s' : Stream} (h : Keeps owed s' result) (hservice : s'.service = s.service)
    (hattempt : s'.attempt = s.attempt) (hstage : s'.stage = s.stage) (hcalls : s'.calls = s.calls)
    (houter : s'.outer = s.outer) (hopened : s'.opened = s.opened) : Keeps owed s result where
  service := h.service.trans hservice
  attempt := h.attempt.trans hattempt
  stage := h.stage.trans hstage
  releases := by
    have hslots : s'.slots = s.slots := by rw [slots, slots, hcalls, houter]
    rw [h.releases, hslots]
  cancellations := by
    have hcancels : s'.cancels = s.cancels := by rw [cancels, cancels, hcalls, hopened]
    rw [← hcancels]
    exact h.cancellations
  openings := h.openings

theorem keeps_ended (s : Stream) (ending : Ending) : Keeps ending.owes s (s.ended ending) := by
  cases ending with
  | raised =>
    simp only [ended]
    split_ifs
    · exact (keeps_innerClosed { s with generator := .done } .anext).of_same rfl rfl rfl rfl rfl rfl
    · exact (keeps_cleanup { s with generator := .done, inner := true } .anext).of_same rfl rfl rfl
        rfl rfl rfl
  | closed caller =>
    exact (keeps_cleanup { s with generator := .done } caller).of_same rfl rfl rfl rfl rfl rfl
  | collected => exact (keeps_self { s with generator := .done }).of_same rfl rfl rfl rfl rfl rfl

theorem keeps_finally (s : Stream) (ending : Ending) :
    Keeps ending.owes s (s.finally_ ending) := by
  unfold finally_
  split_ifs with hopened
  · have hrunning : Keeps ending.owes { s with generator := .running }
        ({ s with opened := false, generator := .running }.suspend (.finishing ending .lock), []) :=
      keeps_cancel (.finishing ending .lock) hopened rfl rfl
    exact hrunning.of_same rfl rfl rfl rfl rfl rfl
  · exact keeps_ended s ending

theorem keeps_closeInner (s : Stream) (caller : Caller) :
    Keeps caller.owes s (s.closeInner caller) := by
  unfold closeInner
  split_ifs
  · exact keeps_innerClosed s caller
  · split
    · exact (keeps_cleanup { s with inner := true, generator := .done } caller).of_same rfl rfl rfl
        rfl rfl rfl
    · exact (keeps_finally { s with inner := true } (.closed caller)).of_same rfl rfl rfl rfl rfl rfl
    · exact (keeps_cleanup { s with inner := true } caller).of_same rfl rfl rfl rfl rfl rfl
    · exact (keeps_cleanup { s with inner := true } caller).of_same rfl rfl rfl rfl rfl rfl

theorem keeps_afterYield (s : Stream) : Keeps 0 s s.afterYield := by
  unfold afterYield
  split_ifs
  · exact keeps_finally s .raised
  · have hrunning : Keeps 0 { s with generator := .running }
        ({ s with generator := .running }.suspend .asleep, []) := keeps_suspend .asleep rfl rfl
    exact hrunning.of_same rfl rfl rfl rfl rfl rfl

theorem keeps_loop (s : Stream) (permitted : Bool) : Keeps 0 s (s.loop permitted) := by
  unfold loop
  split_ifs
  · exact keeps_finally s .raised
  · split
    · exact keeps_afterYield s
    · exact keeps_finally s .raised
    · exact (keeps_self { s with generator := .suspended }).of_same rfl rfl rfl rfl rfl rfl

theorem keeps_anext (s : Stream) (permitted : Bool) : Keeps 0 s (s.anext permitted) := by
  unfold anext
  split_ifs
  · exact keeps_self s
  · exact keeps_innerClosed s .anext
  · split
    · exact keeps_loop s permitted
    · exact keeps_afterYield s
    · exact keeps_closeInner s .anext
    · exact keeps_closeInner s .anext

/-- The first call of `aclose` holds the slot until it has released it. -/
theorem keeps_aclose (s : Stream) : Keeps 0 s s.aclose := by
  unfold aclose
  split_ifs with houter
  · exact keeps_self s
  · have hclose := keeps_closeInner { s with outer := true } .aclose
    exact ⟨hclose.service, hclose.attempt, hclose.stage,
      by rw [hclose.releases]; simp [slots, houter, Caller.owes], hclose.cancellations,
      hclose.openings⟩

theorem keeps_collect (s : Stream) : Keeps 0 s s.collect := by
  unfold collect
  split_ifs
  · exact keeps_finally s .collected
  · exact keeps_self s

/-- What a call releases, it owed where it was suspended. -/
theorem Keeps.of_suspend (point : Point) (h : Keeps point.owes s result) :
    Keeps 0 (s.suspend point) result :=
  { h with
    releases := by rw [slots_suspend]; exact h.releases
    cancellations := by rw [cancels_suspend]; exact h.cancellations.trans (Nat.le_add_right _ _) }

/-- A call that has its lock sends the cancellation that it was about to send. -/
theorem keeps_sendCancel {before after : Point} (hsame : after.owes = before.owes)
    (hbefore : before.cancels = 1) (hafter : after.cancels = 0) :
    Keeps 0 (s.suspend before) (s.suspend after, [.send .cancel]) where
  service := rfl
  attempt := rfl
  stage := rfl
  releases := by simp [hsame]
  cancellations := by simp [hbefore, hafter, Nat.add_comm]
  openings := rfl

/-- A resumed call pays what it owes. -/
theorem keeps_resume (s : Stream) (point : Point) (outcome : Outcome) (permitted : Bool) :
    Keeps 0 (s.suspend point) (s.resume point outcome permitted) := by
  unfold resume
  split
  · split_ifs
    · exact (keeps_suspend (.reading .lock) rfl rfl).of_suspend .asleep
    · exact (keeps_finally s .raised).of_suspend .asleep
  · exact (keeps_finally s .raised).of_suspend .asleep
  · exact Keeps.of_suspend (.reading .lock) (keeps_send rfl rfl (by decide) (by decide))
  · rename_i value
    exact Keeps.of_suspend (.reading .reply)
      ((keeps_loop { s with current := value } permitted).of_same rfl rfl rfl rfl rfl rfl)
  · rename_i wait
    exact (keeps_finally s .raised).of_suspend (.reading wait)
  · exact keeps_sendCancel rfl rfl rfl
  · exact (keeps_ended s _).of_suspend (.finishing _ .reply)
  · rename_i ending wait
    exact (keeps_ended s ending).of_suspend (.finishing ending wait)
  · exact keeps_sendCancel rfl rfl rfl
  · exact (keeps_innerClosed s _).of_suspend (.cleaning _ .reply)
  · rename_i caller wait
    exact (keeps_innerClosed s caller).of_suspend (.cleaning caller wait)
  · exact keeps_self _

/-- A suspended call can be taken to be the last one. -/
theorem sum_eraseIdx {α : Type} (f : α → ℕ) {calls : List α} {call : ℕ} {point : α}
    (h : calls[call]? = some point) :
    ((calls.eraseIdx call).map f).sum + f point = (calls.map f).sum := by
  obtain ⟨hlt, rfl⟩ := List.getElem?_eq_some_iff.mp h
  have hperm := (List.getElem_cons_eraseIdx_perm hlt).map f
  rw [← hperm.sum_eq, List.map_cons, List.sum_cons, Nat.add_comm]

/-- So does one of several calls. -/
theorem keeps_wake {call : ℕ} {point : Point} (h : s.calls[call]? = some point)
    (outcome : Outcome) (permitted : Bool) :
    Keeps 0 s ({ s with calls := s.calls.eraseIdx call }.resume point outcome permitted) := by
  have hresume := keeps_resume { s with calls := s.calls.eraseIdx call } point outcome permitted
  have hslots : ({ s with calls := s.calls.eraseIdx call }.suspend point).slots = s.slots := by
    have hsum := sum_eraseIdx Point.owes h
    show ((s.calls.eraseIdx call ++ [point]).map Point.owes).sum + (if s.outer then 0 else 1) = _
    rw [List.map_append, List.sum_append, slots, ← hsum]
    simp only [List.map_cons, List.map_nil, List.sum_cons, List.sum_nil, Nat.add_zero]
  have hcancels : ({ s with calls := s.calls.eraseIdx call }.suspend point).cancels =
      s.cancels := by
    have hsum := sum_eraseIdx Point.cancels h
    show ((s.calls.eraseIdx call ++ [point]).map Point.cancels).sum +
      (if s.opened then 1 else 0) = _
    rw [List.map_append, List.sum_append, cancels, ← hsum]
    simp only [List.map_cons, List.map_nil, List.sum_cons, List.sum_nil, Nat.add_zero]
  exact ⟨hresume.service, hresume.attempt, hresume.stage, hslots ▸ hresume.releases,
    hcancels ▸ hresume.cancellations, hresume.openings⟩

/-! ### What all steps keep -/

/-- The slots that a stream holds. -/
def held (s : Stream) : ℕ :=
  match s.stage with
  | .responding _ => 1
  | .refused => 0
  | .returned => s.slots

/-- The cancellations that a stream may still send. -/
def mayCancel (s : Stream) : ℕ :=
  s.cancels + if s.stage = .responding (.cancelling .lock) then 1 else 0

/-- The openings that a stream may still send. -/
def mayOpen (s : Stream) : ℕ :=
  if s.stage = .responding (.opening .lock) then 1 else 0

/-- A stream and all that its coroutines have done: it has released its slot or holds it, and it
sends no exchange twice. -/
structure Sound (s : Stream) (effects : List Effect) : Prop where
  fresh : s.stage ≠ .returned → s.calls = [] ∧ s.outer = false
  releases : effects.count .release + s.held = 1
  cancellations : effects.count (.send .cancel) + s.mayCancel ≤ 1
  openings : effects.count (.send .open_) + s.mayOpen ≤ 1

/-- A new stream is sound. -/
theorem sound_admitted (service attempt : Identity) : (admitted service attempt).Sound [] where
  fresh _ := ⟨rfl, rfl⟩
  releases := rfl
  cancellations := le_refl _
  openings := le_refl _

variable {effects : List Effect}

/-- A step of a stream with a response. -/
theorem Sound.of_keeps (h : s.Sound effects) (hstage : s.stage = .returned)
    (hkeeps : Keeps 0 s result) :
    result.1.Sound (effects ++ result.2) := by
  have hreturned : result.1.stage = .returned := hkeeps.stage.trans hstage
  have hreleases := h.releases
  have hcancellations := h.cancellations
  have hopenings := h.openings
  simp only [held, mayCancel, hstage, reduceCtorEq, if_false] at hreleases hcancellations
  simp only [mayOpen, hstage, reduceCtorEq, if_false] at hopenings
  refine ⟨fun hne => absurd hreturned hne, ?_, ?_, ?_⟩
  · have hsame := hkeeps.releases
    simp only [held, hreturned, List.count_append]
    omega
  · have hsame := hkeeps.cancellations
    simp only [mayCancel, hreturned, List.count_append, reduceCtorEq, if_false]
    omega
  · have hsame := hkeeps.openings
    simp only [mayOpen, hreturned, List.count_append, reduceCtorEq, if_false]
    omega

/-- A step of a stream that has no response yet, and the stage to which it leads. -/
theorem Sound.of_responding (h : s.Sound effects) {point : Responding} {stage : Stage}
    (opened : Bool) (value : EndpointResult) {done : List Effect}
    (hstage : s.stage = .responding point)
    (hreleases : done.count .release + (if stage = .refused then 0 else 1) = 1)
    (hcancellations : done.count (.send .cancel) +
        ((if opened then 1 else 0) + if stage = .responding (.cancelling .lock) then 1 else 0) ≤
      (if s.opened then 1 else 0) + if point = .cancelling .lock then 1 else 0)
    (hopenings : done.count (.send .open_) +
        (if stage = .responding (.opening .lock) then 1 else 0) ≤
      if point = .opening .lock then 1 else 0) :
    ({ s with stage := stage, opened := opened, current := value }).Sound (effects ++ done) := by
  obtain ⟨hcalls, houter⟩ := h.fresh (by rw [hstage]; simp)
  have hold := h.releases
  have holdCancellations := h.cancellations
  have holdOpenings := h.openings
  simp only [held, mayCancel, mayOpen, cancels, hstage, hcalls, List.map_nil, List.sum_nil,
    Stage.responding.injEq, Nat.zero_add] at hold holdCancellations holdOpenings
  refine ⟨fun _ => ⟨hcalls, houter⟩, ?_, ?_, ?_⟩
  · have hheld : ({ s with stage := stage, opened := opened, current := value }).held =
        if stage = .refused then 0 else 1 := by
      cases stage <;> simp [held, slots, hcalls, houter]
    rw [hheld, List.count_append]
    omega
  · simp only [mayCancel, cancels, hcalls, List.map_nil, List.sum_nil, List.count_append,
      Nat.zero_add]
    omega
  · simp only [mayOpen, List.count_append]
    omega

/-- The exception handler sends one cancellation, and then releases the slot. -/
theorem Sound.fail (h : s.Sound effects) {point : Responding}
    (hstage : s.stage = .responding point) : s.fail.1.Sound (effects ++ s.fail.2) := by
  unfold Stream.fail
  split_ifs with hopened
  · exact h.of_responding false s.current hstage rfl (by simp [hopened]) (by simp)
  · exact h.of_responding s.opened s.current hstage rfl (by simp) (by simp)

/-- A request keeps it sound. -/
theorem Sound.request (h : s.Sound effects) {point next : Responding}
    (hstage : s.stage = .responding point) (hcancel : next ≠ .cancelling .lock)
    (hopen : next = .opening .lock → point = .opening .lock) (permitted : Bool) :
    (s.request next permitted).1.Sound (effects ++ (s.request next permitted).2) := by
  unfold Stream.request
  split_ifs
  · refine h.of_responding s.opened s.current hstage rfl (by simp [hcancel]) ?_
    by_cases hnext : next = .opening .lock
    · rw [if_pos (congrArg Stage.responding hnext), if_pos (hopen hnext)]
      simp
    · simp [hnext]
  · exact h.fail hstage

/-- So does the answer. -/
theorem Sound.answer (h : s.Sound effects) {point : Responding}
    (hstage : s.stage = .responding point) (value : EndpointResult) :
    (s.answer value).1.Sound (effects ++ (s.answer value).2) := by
  unfold Stream.answer
  split_ifs
  · exact h.of_responding s.opened s.current hstage rfl (by simp) (by simp)
  · exact h.fail hstage
  · exact h.of_responding s.opened value hstage rfl (by simp) (by simp)

theorem Sound.respond (h : s.Sound effects) {point : Responding}
    (hstage : s.stage = .responding point) (outcome : Outcome) (permitted : Bool) :
    (s.respond point outcome permitted).1.Sound
      (effects ++ (s.respond point outcome permitted).2) := by
  unfold Stream.respond
  split
  · exact h.of_responding s.opened s.current hstage rfl (by simp) (by simp)
  · exact h.answer hstage _
  · exact h.fail hstage
  · exact h.request hstage (by simp) (by simp) permitted
  · exact h.fail hstage
  · exact h.of_responding s.opened s.current hstage rfl (by simp) (by simp)
  · exact h.answer hstage _
  · exact h.fail hstage
  -- The cancellation is sent where it was about to be, and the slot is released after it.
  · exact h.of_responding s.opened s.current hstage rfl (by simp [Nat.add_comm]) (by simp)
  · exact h.of_responding s.opened s.current hstage rfl (by simp) (by simp)
  · exact h.of_responding s.opened s.current hstage rfl (by simp) (by simp)
  · rw [List.append_nil]
    exact h

/-- Whatever happens to a stream, it releases its slot at most once, and sends at most one opening
and one cancellation. -/
theorem Sound.handle (h : s.Sound effects) (event : Event) :
    (s.handle event).1.Sound (effects ++ (s.handle event).2) := by
  unfold Stream.handle
  split
  · rename_i point call outcome permitted hstage
    exact h.respond hstage outcome permitted
  · rename_i call outcome permitted hstage
    split
    · rename_i point hpoint
      exact h.of_keeps hstage (keeps_wake hpoint outcome permitted)
    · exact h.of_keeps hstage (keeps_self s)
  · rename_i permitted hstage
    exact h.of_keeps hstage (keeps_anext s permitted)
  · rename_i hstage
    exact h.of_keeps hstage (keeps_aclose s)
  · rename_i hstage
    exact h.of_keeps hstage (keeps_collect s)
  · rw [List.append_nil]
    exact h

/-- Nothing more happens to the slot of the stream: `response` has raised, or a call that closed the
stream has run to its end. -/
def Closed (s : Stream) : Prop :=
  s.stage = .refused ∨
    s.stage = .returned ∧ s.outer = true ∧ ∀ point ∈ s.calls, point.owes = 0

instance (s : Stream) : Decidable s.Closed := inferInstanceAs (Decidable (_ ∨ _))

/-- No coroutine of the stream is suspended. -/
def Quiet (s : Stream) : Prop := (∀ point, s.stage ≠ .responding point) ∧ s.calls = []

/-- A stream holds its slot as long as it is not closed. -/
theorem Sound.held_eq (h : s.Sound effects) : s.held = if s.Closed then 0 else 1 := by
  have hreleases := h.releases
  unfold held Closed at *
  split at hreleases <;> rename_i hstage
  · simp [hstage]
  · simp [hstage]
  · by_cases houter : s.outer = true
    · simp only [hstage, slots, houter, if_true, reduceCtorEq, false_or, true_and, Nat.add_zero]
        at hreleases ⊢
      split_ifs with howes
      · exact List.sum_eq_zero_iff_forall_eq_nat.mpr (by simpa using howes)
      · have hne : (s.calls.map Point.owes).sum ≠ 0 := by
          intro hzero
          exact howes (by simpa using List.sum_eq_zero_iff_forall_eq_nat.mp hzero)
        omega
    · simp only [hstage, slots, houter, if_false, reduceCtorEq, false_or, true_and, false_and,
        Bool.false_eq_true] at hreleases ⊢
      omega

/-- A step changes neither the service nor the attempt. -/
theorem handle_same (s : Stream) (event : Event) :
    (s.handle event).1.service = s.service ∧ (s.handle event).1.attempt = s.attempt := by
  have hfail : s.fail.1.service = s.service ∧ s.fail.1.attempt = s.attempt := by
    unfold fail
    split_ifs <;> exact ⟨rfl, rfl⟩
  have hanswer : ∀ value, (s.answer value).1.service = s.service ∧
      (s.answer value).1.attempt = s.attempt := by
    intro value
    unfold answer
    split_ifs
    · exact ⟨rfl, rfl⟩
    · exact hfail
    · exact ⟨rfl, rfl⟩
  unfold handle
  split
  · unfold respond request
    split
    all_goals first | exact ⟨rfl, rfl⟩ | exact hfail | exact hanswer _ | skip
    split_ifs
    · exact ⟨rfl, rfl⟩
    · exact hfail
  · split
    · rename_i hpoint
      exact ⟨(keeps_wake hpoint _ _).service, (keeps_wake hpoint _ _).attempt⟩
    · exact ⟨rfl, rfl⟩
  · exact ⟨(keeps_anext s _).service, (keeps_anext s _).attempt⟩
  · exact ⟨(keeps_aclose s).service, (keeps_aclose s).attempt⟩
  · exact ⟨(keeps_collect s).service, (keeps_collect s).attempt⟩
  · exact ⟨rfl, rfl⟩

end Stream

end Ficc.Inference
