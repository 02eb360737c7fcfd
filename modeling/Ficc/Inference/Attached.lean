import Ficc.Inference.Stream

/-!
# Streams of attached endpoints

A request to an attached endpoint is sent by a client of its own, which is closed with the response.
The caller receives one `Stream` around a generator of the data. Its clean-up closes the response and
the client and then releases the slot, so that a client that cannot be closed keeps the slot
(`cut`).

## Main results

* `Sound.handle`: whatever the coroutines do, the slot is released when the stream closes, unless the
  clean-up is cut, and at no other time.
-/

namespace Ficc.Inference

open Execution (Identity Digest)

namespace Attached

/-- The request is being sent, or it could not be sent, or the endpoint has answered. -/
inductive Stage
  | sending
  | refused
  | returned
deriving DecidableEq

/-- How the generator came to its `finally`. -/
inductive Ending
  /-- The data ended, or an exception was raised. -/
  | raised
  /-- `aclose` closed it. -/
  | closed
  /-- It was dropped, and the event loop closes it. -/
  | collected
deriving DecidableEq

/-- Where a call is suspended. -/
inductive Point
  /-- In the generator, before the next data. -/
  | reading
  /-- In the `finally` of the generator, closing the response. -/
  | finishing (ending : Ending)
  /-- In `finish`, closing the response. -/
  | response
  /-- In `finish`, closing the client. -/
  | client
deriving DecidableEq

/-- What ends an `await`. Raising includes the end of the data, a check that fails and the
cancellation of the task. -/
inductive Outcome
  | done
  | raised
deriving DecidableEq

/-- What the event loop, or a user of the stream, does with it. -/
inductive Event
  | wake (call : ℕ) (outcome : Outcome)
  | anext
  | aclose
  | collect
deriving DecidableEq

end Attached

open Attached in
/-- An admitted request to an attached endpoint. -/
structure Attached where
  service : Identity
  profile : Digest
  stage : Attached.Stage
  generator : Generator
  closed : Bool
  calls : List Attached.Point
  /-- The number of clean-ups that have raised at the client. -/
  cut : ℕ
deriving DecidableEq

namespace Attached

/-! ### The coroutines -/

/-- A request that has been admitted, up to the sending. Where a check fails or the credential cannot
be read, nothing is sent. -/
def admitted (service : Identity) (profile : Digest) (permitted : Bool) : Attached × List Effect :=
  let s : Attached := ⟨service, profile, .sending, .created, false, [], 0⟩
  if permitted then (s, [.send .open_]) else ({ s with stage := .refused }, [.release])

/-- A call is suspended. -/
def suspend (s : Attached) (point : Point) : Attached := { s with calls := s.calls ++ [point] }

/-- The generator has ended. An `__anext__` then closes the stream, unless somebody else does. -/
def ended (s : Attached) (ending : Ending) : Attached × List Effect :=
  let s := { s with generator := .done }
  match ending with
  | .raised => if s.closed then (s, []) else ({ s with closed := true }.suspend .response, [])
  | .closed => (s.suspend .response, [])
  | .collected => (s, [])

/-- The `finally` of the generator. -/
def finally_ (s : Attached) (ending : Ending) : Attached × List Effect :=
  ({ s with generator := .running }.suspend (.finishing ending), [])

/-- `aclose` of the stream. A generator that is running cannot be closed and raises, and the clean-up
runs nevertheless. -/
def aclose (s : Attached) : Attached × List Effect :=
  if s.closed then (s, [])
  else
    let s := { s with closed := true }
    match s.generator with
    | .created => ({ s with generator := .done }.suspend .response, [])
    | .suspended => s.finally_ .closed
    | .running | .done => (s.suspend .response, [])

/-- `__anext__` of the stream. -/
def anext (s : Attached) : Attached × List Effect :=
  if s.closed then (s, [])
  else
    match s.generator with
    | .created | .suspended => ({ s with generator := .running }.suspend .reading, [])
    | .running | .done => s.aclose

/-- The event loop closes a generator that has been dropped. -/
def collect (s : Attached) : Attached × List Effect :=
  if s.generator = .suspended ∧ s.calls = [] then s.finally_ .collected else (s, [])

/-- A call goes on after an `await`. The stream no longer holds the point of the call. -/
def resume (s : Attached) (point : Point) (outcome : Outcome) : Attached × List Effect :=
  match point, outcome with
  | .reading, .done => ({ s with generator := .suspended }, [])
  | .reading, .raised => s.finally_ .raised
  | .finishing ending, _ => s.ended ending
  | .response, _ => (s.suspend .client, [])
  | .client, .done => (s, [.release])
  -- Nothing after the `await` is executed.
  | .client, .raised => ({ s with cut := s.cut + 1 }, [])

/-- A stream handles an event. A request that cannot be sent is released before its client is
closed. -/
def handle (s : Attached) (event : Event) : Attached × List Effect :=
  match s.stage, event with
  | .sending, .wake _ .done => ({ s with stage := .returned }, [])
  | .sending, .wake _ .raised => ({ s with stage := .refused }, [.release])
  | .returned, .wake call outcome =>
    match s.calls[call]? with
    | some point => { s with calls := s.calls.eraseIdx call }.resume point outcome
    | none => (s, [])
  | .returned, .anext => s.anext
  | .returned, .aclose => s.aclose
  | .returned, .collect => s.collect
  | _, _ => (s, [])

/-! ### What a step keeps -/

/-- The number of slots that a call will release, or fail to release. -/
def Point.owes : Point → ℕ
  | .reading => 0
  | .finishing ending => if ending = .closed then 1 else 0
  | .response => 1
  | .client => 1

/-- The slots that a stream with a response holds: one until it is closed, then one while the call
that closes it is suspended, and one for good when that call is cut. -/
def slots (s : Attached) : ℕ :=
  (s.calls.map Point.owes).sum + (if s.closed then 0 else 1) + s.cut

/-- A step of a stream with a response, taken by a call that owes a number of slots. What it releases
it no longer holds. -/
structure Keeps (owed : ℕ) (s : Attached) (result : Attached × List Effect) : Prop where
  service : result.1.service = s.service
  profile : result.1.profile = s.profile
  stage : result.1.stage = s.stage
  releases : result.2.count .release + result.1.slots = s.slots + owed
  sends : ∀ operation, result.2.count (.send operation) = 0

variable {s : Attached}

@[simp]
theorem slots_suspend (s : Attached) (point : Point) :
    (s.suspend point).slots = s.slots + point.owes := by
  show ((s.calls ++ [point]).map Point.owes).sum + (if s.closed then 0 else 1) + s.cut = _
  rw [List.map_append, List.sum_append, slots]
  simp only [List.map_cons, List.map_nil, List.sum_cons, List.sum_nil]
  omega

/-- A call that only waits owes what its point owes, whatever it has done to the generator. -/
theorem keeps_suspend {owed : ℕ} {generator : Generator} (point : Point)
    (howed : point.owes = owed) :
    Keeps owed s ({ s with generator }.suspend point, []) where
  service := rfl
  profile := rfl
  stage := rfl
  releases := by
    rw [slots_suspend, howed]
    exact Nat.zero_add _
  sends _ := rfl

/-- The call that closes the stream owes its slot. -/
theorem keeps_close {generator : Generator} (hopen : s.closed = false) (point : Point)
    (howes : point.owes = 1) :
    Keeps 0 s ({ s with generator, closed := true }.suspend point, []) where
  service := rfl
  profile := rfl
  stage := rfl
  releases := by
    rw [slots_suspend, howes]
    simp only [slots, hopen, List.count_nil, if_true, Bool.false_eq_true, if_false]
    omega
  sends _ := rfl

theorem keeps_self {generator : Generator} : Keeps 0 s ({ s with generator }, []) where
  service := rfl
  profile := rfl
  stage := rfl
  releases := Nat.zero_add _
  sends _ := rfl

/-- An ended call pays with its decrements. -/
theorem keeps_ended (s : Attached) (ending : Ending) :
    Keeps (Point.finishing ending).owes s (s.ended ending) := by
  unfold ended
  cases ending with
  | raised =>
    dsimp only
    split_ifs with hclosed
    · exact keeps_self
    · exact keeps_close (eq_false_of_ne_true hclosed) .response rfl
  | closed => exact keeps_suspend .response rfl
  | collected => exact keeps_self

theorem keeps_finally (s : Attached) (ending : Ending) (howes : (Point.finishing ending).owes = 0) :
    Keeps 0 s (s.finally_ ending) := keeps_suspend (.finishing ending) howes

/-- The first call of `aclose` holds the slot until it has released it. -/
theorem keeps_aclose (s : Attached) : Keeps 0 s s.aclose := by
  unfold aclose
  split_ifs with hclosed
  · exact keeps_self
  · have hopen := eq_false_of_ne_true hclosed
    dsimp only
    split
    · exact keeps_close hopen .response rfl
    · exact keeps_close hopen (.finishing .closed) rfl
    · exact keeps_close hopen .response rfl
    · exact keeps_close hopen .response rfl

theorem keeps_anext (s : Attached) : Keeps 0 s s.anext := by
  unfold anext
  split_ifs
  · exact keeps_self
  · split
    · exact keeps_suspend .reading rfl
    · exact keeps_suspend .reading rfl
    · exact keeps_aclose s
    · exact keeps_aclose s

theorem keeps_collect (s : Attached) : Keeps 0 s s.collect := by
  unfold collect
  split_ifs
  · exact keeps_finally s .collected rfl
  · exact keeps_self

/-- A resumed call pays what it owes. -/
theorem keeps_resume (s : Attached) (point : Point) (outcome : Outcome) :
    Keeps point.owes s (s.resume point outcome) := by
  cases point with
  | reading =>
    cases outcome with
    | done => exact keeps_self
    | raised => exact keeps_finally s .raised rfl
  | finishing ending => cases outcome <;> exact keeps_ended s ending
  | response => cases outcome <;> exact keeps_suspend .client rfl
  | client =>
    cases outcome with
    | done => exact ⟨rfl, rfl, rfl, Nat.add_comm _ _, fun _ => rfl⟩
    | raised =>
      refine ⟨rfl, rfl, rfl, ?_, fun _ => rfl⟩
      show 0 + ((s.calls.map Point.owes).sum + (if s.closed then 0 else 1) + (s.cut + 1)) = _
      rw [slots, Point.owes]
      omega

/-- What a call releases, it owed where it was suspended. -/
theorem keeps_wake {call : ℕ} {point : Point} (h : s.calls[call]? = some point)
    (outcome : Outcome) :
    Keeps 0 s ({ s with calls := s.calls.eraseIdx call }.resume point outcome) := by
  have hresume := keeps_resume { s with calls := s.calls.eraseIdx call } point outcome
  have hreleases := hresume.releases
  have hslots : { s with calls := s.calls.eraseIdx call }.slots + point.owes = s.slots := by
    have hsum := Stream.sum_eraseIdx Point.owes h
    show ((s.calls.eraseIdx call).map Point.owes).sum + (if s.closed then 0 else 1) + s.cut +
      point.owes = _
    rw [slots, ← hsum]
    omega
  exact ⟨hresume.service, hresume.profile, hresume.stage, by omega, hresume.sends⟩

/-! ### What all steps keep -/

/-- The slots that a stream holds. -/
def held (s : Attached) : ℕ :=
  match s.stage with
  | .sending => 1
  | .refused => 0
  | .returned => s.slots

/-- A stream and all that its coroutines have done: it has released its slot or holds it, and it
sends one request. -/
structure Sound (s : Attached) (effects : List Effect) : Prop where
  fresh : s.stage ≠ .returned → s.calls = [] ∧ s.closed = false ∧ s.cut = 0
  releases : effects.count .release + s.held = 1
  openings : effects.count (.send .open_) ≤ 1
  cancellations : effects.count (.send .cancel) = 0

/-- A new call is sound. -/
theorem sound_admitted (service : Identity) (profile : Digest) (permitted : Bool) :
    (admitted service profile permitted).1.Sound (admitted service profile permitted).2 := by
  cases permitted with
  | true => exact ⟨fun _ => ⟨rfl, rfl, rfl⟩, rfl, le_refl _, rfl⟩
  | false => exact ⟨fun _ => ⟨rfl, rfl, rfl⟩, rfl, Nat.zero_le _, rfl⟩

variable {effects : List Effect}

/-- A step of a stream with a response. -/
theorem Sound.of_keeps (h : s.Sound effects) {result : Attached × List Effect}
    (hstage : s.stage = .returned) (hkeeps : Keeps 0 s result) :
    result.1.Sound (effects ++ result.2) := by
  have hreturned : result.1.stage = .returned := hkeeps.stage.trans hstage
  have hreleases := h.releases
  have hsame := hkeeps.releases
  simp only [held, hstage] at hreleases
  refine ⟨fun hne => absurd hreturned hne, ?_, ?_, ?_⟩
  · simp only [held, hreturned, List.count_append]
    omega
  · rw [List.count_append, hkeeps.sends]
    exact h.openings
  · rw [List.count_append, hkeeps.sends]
    exact h.cancellations

/-- Whatever happens to a stream, it releases its slot at most once, and sends nothing more. -/
theorem Sound.handle (h : s.Sound effects) (event : Event) :
    (s.handle event).1.Sound (effects ++ (s.handle event).2) := by
  unfold Attached.handle
  split
  · next call hstage =>
    obtain ⟨hcalls, hclosed, hcut⟩ := h.fresh (by rw [hstage]; decide)
    have hreleases := h.releases
    simp only [held, hstage] at hreleases
    rw [List.append_nil]
    refine ⟨fun hne => absurd rfl hne, ?_, h.openings, h.cancellations⟩
    simp only [held, slots, hcalls, hclosed, hcut]
    exact hreleases
  · next call hstage =>
    have hreleases := h.releases
    simp only [held, hstage] at hreleases
    refine ⟨fun _ => h.fresh (by rw [hstage]; decide), ?_, ?_, ?_⟩
    · simp only [held, List.count_append, List.count_singleton_self]
      omega
    · rw [List.count_append]
      exact h.openings
    · rw [List.count_append]
      exact h.cancellations
  · next call outcome hstage =>
    split
    · next point hpoint => exact h.of_keeps hstage (keeps_wake hpoint outcome)
    · exact h.of_keeps hstage keeps_self
  · next hstage => exact h.of_keeps hstage (keeps_anext s)
  · next hstage => exact h.of_keeps hstage (keeps_aclose s)
  · next hstage => exact h.of_keeps hstage (keeps_collect s)
  · rw [List.append_nil]
    exact h

/-- A step changes neither the service nor the profile. -/
theorem handle_same (s : Attached) (event : Event) :
    (s.handle event).1.service = s.service ∧ (s.handle event).1.profile = s.profile := by
  unfold handle
  split
  · exact ⟨rfl, rfl⟩
  · exact ⟨rfl, rfl⟩
  · split
    · next hpoint => exact ⟨(keeps_wake hpoint _).service, (keeps_wake hpoint _).profile⟩
    · exact ⟨rfl, rfl⟩
  · exact ⟨(keeps_anext s).service, (keeps_anext s).profile⟩
  · exact ⟨(keeps_aclose s).service, (keeps_aclose s).profile⟩
  · exact ⟨(keeps_collect s).service, (keeps_collect s).profile⟩
  · exact ⟨rfl, rfl⟩

/-- Nothing more happens to the slot of the stream: it could not be sent, or the call that closed it
has ended. -/
def Closed (s : Attached) : Prop :=
  s.stage = .refused ∨
    s.stage = .returned ∧ s.closed = true ∧ ∀ point ∈ s.calls, point.owes = 0

instance (s : Attached) : Decidable s.Closed := inferInstanceAs (Decidable (_ ∨ _))

/-- No coroutine of the stream is suspended. -/
def Quiet (s : Attached) : Prop := s.stage ≠ .sending ∧ s.calls = []

/-- A stream holds its slot as long as it is not closed, or when its clean-up was cut. -/
theorem Sound.held_eq (h : s.Sound effects) :
    s.held = if s.Closed ∧ s.cut = 0 then 0 else 1 := by
  have hreleases := h.releases
  have hfresh := h.fresh
  cases hstage : s.stage with
  | sending => simp [held, Closed, hstage]
  | refused => simp [held, Closed, hstage, (hfresh (by rw [hstage]; decide)).2.2]
  | returned =>
    simp only [held, hstage, slots] at hreleases ⊢
    have howes : (s.calls.map Point.owes).sum = 0 ↔ ∀ point ∈ s.calls, point.owes = 0 := by
      rw [List.sum_eq_zero_iff_forall_eq_nat]
      simp
    simp only [Closed, hstage, reduceCtorEq, false_or, true_and, ← howes]
    cases hclosed : s.closed with
    | false =>
      simp only [hclosed, Bool.false_eq_true, if_false, false_and] at hreleases ⊢
      omega
    | true =>
      simp only [hclosed, if_true, true_and] at hreleases ⊢
      split_ifs <;> omega

end Attached

end Ficc.Inference
