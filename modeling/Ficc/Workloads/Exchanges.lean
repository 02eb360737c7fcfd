import Ficc.Foundations.Transition
import Ficc.Workloads.Channel

/-!
# What the command channel guarantees

Every step of a channel is a sequence of seven kinds of change, and what holds in every run is
proved for changes. A command is handed over when its request is marked as delivered, and a reply
reaches a future only through a poll of the session in which the request was made. Since messages
have different identities, a reply that is late or comes from another session reaches nothing.
-/

namespace Ficc.Workloads

open Execution Contributors

variable {β ρ : Type}

namespace ChannelEvent

/-- The event hands over the command of the request. -/
def hands (request : ℕ) : ChannelEvent ρ → Bool
  | .handed other _ _ _ => other == request
  | _ => false

/-- The event ends the request. -/
def ends (request : ℕ) : ChannelEvent ρ → Bool
  | .completed other _ _ => other == request
  | .raised other => other == request
  | _ => false

end ChannelEvent

namespace Channel

/-- The reply of the poll came for the command of the request: after the command had been handed
over, before the request ended, and in the session of the request. -/
def Answers (s : Channel β ρ) (history : List (ChannelEvent ρ)) (request : ℕ) (reply : Reply ρ)
    (poll : ℕ) : Prop :=
  ∃ pending before, s.requests[request]? = some pending ∧ reply.id = pending.message.id ∧
    .arrived poll reply pending.sessionId pending.fingerprint :: before <:+ history ∧
    (∃ other, .handed request other pending.sessionId pending.fingerprint ∈ before) ∧
    ∀ event ∈ before, event.ends request = false

section Changes

/-- What a change does to one request, and the events that it adds. -/
inductive Rewrites (s : Channel β ρ) (request : ℕ) (pending : Pending β ρ) :
    Pending β ρ → List (ChannelEvent ρ) → Prop
  /-- The future or the task of the request fails. -/
  | fail {future : Future ρ} {progress : Progress}
    (result : ∀ reply poll, future = .result reply poll → future = pending.future)
    (ended : pending.progress = .ended ↔ progress = .ended)
    (waiting : future = .waiting → pending.future = .waiting ∧ progress = pending.progress) :
    Rewrites s request pending { pending with future, progress } []
  /-- The last event has brought the reply. -/
  | resolve {reply : Reply ρ} {poll : ℕ} {before : List (ChannelEvent ρ)}
    (waiting : pending.future = .waiting) (delivered : pending.delivered = true)
    (id : reply.id = pending.message.id)
    (last : s.history = .arrived poll reply pending.sessionId pending.fingerprint :: before) :
    Rewrites s request pending { pending with future := .result reply poll } []
  | hand {poll : ℕ} (undelivered : pending.delivered = false) :
    Rewrites s request pending { pending with delivered := true }
      [.handed request poll pending.sessionId pending.fingerprint]
  /-- The request ends, with the result of its future or without one. -/
  | finish {event : ChannelEvent ρ} (done : pending.future ≠ .waiting)
    (event_eq : event = .raised request ∨ ∃ reply poll,
      event = .completed request reply poll ∧ pending.future = .result reply poll) :
    Rewrites s request pending { pending with progress := .ended } [event]

/-- One change of a channel. -/
inductive Change (s s' : Channel β ρ) : Prop
  /-- Neither the requests nor the history change. -/
  | same (requests : s'.requests = s.requests) (history : s'.history = s.history)
    (polled : s.polled ≤ s'.polled)
  | submit {pending : Pending β ρ} (fresh : ∀ other ∈ s.requests, other.message.id ≠ pending.message.id)
    (undelivered : pending.delivered = false) (future : pending.future = .waiting)
    (progress : pending.progress = .waiting) (requests : s'.requests = s.requests ++ [pending])
    (history : s'.history = s.history) (polled : s.polled ≤ s'.polled)
  /-- A new poll brings a reply. -/
  | arrive {reply : Reply ρ} {sessionId : Identity} {fingerprint : Digest}
    (requests : s'.requests = s.requests)
    (history : s'.history = .arrived s.polled reply sessionId fingerprint :: s.history)
    (polled : s.polled < s'.polled)
  | rewrite {request : ℕ} {pending pending' : Pending β ρ} {events : List (ChannelEvent ρ)}
    (found : s.requests[request]? = some pending) (rewrites : s.Rewrites request pending pending' events)
    (requests : s'.requests = s.requests.set request pending')
    (history : s'.history = events ++ s.history) (polled : s.polled ≤ s'.polled)

/-- The request is made once and keeps its message and its session. -/
structure Follows (pending pending' : Pending β ρ) : Prop where
  message : pending'.message = pending.message
  sessionId : pending'.sessionId = pending.sessionId
  fingerprint : pending'.fingerprint = pending.fingerprint
  delivered : pending.delivered = true → pending'.delivered = true
  ended : pending.progress = .ended → pending'.progress = .ended

variable {s s' : Channel β ρ}

theorem Follows.refl (pending : Pending β ρ) : Follows pending pending :=
  ⟨rfl, rfl, rfl, id, id⟩

variable {pending' : Pending β ρ} {request : ℕ}

/-- A rewritten request goes forward. -/
theorem Rewrites.follows {pending : Pending β ρ} {events : List (ChannelEvent ρ)}
    (h : s.Rewrites request pending pending' events) :
    Follows pending pending' := by
  cases h with
  | fail result ended waiting => exact ⟨rfl, rfl, rfl, id, ended.mp⟩
  | resolve waiting delivered id last => exact ⟨rfl, rfl, rfl, fun h => h, fun h => h⟩
  | hand undelivered => exact ⟨rfl, rfl, rfl, fun _ => rfl, id⟩
  | finish done event_eq => exact ⟨rfl, rfl, rfl, id, fun _ => rfl⟩

/-- A change keeps every request. -/
theorem Change.forward (h : Change s s') {pending : Pending β ρ}
    (hfound : s.requests[request]? = some pending) :
    ∃ pending', s'.requests[request]? = some pending' ∧ Follows pending pending' := by
  cases h with
  | same requests history polled => exact ⟨pending, by rw [requests, hfound], .refl _⟩
  | submit fresh undelivered future progress requests history polled =>
    refine ⟨pending, ?_, .refl _⟩
    rw [requests, List.getElem?_append_left (List.getElem?_eq_some_iff.mp hfound).1, hfound]
  | arrive requests history polled => exact ⟨pending, by rw [requests, hfound], .refl _⟩
  | @rewrite other old new events found rewrites requests history polled =>
    by_cases hsame : other = request
    · subst hsame
      obtain rfl := Option.some.inj (found.symm.trans hfound)
      refine ⟨new, ?_, rewrites.follows⟩
      rw [requests, List.getElem?_set_self (List.getElem?_eq_some_iff.mp hfound).1]
    · refine ⟨pending, ?_, .refl _⟩
      rw [requests, List.getElem?_set_ne hsame, hfound]

/-- A change only adds events. -/
theorem Change.history_suffix (h : Change s s') : s.history <:+ s'.history := by
  cases h with
  | same requests history polled => exact history ▸ List.suffix_rfl
  | submit fresh undelivered future progress requests history polled =>
    exact history ▸ List.suffix_rfl
  | arrive requests history polled => exact history ▸ List.suffix_cons _ _
  | rewrite found rewrites requests history polled => exact history ▸ List.suffix_append _ _

/-- What answered a request once still does. -/
theorem Answers.change {history history' : List (ChannelEvent ρ)} {reply : Reply ρ} {poll : ℕ}
    (h : s.Answers history request reply poll) (hchange : Change s s')
    (hsuffix : history <:+ history') : s'.Answers history' request reply poll := by
  obtain ⟨pending, before, hfound, hid, harrived, ⟨other, hhanded⟩, hopen⟩ := h
  obtain ⟨pending', hfound', hfollows⟩ := hchange.forward hfound
  refine ⟨pending', before, hfound', ?_, ?_, ⟨other, ?_⟩, hopen⟩
  · rw [hid, hfollows.message]
  · rw [hfollows.sessionId, hfollows.fingerprint]
    exact harrived.trans hsuffix
  · rw [hfollows.sessionId, hfollows.fingerprint]
    exact hhanded

/-- Where a request comes from. -/
inductive Origin (s s' : Channel β ρ) (request : ℕ) (pending' : Pending β ρ) : Prop
  | kept (found : s.requests[request]? = some pending')
  | fresh (last : request = s.requests.length) (undelivered : pending'.delivered = false)
    (future : pending'.future = .waiting) (progress : pending'.progress = .waiting)
    (distinct : ∀ other ∈ s.requests, other.message.id ≠ pending'.message.id)
  | rewritten {pending : Pending β ρ} {events : List (ChannelEvent ρ)}
    (found : s.requests[request]? = some pending)
    (rewrites : s.Rewrites request pending pending' events)
    (history : s'.history = events ++ s.history)

/-- Every request has its origin. -/
theorem Change.backward (h : Change s s') (hfound : s'.requests[request]? = some pending') :
    Origin s s' request pending' := by
  cases h with
  | same requests history polled => exact .kept (requests ▸ hfound)
  | @submit pending fresh undelivered future progress requests history polled =>
    rw [requests] at hfound
    by_cases hold : request < s.requests.length
    · rw [List.getElem?_append_left hold] at hfound
      exact .kept hfound
    · -- The list ends with the new request.
      rw [List.getElem?_append_right (not_lt.mp hold)] at hfound
      obtain rfl := List.mem_singleton.mp (List.mem_of_getElem? hfound)
      have hlast := (List.getElem?_eq_some_iff.mp hfound).1
      rw [List.length_singleton] at hlast
      exact .fresh (by omega) undelivered future progress fresh
  | arrive requests history polled => exact .kept (requests ▸ hfound)
  | @rewrite other old new events found rewrites requests history polled =>
    rw [requests] at hfound
    by_cases hsame : other = request
    · subst hsame
      rw [List.getElem?_set_self (List.getElem?_eq_some_iff.mp found).1] at hfound
      obtain rfl := Option.some.inj hfound
      exact .rewritten found rewrites history
    · rw [List.getElem?_set_ne hsame] at hfound
      exact .kept hfound

/-- Where a new event comes from. -/
inductive Source (s s' : Channel β ρ) (event : ChannelEvent ρ) : Prop
  | arrived {reply : Reply ρ} {sessionId : Identity} {fingerprint : Digest}
    (eq : event = .arrived s.polled reply sessionId fingerprint) (polled : s.polled < s'.polled)
  | handed {request poll : ℕ} {pending : Pending β ρ} (found : s.requests[request]? = some pending)
    (undelivered : pending.delivered = false)
    (delivered : s'.requests[request]? = some { pending with delivered := true })
    (eq : event = .handed request poll pending.sessionId pending.fingerprint)
  | ended {request : ℕ} {pending : Pending β ρ} (found : s.requests[request]? = some pending)
    (ended : s'.requests[request]? = some { pending with progress := .ended })
    (eq : event = .raised request ∨ ∃ reply poll,
      event = .completed request reply poll ∧ pending.future = .result reply poll)

/-- The history after a change, with the source of the event that it adds. -/
theorem Change.source (h : Change s s') :
    s'.history = s.history ∨ ∃ event, s'.history = event :: s.history ∧ Source s s' event := by
  cases h with
  | same requests history polled => exact .inl history
  | submit fresh undelivered future progress requests history polled => exact .inl history
  | arrive requests history polled => exact .inr ⟨_, history, .arrived rfl polled⟩
  | @rewrite request old new events found rewrites requests history polled =>
    have hnew : s'.requests[request]? = some new := by
      rw [requests, List.getElem?_set_self (List.getElem?_eq_some_iff.mp found).1]
    cases rewrites with
    | fail result ended waiting => exact .inl history
    | resolve waiting delivered id last => exact .inl history
    | hand undelivered => exact .inr ⟨_, history, .handed found undelivered hnew rfl⟩
    | finish done event_eq => exact .inr ⟨_, history, .ended found hnew event_eq⟩

/-- A new event has its source. -/
theorem Change.mem_history (h : Change s s') {event : ChannelEvent ρ}
    (hevent : event ∈ s'.history) : event ∈ s.history ∨ Source s s' event := by
  obtain hsame | ⟨new, hnew, hsource⟩ := h.source
  · exact .inl (hsame ▸ hevent)
  · rw [hnew] at hevent
    obtain rfl | hold := List.mem_cons.mp hevent
    · exact .inr hsource
    · exact .inl hold

theorem Change.polled_le (h : Change s s') : s.polled ≤ s'.polled := by
  cases h with
  | same requests history polled => exact polled
  | submit fresh undelivered future progress requests history polled => exact polled
  | arrive requests history polled => exact polled.le
  | rewrite found rewrites requests history polled => exact polled

/-- A request that is not new has kept its message. -/
theorem Origin.message (h : Origin s s' request pending') :
    (∃ pending, s.requests[request]? = some pending ∧ pending.message = pending'.message) ∨
      request = s.requests.length ∧
        ∀ other ∈ s.requests, other.message.id ≠ pending'.message.id := by
  cases h with
  | kept found => exact .inl ⟨pending', found, rfl⟩
  | fresh last undelivered future progress distinct => exact .inr ⟨last, distinct⟩
  | rewritten found rewrites history => exact .inl ⟨_, found, rewrites.follows.message.symm⟩

/-- What holds of every channel. -/
structure Consistent (s : Channel β ρ) : Prop where
  handed : ∀ {request poll : ℕ} {sessionId : Identity} {fingerprint : Digest},
    .handed request poll sessionId fingerprint ∈ s.history →
    ∃ pending, s.requests[request]? = some pending ∧ pending.delivered = true
  once : ∀ request, s.history.countP (ChannelEvent.hands request) ≤ 1
  delivered : ∀ {request : ℕ} {pending : Pending β ρ}, s.requests[request]? = some pending →
    pending.delivered = true →
    ∃ poll, .handed request poll pending.sessionId pending.fingerprint ∈ s.history
  future : ∀ {request poll : ℕ} {pending : Pending β ρ} {reply : Reply ρ},
    s.requests[request]? = some pending → pending.future = .result reply poll →
    s.Answers s.history request reply poll
  ended : ∀ {request : ℕ} {event : ChannelEvent ρ}, event ∈ s.history →
    event.ends request = true → ∃ pending, s.requests[request]? = some pending ∧
      pending.progress = .ended
  waiting : ∀ {request : ℕ} {pending : Pending β ρ}, s.requests[request]? = some pending →
    pending.future = .waiting → pending.progress = .waiting
  completed : ∀ {request poll : ℕ} {reply : Reply ρ} {before : List (ChannelEvent ρ)},
    .completed request reply poll :: before <:+ s.history → s.Answers before request reply poll
  numbered : ∀ {poll : ℕ} {reply : Reply ρ} {sessionId : Identity} {fingerprint : Digest},
    .arrived poll reply sessionId fingerprint ∈ s.history → poll < s.polled
  single : ∀ {poll : ℕ} {reply reply' : Reply ρ} {sessionId sessionId' : Identity}
    {fingerprint fingerprint' : Digest} {before before' : List (ChannelEvent ρ)},
    .arrived poll reply sessionId fingerprint :: before <:+ s.history →
    .arrived poll reply' sessionId' fingerprint' :: before' <:+ s.history →
    reply' = reply ∧ sessionId' = sessionId ∧ fingerprint' = fingerprint ∧ before' = before
  distinct : ∀ {request request' : ℕ} {pending pending' : Pending β ρ},
    s.requests[request]? = some pending → s.requests[request']? = some pending' →
    pending'.message.id = pending.message.id → request' = request

theorem consistent_initial (nodes : Sessions) : (initial nodes : Channel β ρ).Consistent where
  handed h := absurd h List.not_mem_nil
  once request := Nat.zero_le _
  delivered h := by simp [initial] at h
  future h := by simp [initial] at h
  ended h := absurd h List.not_mem_nil
  waiting h := by simp [initial] at h
  completed h := by simp [initial] at h
  numbered h := absurd h List.not_mem_nil
  single h := by simp [initial] at h
  distinct h := by simp [initial] at h

namespace Consistent

variable (hs : s.Consistent) (hchange : Change s s')

include hs hchange

variable {fingerprint : Digest} {poll request : ℕ} {sessionId : Identity} {pending' : Pending β ρ}
  {reply : Reply ρ}

/-- A request that was handed over is marked so. -/
theorem change_handed (h : .handed request poll sessionId fingerprint ∈ s'.history) :
    ∃ pending, s'.requests[request]? = some pending ∧ pending.delivered = true := by
  obtain hold | hnew := hchange.mem_history h
  · obtain ⟨pending, hfound, hdelivered⟩ := hs.handed hold
    obtain ⟨pending', hfound', hfollows⟩ := hchange.forward hfound
    exact ⟨pending', hfound', hfollows.delivered hdelivered⟩
  · cases hnew with
    | arrived eq polled => cases eq
    | handed found undelivered delivered eq =>
      cases eq
      exact ⟨_, delivered, rfl⟩
    | ended found ended eq => rcases eq with eq | ⟨reply, poll, eq, -⟩ <;> cases eq

/-- It is handed over at most once. -/
theorem change_once (request : ℕ) :
    s'.history.countP (ChannelEvent.hands request) ≤ 1 := by
  obtain hsame | ⟨event, hnew, hsource⟩ := hchange.source
  · rw [hsame]
    exact hs.once request
  rw [hnew, List.countP_cons]
  cases hsource with
  | arrived eq polled =>
    rw [eq]
    exact hs.once request
  | ended found ended eq =>
    rcases eq with rfl | ⟨reply, poll, rfl, -⟩ <;> exact hs.once request
  | @handed other poll pending found undelivered delivered eq =>
    subst eq
    by_cases hsame : other = request
    · -- A command that had been handed over before would be marked as delivered.
      subst hsame
      have hnone : s.history.countP (ChannelEvent.hands other) = 0 := by
        rw [List.countP_eq_zero]
        intro event hevent hhands
        cases event with
        | handed earlier number sessionId fingerprint =>
          obtain rfl : earlier = other := by simpa [ChannelEvent.hands] using hhands
          obtain ⟨pending', hfound', hdelivered'⟩ := hs.handed hevent
          obtain rfl := Option.some.inj (hfound'.symm.trans found)
          rw [undelivered] at hdelivered'
          cases hdelivered'
        | arrived => cases hhands
        | completed => cases hhands
        | raised => cases hhands
      rw [hnone]
      split_ifs <;> omega
    · have hother : ChannelEvent.hands request (.handed other poll pending.sessionId
          pending.fingerprint : ChannelEvent ρ) = false := by
        simpa [ChannelEvent.hands] using hsame
      rw [hother]
      exact hs.once request

/-- The mark tells of the exchange. -/
theorem change_delivered (hfound : s'.requests[request]? = some pending')
    (h : pending'.delivered = true) :
    ∃ poll, .handed request poll pending'.sessionId pending'.fingerprint ∈ s'.history := by
  have hold {pending : Pending β ρ} (found : s.requests[request]? = some pending)
      (hdelivered : pending.delivered = true) :
      ∃ poll, .handed request poll pending.sessionId pending.fingerprint ∈ s'.history := by
    obtain ⟨poll, hmem⟩ := hs.delivered found hdelivered
    exact ⟨poll, hchange.history_suffix.subset hmem⟩
  cases hchange.backward hfound with
  | kept found => exact hold found h
  | fresh last undelivered future progress distinct =>
    rw [undelivered] at h
    cases h
  | rewritten found rewrites history =>
    have hsame := hold found
    cases rewrites with
    | fail result ended waiting => exact hsame h
    | resolve waiting delivered id last => exact hsame h
    | @hand poll undelivered => exact ⟨poll, by rw [history]; exact List.mem_cons_self⟩
    | finish done event_eq => exact hsame h

/-- A result is the own reply. -/
theorem change_future (hfound : s'.requests[request]? = some pending')
    (h : pending'.future = .result reply poll) :
    s'.Answers s'.history request reply poll := by
  have hold {pending : Pending β ρ} (found : s.requests[request]? = some pending)
      (hfuture : pending.future = .result reply poll) :
      s'.Answers s'.history request reply poll :=
    (hs.future found hfuture).change hchange hchange.history_suffix
  cases hchange.backward hfound with
  | kept found => exact hold found h
  | fresh last undelivered future progress distinct =>
    rw [future] at h
    cases h
  | @rewritten pending events found rewrites history =>
    cases rewrites with
    | fail result ended waiting => exact hold found ((result reply poll h).symm.trans h)
    | @resolve reply' poll' before waiting delivered id last =>
      cases h
      refine ⟨_, before, hfound, id, ?_, ?_, ?_⟩
      · rw [history, last]
        exact List.suffix_rfl
      · obtain ⟨other, hhanded⟩ := hs.delivered found delivered
        rw [last] at hhanded
        obtain hhead | hbefore := List.mem_cons.mp hhanded
        · cases hhead
        · exact ⟨other, hbefore⟩
      · -- The task of a request with an open future has not ended.
        intro event hevent
        by_contra hends
        have hmem : event ∈ s.history := last ▸ List.mem_cons_of_mem _ hevent
        obtain ⟨ended, hended, hprogress⟩ := hs.ended hmem (Bool.not_eq_false _ ▸ hends)
        obtain rfl := Option.some.inj (hended.symm.trans found)
        rw [hs.waiting found waiting] at hprogress
        cases hprogress
    | hand undelivered => exact hold found h
    | finish done event_eq => exact hold found h

/-- An event that ends a request ends it. -/
theorem change_ended {event : ChannelEvent ρ} (hevent : event ∈ s'.history)
    (hends : event.ends request = true) :
    ∃ pending, s'.requests[request]? = some pending ∧ pending.progress = .ended := by
  obtain hold | hnew := hchange.mem_history hevent
  · obtain ⟨pending, hfound, hended⟩ := hs.ended hold hends
    obtain ⟨pending', hfound', hfollows⟩ := hchange.forward hfound
    exact ⟨pending', hfound', hfollows.ended hended⟩
  · cases hnew with
    | arrived eq polled =>
      rw [eq] at hends
      cases hends
    | handed found undelivered delivered eq =>
      rw [eq] at hends
      cases hends
    | @ended other pending found ended eq =>
      have hsame : other = request := by
        rcases eq with rfl | ⟨reply, poll, rfl, -⟩ <;>
          simpa [ChannelEvent.ends] using hends
      exact ⟨_, hsame ▸ ended, rfl⟩

theorem change_waiting (hfound : s'.requests[request]? = some pending')
    (h : pending'.future = .waiting) :
    pending'.progress = .waiting := by
  cases hchange.backward hfound with
  | kept found => exact hs.waiting found h
  | fresh last undelivered future progress distinct => exact progress
  | rewritten found rewrites history =>
    have hold := hs.waiting found
    cases rewrites with
    | fail result ended waiting =>
      obtain ⟨hopen, hprogress⟩ := waiting h
      exact hprogress.trans (hold hopen)
    | resolve waiting delivered id last => cases h
    | hand undelivered => exact hold h
    | finish done event_eq => exact absurd h done

/-- A completion follows its reply. -/
theorem change_completed {before : List (ChannelEvent ρ)}
    (h : .completed request reply poll :: before <:+ s'.history) :
    s'.Answers before request reply poll := by
  have hold (hsuffix : .completed request reply poll :: before <:+ s.history) :
      s'.Answers before request reply poll :=
    (hs.completed hsuffix).change hchange List.suffix_rfl
  obtain hsame | ⟨event, hnew, hsource⟩ := hchange.source
  · exact hold (hsame ▸ h)
  rw [hnew] at h
  obtain hhead | hsuffix := List.suffix_cons_iff.mp h
  · obtain ⟨rfl, rfl⟩ := List.cons.inj hhead
    cases hsource with
    | arrived eq polled => cases eq
    | handed found undelivered delivered eq => cases eq
    | ended found ended eq =>
      obtain eq | ⟨reply', poll', eq, hfuture⟩ := eq
      · cases eq
      · cases eq
        exact (hs.future found hfuture).change hchange List.suffix_rfl
  · exact hold hsuffix

/-- The polls are numbered upwards. -/
theorem change_numbered (h : .arrived poll reply sessionId fingerprint ∈ s'.history) :
    poll < s'.polled := by
  obtain hold | hnew := hchange.mem_history h
  · exact (hs.numbered hold).trans_le hchange.polled_le
  · cases hnew with
    | arrived eq polled =>
      cases eq
      exact polled
    | handed found undelivered delivered eq => cases eq
    | ended found ended eq => rcases eq with eq | ⟨reply, poll, eq, -⟩ <;> cases eq

/-- One poll brings one reply. -/
theorem change_single {reply' : Reply ρ} {sessionId' : Identity} {fingerprint' : Digest}
    {before before' : List (ChannelEvent ρ)}
    (h : .arrived poll reply sessionId fingerprint :: before <:+ s'.history)
    (h' : .arrived poll reply' sessionId' fingerprint' :: before' <:+ s'.history) :
    reply' = reply ∧ sessionId' = sessionId ∧ fingerprint' = fingerprint ∧ before' = before := by
  obtain hsame | ⟨event, hnew, hsource⟩ := hchange.source
  · exact hs.single (hsame ▸ h) (hsame ▸ h')
  rw [hnew] at h h'
  -- The number of a new reply is larger than all the numbers before it.
  have hlarger {reply : Reply ρ} {sessionId : Identity} {fingerprint : Digest}
      {reply' : Reply ρ} {sessionId' : Identity} {fingerprint' : Digest}
      {before : List (ChannelEvent ρ)}
      (heq : event = .arrived poll reply sessionId fingerprint)
      (hold : .arrived poll reply' sessionId' fingerprint' :: before <:+ s.history) : False := by
    have hpoll : poll < s.polled := hs.numbered (hold.subset List.mem_cons_self)
    cases hsource with
    | arrived eq polled =>
      obtain ⟨rfl, -⟩ := ChannelEvent.arrived.inj (heq.symm.trans eq)
      exact lt_irrefl _ hpoll
    | handed found undelivered delivered eq => cases heq.symm.trans eq
    | ended found ended eq =>
      rcases eq with eq | ⟨reply, poll, eq, -⟩ <;> cases heq.symm.trans eq
  obtain hhead | hsuffix := List.suffix_cons_iff.mp h <;>
    obtain hhead' | hsuffix' := List.suffix_cons_iff.mp h'
  · cases hhead.trans hhead'.symm
    exact ⟨rfl, rfl, rfl, rfl⟩
  · exact (hlarger (List.cons.inj hhead).1.symm hsuffix').elim
  · exact (hlarger (List.cons.inj hhead').1.symm hsuffix).elim
  · exact hs.single hsuffix hsuffix'

/-- Open requests differ in their names. -/
theorem change_distinct {request' : ℕ} {pending : Pending β ρ}
    (hfound : s'.requests[request]? = some pending)
    (hfound' : s'.requests[request']? = some pending')
    (hid : pending'.message.id = pending.message.id) : request' = request := by
  obtain ⟨old, hold, hmessage⟩ | ⟨hlast, hfresh⟩ := (hchange.backward hfound).message <;>
    obtain ⟨old', hold', hmessage'⟩ | ⟨hlast', hfresh'⟩ := (hchange.backward hfound').message
  · exact hs.distinct hold hold' (by rw [hmessage, hmessage', hid])
  · exact absurd (by rw [hmessage, hid]) (hfresh' old (List.mem_of_getElem? hold))
  · exact absurd (by rw [hmessage', hid]) (hfresh old' (List.mem_of_getElem? hold'))
  · rw [hlast, hlast']

/-- Every change keeps what holds of a channel. -/
theorem change : s'.Consistent where
  handed := hs.change_handed hchange
  once := hs.change_once hchange
  delivered := hs.change_delivered hchange
  future := hs.change_future hchange
  ended := hs.change_ended hchange
  waiting := hs.change_waiting hchange
  completed := hs.change_completed hchange
  numbered := hs.change_numbered hchange
  single := hs.change_single hchange
  distinct := hs.change_distinct hchange

end Consistent

end Changes

section Steps

variable {s s' : Channel β ρ} {settings : Contributors.Settings}

/-- A sequence of changes. -/
def Changes : Channel β ρ → Channel β ρ → Prop := Relation.ReflTransGen Change

theorem Change.changes (h : Change s s') : Changes s s' := .single h

theorem Changes.trans {s'' : Channel β ρ} (h : Changes s s') (h' : Changes s' s'') :
    Changes s s'' := Relation.ReflTransGen.trans h h'

/-- Sequences of changes keep what holds of a channel. -/
theorem Consistent.changes (hs : s.Consistent) (h : Changes s s') : s'.Consistent := by
  induction h with
  | refl => exact hs
  | tail _ hchange ih => exact ih.change hchange

/-- A step that touches neither the requests nor the history. -/
theorem changes_of_eq (requests : s'.requests = s.requests) (history : s'.history = s.history)
    (polled : s.polled ≤ s'.polled) : Changes s s' :=
  (Change.same requests history polled).changes

variable {change : Pending β ρ → Pending β ρ} {pending : Pending β ρ} {request : ℕ}

/-- One request is rewritten. -/
theorem modify_requests (hfound : s.requests[request]? = some pending) :
    (s.modify request change).requests = s.requests.set request (change pending) := by
  apply List.ext_getElem?
  intro other
  show (s.requests.modify request change)[other]? = _
  by_cases hsame : request = other
  · subst hsame
    rw [List.getElem?_modify_eq, hfound,
      List.getElem?_set_self (List.getElem?_eq_some_iff.mp hfound).1]
    rfl
  · rw [List.getElem?_modify_ne _ _ hsame, List.getElem?_set_ne hsame]

theorem changes_modify_of_found (hfound : s.requests[request]? = some pending)
    (h : s.Rewrites request pending (change pending) []) : Changes s (s.modify request change) :=
  (Change.rewrite hfound h (modify_requests hfound) rfl le_rfl).changes

theorem changes_modify (h : ∀ pending, s.Rewrites request pending (change pending) []) :
    Changes s (s.modify request change) := by
  cases hfound : s.requests[request]? with
  | none =>
    have hlength := List.getElem?_eq_none_iff.mp hfound
    exact changes_of_eq (List.modify_eq_self hlength) rfl le_rfl
  | some pending => exact changes_modify_of_found hfound (h pending)

theorem changes_settle (request : ℕ) (error : Error) :
    Changes s (s.settle request (.exception error)) := by
  apply changes_modify
  intro pending
  refine .fail ?_ Iff.rfl ?_
  · intro reply poll h
    cases hfuture : pending.future <;> rw [hfuture] at h <;> cases h
    rfl
  · intro h
    cases hfuture : pending.future <;> rw [hfuture] at h <;> cases h

theorem changes_cancelRequest (request : ℕ) {progress : Progress} (hended : progress ≠ .ended) :
    Changes s (s.cancelRequest request progress) := by
  apply changes_modify
  intro pending
  cases hprogress : pending.progress with
  | waiting =>
    refine .fail ?_ ?_ ?_
    · intro reply poll h
      cases hfuture : pending.future <;> rw [hfuture] at h <;> cases h
      rfl
    · rw [hprogress]
      exact iff_of_false nofun hended
    · intro h
      cases hfuture : pending.future <;> rw [hfuture] at h <;> cases h
  | timedOut => exact .fail (fun _ _ _ => rfl) Iff.rfl (fun h => ⟨h, rfl⟩)
  | cancelled => exact .fail (fun _ _ _ => rfl) Iff.rfl (fun h => ⟨h, rfl⟩)
  | ended => exact .fail (fun _ _ _ => rfl) Iff.rfl (fun h => ⟨h, rfl⟩)

theorem changes_request (nodeId : Identity) (message : Message β) (check : Except Error Unit) :
    Changes s (s.request settings nodeId message check) := by
  unfold request
  by_cases hused : ∃ pending ∈ s.requests, pending.message.id = message.id
  · rw [if_pos hused]
    exact .refl
  rw [if_neg hused]
  cases s.admitRequest settings nodeId message check with
  | error error => exact .refl
  | ok current =>
    apply Change.changes
    refine .submit ?_ rfl rfl rfl rfl rfl le_rfl
    intro other hmem hid
    exact hused ⟨other, hmem, hid⟩

theorem changes_finish {event : ChannelEvent ρ} (hfound : s.requests[request]? = some pending)
    (hdone : pending.future ≠ .waiting)
    (hevent : event = .raised request ∨ ∃ reply poll, event = .completed request reply poll ∧ pending.future = .result reply poll)
    (nodeId : Identity) : Changes s (s.finish request nodeId event) := by
  have hfirst : Changes s
      ((s.modify request fun pending => { pending with progress := .ended }).note event) := by
    apply Change.changes
    exact .rewrite hfound (.finish hdone hevent) (modify_requests hfound) rfl le_rfl
  simp only [finish]
  split_ifs
  · exact hfirst.trans (changes_of_eq rfl rfl le_rfl)
  · exact hfirst

/-- A request that returns has the reply in its future, and one that raises is not waiting for
its future any more. -/
theorem answer_cases (hs : s.Consistent) (hfound : s.requests[request]? = some pending)
    {check : Except Error Unit} {result : Except Interruption (Reply ρ × ℕ)}
    (h : s.answer settings pending check = some result) :
    pending.future ≠ .waiting ∧
      ∀ reply poll, result = .ok (reply, poll) → pending.future = .result reply poll := by
  have hwaiting := hs.waiting hfound
  unfold answer at h
  cases hprogress : pending.progress <;> cases hfuture : pending.future <;>
    rw [hprogress, hfuture] at h <;> simp only [Option.some.injEq, reduceCtorEq] at h
  case waiting.result reply poll =>
    refine ⟨nofun, ?_⟩
    intro reply' poll' hresult
    subst h
    cases hguard : s.nodes.guard settings pending.nodeId pending.sessionId pending.fingerprint with
    | error error =>
      rw [hguard] at hresult
      cases hresult
    | ok =>
      rw [hguard] at hresult
      cases check with
      | error error => cases hresult
      | ok =>
        cases hresult
        rfl
  case timedOut.waiting => cases hprogress.symm.trans (hwaiting hfuture)
  case cancelled.waiting => cases hprogress.symm.trans (hwaiting hfuture)
  all_goals
    subst h
    exact ⟨nofun, nofun⟩

theorem changes_resume (hs : s.Consistent) (request : ℕ) (check : Except Error Unit) :
    Changes s (s.resume settings request check) := by
  unfold resume
  cases hfound : s.requests[request]? with
  | none => exact .refl
  | some pending =>
    cases hanswer : s.answer settings pending check with
    | none =>
      simp only [hanswer]
      exact .refl
    | some result =>
      simp only [hanswer]
      obtain ⟨hdone, hresult⟩ := answer_cases hs hfound hanswer
      cases result with
      | ok pair =>
        exact changes_finish hfound hdone (.inr ⟨pair.1, pair.2, rfl, hresult _ _ rfl⟩) _
      | error interruption => exact changes_finish hfound hdone (.inl rfl) _

theorem changes_leave (poll : ℕ) (nodeId : Identity) : Changes s (s.leave poll nodeId) :=
  changes_of_eq rfl rfl le_rfl

/-- A request that fails the binding is settled with the failure, and one that passes it was made
in the session of the poll. -/
theorem bound_cases (s : Channel β ρ) (settings : Contributors.Settings) (request : ℕ)
    (pending : Pending β ρ) (identity sessionId : Identity) (fingerprint : Digest) :
    (∃ error, s.bound settings request pending identity sessionId fingerprint =
      (s.settle request (.exception error), .error error)) ∨
    pending.sessionId = sessionId ∧ pending.fingerprint = fingerprint ∧
      s.bound settings request pending identity sessionId fingerprint =
        (s, s.nodes.guard settings identity sessionId fingerprint) := by
  unfold bound
  by_cases hbinding : (pending.sessionId, pending.fingerprint) = (sessionId, fingerprint)
  · obtain ⟨hsession, hfingerprint⟩ := Prod.mk.inj hbinding
    rw [if_neg (not_not.mpr hbinding)]
    exact .inr ⟨hsession, hfingerprint, rfl⟩
  · rw [if_pos hbinding]
    exact .inl ⟨_, rfl⟩

/-- The slot holds a request. -/
theorem slot_eq_some {nodeId : Identity} (h : s.slot nodeId = some (request, pending)) :
    s.requests[request]? = some pending := by
  unfold slot at h
  obtain ⟨number, -, hmap⟩ := Option.bind_eq_some_iff.mp h
  obtain ⟨found, hfound, heq⟩ := Option.map_eq_some_iff.mp hmap
  cases heq
  exact hfound

theorem changes_round (number : ℕ) (poll : Poll) (check : Except Error Unit) :
    Changes s (s.round settings number poll check) := by
  unfold round
  cases s.nodes.guard settings poll.nodeId poll.sessionId poll.fingerprint with
  | error error => exact changes_leave _ _
  | ok =>
    cases poll.rounds with
    | zero => exact changes_leave _ _
    | succ rounds =>
      cases hslot : s.slot poll.nodeId with
      | none => exact changes_of_eq rfl rfl le_rfl
      | some found =>
        obtain ⟨request, pending⟩ := found
        have hfound := slot_eq_some hslot
        by_cases hdelivered : pending.delivered = true
        · simp only [hdelivered, if_true]
          exact changes_of_eq rfl rfl le_rfl
        simp only [hdelivered]
        obtain ⟨error, hbound⟩ | ⟨hsession, hfingerprint, hbound⟩ := bound_cases s settings request
          pending poll.nodeId poll.sessionId poll.fingerprint
        · rw [hbound]
          exact (changes_settle _ _).trans (changes_leave _ _)
        rw [hbound]
        cases s.nodes.guard settings poll.nodeId poll.sessionId poll.fingerprint with
        | error error => exact changes_leave _ _
        | ok =>
          cases check with
          | error error => exact (changes_settle _ _).trans (changes_leave _ _)
          | ok =>
            -- The command is handed to a poll of the session in which the request was made.
            rw [← hsession, ← hfingerprint]
            refine Changes.trans (Change.changes ?_) (changes_leave _ _)
            exact .rewrite hfound (.hand (Bool.not_eq_true _ ▸ hdelivered))
              (modify_requests hfound) rfl le_rfl

/-- What a poll does with the reply that it brings, after the reply is noted. -/
theorem changes_receive (number : ℕ) (poll : Poll) (reply : Reply ρ) :
    Changes (s.note (.arrived number reply poll.sessionId poll.fingerprint))
      (s.receive settings number poll reply).1 := by
  unfold receive
  generalize hnoted : s.note (.arrived number reply poll.sessionId poll.fingerprint) = noted
  have hlast : noted.history = .arrived number reply poll.sessionId poll.fingerprint :: s.history :=
    hnoted ▸ rfl
  cases hslot : noted.slot poll.nodeId with
  | none =>
    simp only [hslot]
    exact .refl
  | some found =>
    obtain ⟨request, pending⟩ := found
    simp only [hslot]
    by_cases hmatches : pending.delivered = true ∧ reply.id = pending.message.id
    · rw [if_pos hmatches]
      obtain ⟨error, hbound⟩ | ⟨hsession, hfingerprint, hbound⟩ := bound_cases noted settings
        request pending poll.nodeId poll.sessionId poll.fingerprint
      · simp only [hbound]
        exact changes_settle _ _
      simp only [hbound]
      cases noted.nodes.guard settings poll.nodeId poll.sessionId poll.fingerprint with
      | error error => exact .refl
      | ok _ =>
        have hfound := slot_eq_some hslot
        rw [← hsession, ← hfingerprint] at hlast
        show Changes noted (noted.settle request (.result reply number))
        refine changes_modify_of_found hfound ?_
        cases hfuture : pending.future with
        | waiting => exact .resolve hfuture hmatches.1 hmatches.2 hlast
        -- A future that is done keeps its result.
        | _ =>
          simp only [Future.resolve]
          refine .fail ?_ Iff.rfl ?_ <;> simp [hfuture]
    · rw [if_neg hmatches]
      exact .refl

theorem changes_exchange (fingerprint : Digest) (sessionId : Identity)
    (response : Option (Response ρ)) (check : Except Error Unit) :
    Changes s (s.exchange settings fingerprint sessionId response check) := by
  unfold exchange
  cases s.nodes.authenticate fingerprint with
  | error error => exact .refl
  | ok certificate =>
    dsimp only
    cases s.nodes.guard settings certificate.nodeId sessionId fingerprint with
    | error error => exact .refl
    | ok _ =>
      dsimp only
      by_cases hpolling : certificate.nodeId ∈ s.polling
      · rw [if_pos hpolling]
        exact .refl
      rw [if_neg hpolling]
      generalize hpolled : { s with
        polling := insert certificate.nodeId s.polling, polled := s.polled + 1 } = polled
      have hsame : Changes s polled := by
        subst hpolled
        exact changes_of_eq rfl rfl (Nat.le_succ _)
      cases response with
      | none => exact hsame.trans (changes_round _ _ _)
      | some response =>
        dsimp only
        cases acceptResponse settings certificate.nodeId response with
        | error error => exact hsame.trans (changes_leave _ _)
        | ok reply =>
          dsimp only
          generalize hpoll : (⟨certificate.nodeId, sessionId, fingerprint, 10⟩ : Poll) = poll
          -- The reply is noted under the number of the poll, which is new.
          have harrive : Change s (polled.note
              (.arrived s.polled reply poll.sessionId poll.fingerprint)) := by
            subst hpolled
            exact .arrive rfl rfl (Nat.lt_succ_self _)
          have hreceive : Changes s (polled.receive settings s.polled poll reply).1 :=
            harrive.changes.trans (changes_receive _ _ _)
          rcases hreceived : polled.receive settings s.polled poll reply with ⟨received, error | _⟩
          · rw [hreceived] at hreceive
            exact hreceive.trans (changes_leave _ _)
          · rw [hreceived] at hreceive
            exact hreceive.trans (changes_round _ _ _)

theorem changes_close : Changes s s.close := by
  have hfold (error : Error) (rows : List (Identity × ℕ)) (s : Channel β ρ) :
      Changes s (rows.foldl (fun s row => s.settle row.2 (.exception error)) s) := by
    induction rows generalizing s with
    | nil => exact .refl
    | cons row rows ih => exact (changes_settle _ _).trans (ih _)
  refine Changes.trans (hfold (.failure "executor_stopped"
    "The controller execution channel stopped." 503) s.pending.rows s) ?_
  exact changes_of_eq rfl rfl le_rfl

/-- Every step is a sequence of changes. -/
theorem changes_step (hs : s.Consistent) (action : Step β ρ) :
    Changes s (s.step settings action) := by
  cases action with
  | request nodeId message check => exact changes_request _ _ _
  | timeout request => exact changes_cancelRequest _ nofun
  | cancel request => exact changes_cancelRequest _ nofun
  | resume request check => exact changes_resume hs _ _
  | exchange fingerprint sessionId response check => exact changes_exchange _ _ _ _
  | round number check =>
    simp only [step]
    cases s.polls.lookup number with
    | none => exact .refl
    | some poll => exact changes_round _ _ _
  | abandon number =>
    simp only [step]
    cases s.polls.lookup number with
    | none => exact .refl
    | some poll => exact changes_leave _ _
  | close => exact changes_close
  | heartbeat fingerprint sessionId sequence fresh => exact changes_of_eq rfl rfl le_rfl
  | verify => exact changes_of_eq rfl rfl le_rfl
  | disconnect nodeId => exact changes_of_eq rfl rfl le_rfl
  | disconnectAll => exact changes_of_eq rfl rfl le_rfl
  | certify certificates => exact changes_of_eq rfl rfl le_rfl
  | tick wall monotonic => exact changes_of_eq rfl rfl le_rfl

/-- A run keeps the channel consistent. -/
theorem run_consistent (settings : Contributors.Settings) (nodes : Sessions)
    (actions : List (Step β ρ)) : (run (step settings) (initial nodes) actions).Consistent :=
  run_invariant (fun _ action hs => hs.changes (changes_step hs action)) (consistent_initial nodes)
    actions

end Steps

section Guarantees

/-- The reply of the poll is not one for this request: the request had ended, or the reply came
from another session. -/
def Misplaced (s : Channel β ρ) (request poll : ℕ) : Prop :=
  ∃ pending reply sessionId fingerprint before, s.requests[request]? = some pending ∧
    reply.id = pending.message.id ∧
    .arrived poll reply sessionId fingerprint :: before <:+ s.history ∧
    ((∃ event ∈ before, event.ends request = true) ∨
      (sessionId, fingerprint) ≠ (pending.sessionId, pending.fingerprint))

/-- A reply that is late or comes from another session completes no request. -/
theorem Consistent.not_completed_of_misplaced {s : Channel β ρ} (hs : s.Consistent)
    {request poll : ℕ} (h : s.Misplaced request poll) (other : ℕ) (reply : Reply ρ) :
    .completed other reply poll ∉ s.history := by
  intro hmem
  obtain ⟨pending, reply', sessionId, fingerprint, before, hfound, hid, harrived, hwrong⟩ := h
  obtain ⟨after, earlier, hsplit⟩ := List.append_of_mem hmem
  obtain ⟨pending', before', hfound', hid', harrived', -, hopen⟩ :=
    hs.completed (hsplit ▸ List.suffix_append _ _)
  have hearlier : earlier <:+ s.history := by
    rw [hsplit]
    exact (List.suffix_cons _ _).trans (List.suffix_append _ _)
  -- The poll has brought one reply only, so the completed request is the same.
  obtain ⟨rfl, rfl, rfl, rfl⟩ := hs.single harrived (harrived'.trans hearlier)
  obtain rfl : other = request := hs.distinct hfound hfound' (hid'.symm.trans hid)
  obtain rfl := Option.some.inj (hfound'.symm.trans hfound)
  obtain ⟨event, hevent, hends⟩ | hsession := hwrong
  · rw [hopen event hevent] at hends
    cases hends
  · exact hsession rfl

/-- In every run of a channel, every command is handed over at most once, a request completes only
with the reply to its delivered command from its own session, and a reply that came after its
request had ended or from another session completes no request. -/
theorem exchanges_matched (settings : Contributors.Settings) (nodes : Sessions)
    (actions : List (Step β ρ)) :
    let s := run (step settings) (initial nodes) actions
    (∀ request, s.history.countP (ChannelEvent.hands request) ≤ 1) ∧
    (∀ request reply poll before, .completed request reply poll :: before <:+ s.history →
      s.Answers before request reply poll) ∧
    ∀ request poll, s.Misplaced request poll →
      ∀ other reply, .completed other reply poll ∉ s.history := by
  intro s
  have hs : s.Consistent := run_consistent settings nodes actions
  refine ⟨hs.once, ?_, ?_⟩
  · intro request reply poll before hsuffix
    exact hs.completed hsuffix
  · intro request poll hmisplaced other reply
    exact hs.not_completed_of_misplaced hmisplaced other reply

end Guarantees

end Channel

end Ficc.Workloads
