import Mathlib.Algebra.Order.BigOperators.Group.List
import Mathlib.Algebra.Order.Group.Nat
import Ficc.Foundations.Transition
import Ficc.Inference.Attached

/-!
# Slots of the inference gateway

The gateway counts the requests that it forwards, for each service and for each attempt or attached
endpoint, and refuses a request where a count has reached what was configured. The counts are raised
by the coroutine that admits a request and lowered by whichever coroutine ends it.

A step of the gateway is what one coroutine does between two `await`s.

## Main results

* `counts_exact`: in every run the counts are those of the admitted streams that are not closed,
  within the configured concurrency, and no stream releases its slot twice.
* `not_always_released`: a stream that is dropped without being closed keeps its slot, one whose first
  check fails is not opened, and a service that is configured anew may have more streams than it is
  configured for.
-/

namespace Ficc.Inference

open Execution (Identity Digest)

/-! ### Streams -/

/-- What a stream takes besides a slot of its service: a slot of an attempt, or of the endpoint of a
profile. -/
inductive Slot
  | attempt (id : Identity)
  | profile (digest : Digest)
deriving DecidableEq

/-- A stream of an attempt of the service, or of an attached endpoint. -/
inductive Forward
  | managed (stream : Stream)
  | attached (stream : Attached)

namespace Forward

inductive Event
  | managed (event : Stream.Event)
  | attached (event : Attached.Event)

/-- One coroutine of a stream runs up to its next `await`. -/
def handle : Forward → Event → Forward × List Effect
  | .managed stream, .managed event => (.managed (stream.handle event).1, (stream.handle event).2)
  | .attached stream, .attached event => (.attached (stream.handle event).1, (stream.handle event).2)
  | stream, _ => (stream, [])

def service : Forward → Identity
  | .managed stream => stream.service
  | .attached stream => stream.service

def slot : Forward → Slot
  | .managed stream => .attempt stream.attempt
  | .attached stream => .profile stream.profile

/-- The stream has failed, or the call that closed it has ended. -/
def Closed : Forward → Prop
  | .managed stream => stream.Closed
  | .attached stream => stream.Closed

/-- The clean-up of the stream has raised at its client. -/
def Cut : Forward → Prop
  | .managed _ => False
  | .attached stream => stream.cut ≠ 0

/-- The stream is for an attempt of its service. -/
def Managed : Forward → Prop
  | .managed _ => True
  | .attached _ => False

/-- No coroutine of the stream is suspended. -/
def Quiet : Forward → Prop
  | .managed stream => stream.Quiet
  | .attached stream => stream.Quiet

instance (s : Forward) : Decidable s.Closed :=
  match s with
  | .managed stream => inferInstanceAs (Decidable stream.Closed)
  | .attached stream => inferInstanceAs (Decidable stream.Closed)

instance (s : Forward) : Decidable s.Cut :=
  match s with
  | .managed _ => .isFalse id
  | .attached stream => inferInstanceAs (Decidable (stream.cut ≠ 0))

/-- The stream holds its slot. -/
def Holds (s : Forward) : Prop := ¬s.Closed ∨ s.Cut

instance (s : Forward) : Decidable s.Holds := inferInstanceAs (Decidable (_ ∨ _))

/-- The slots that a stream holds. -/
def held (s : Forward) : ℕ := if s.Holds then 1 else 0

/-- A stream that counts is held. -/
theorem held_ne_zero {s : Forward} : s.held ≠ 0 ↔ s.Holds := by
  simp [held]

/-- A stream and all that its coroutines have done. -/
def Sound (s : Forward) (effects : List Effect) : Prop :=
  match s with
  | .managed stream => stream.Sound effects
  | .attached stream => stream.Sound effects

variable {s : Forward} {effects : List Effect}

/-- Every event keeps a stream sound. -/
theorem Sound.handle (h : s.Sound effects) (event : Event) :
    (s.handle event).1.Sound (effects ++ (s.handle event).2) := by
  cases s with
  | managed stream =>
    cases event with
    | managed event => exact Stream.Sound.handle h event
    | attached event =>
      show Stream.Sound stream (effects ++ [])
      rw [List.append_nil]
      exact h
  | attached stream =>
    cases event with
    | managed event =>
      show Attached.Sound stream (effects ++ [])
      rw [List.append_nil]
      exact h
    | attached event => exact Attached.Sound.handle h event

/-- A sound stream has released its slot once, or it holds the slot. -/
theorem Sound.releases (h : s.Sound effects) : effects.count .release + s.held = 1 := by
  cases s with
  | managed stream =>
    have hreleases := Stream.Sound.releases h
    rw [Stream.Sound.held_eq h] at hreleases
    rw [← hreleases]
    simp [held, Holds, Closed, Cut, ite_not]
  | attached stream =>
    have hreleases := Attached.Sound.releases h
    rw [Attached.Sound.held_eq h] at hreleases
    rw [← hreleases]
    by_cases hclosed : stream.Closed <;> by_cases hcut : stream.cut = 0 <;>
      simp [held, Holds, Closed, Cut, hclosed, hcut]

/-- It is opened at most once. -/
theorem Sound.openings (h : s.Sound effects) : effects.count (.send .open_) ≤ 1 := by
  cases s with
  | managed stream => exact (Nat.le_add_right _ _).trans (Stream.Sound.openings h)
  | attached stream => exact Attached.Sound.openings h

/-- It is cancelled at most once. -/
theorem Sound.cancellations (h : s.Sound effects) : effects.count (.send .cancel) ≤ 1 := by
  cases s with
  | managed stream => exact (Nat.le_add_right _ _).trans (Stream.Sound.cancellations h)
  | attached stream => exact (Attached.Sound.cancellations h).le.trans (Nat.zero_le 1)

/-- A step changes neither the service nor the slot. -/
theorem handle_same (s : Forward) (event : Event) :
    (s.handle event).1.service = s.service ∧ (s.handle event).1.slot = s.slot ∧
      ((s.handle event).1.Managed ↔ s.Managed) := by
  cases s with
  | managed stream =>
    cases event with
    | managed event =>
      obtain ⟨hservice, hattempt⟩ := stream.handle_same event
      exact ⟨hservice, congrArg Slot.attempt hattempt, Iff.rfl⟩
    | attached event => exact ⟨rfl, rfl, Iff.rfl⟩
  | attached stream =>
    cases event with
    | managed event => exact ⟨rfl, rfl, Iff.rfl⟩
    | attached event =>
      obtain ⟨hservice, hprofile⟩ := stream.handle_same event
      exact ⟨hservice, congrArg Slot.profile hprofile, Iff.rfl⟩

end Forward

/-! ### Requests -/

/-- An approved external API. The digest is that of the profile. -/
structure Profile where
  digest : Digest
  capabilities : List String
  concurrency : ℕ

/-- Where the requests of a service go. -/
inductive Backend
  /-- To the attempts of its workloads. The capabilities are those of the model. -/
  | managed (capabilities : List String) (concurrency : ℕ)
  /-- To an attached endpoint, unless its profile is absent or has changed. -/
  | attached (profile : Except Error Profile)

/-- What the admission reads of the record of a service. -/
structure Record where
  desired : String
  state : String
  workloads : List Identity
  backend : Backend

/-- The number of requests that an attempt, or the endpoint, is configured for. -/
def Record.concurrency (record : Record) : ℕ :=
  match record.backend with
  | .managed _ concurrency => concurrency
  | .attached (.ok profile) => profile.concurrency
  | .attached (.error _) => 0

/-- The number of requests that the service is configured for. -/
def Record.limit (record : Record) : ℕ :=
  match record.backend with
  | .managed _ concurrency => record.workloads.length * concurrency
  | .attached _ => record.concurrency

/-- A request to a service, with what the other parts of the controller answer for it: the record if
the caller may use it, the attempts that are ready, and the first check of the authority, which for an
attached endpoint includes its credential. `length` is that of the encoded body. -/
structure Request where
  service : Identity
  record : Except Error Record
  path : String
  length : ℕ
  ready : List Identity
  permitted : Bool

/-- A stream that has been admitted under a record, with all that its coroutines have done. -/
structure Entry where
  record : Record
  stream : Forward
  effects : List Effect

/-- The entry after an event of its stream. -/
def Entry.handle (entry : Entry) (event : Forward.Event) : Entry where
  record := entry.record
  stream := (entry.stream.handle event).1
  effects := entry.effects ++ (entry.stream.handle event).2

/-- The gateway, with the streams that it has admitted, in order. -/
structure Gateway where
  active : Identity → ℤ
  loads : Slot → ℤ
  cursor : Identity → ℕ
  streams : List Entry

namespace Gateway

/-- A gateway that has admitted nothing. -/
def empty : Gateway := ⟨fun _ => 0, fun _ => 0, fun _ => 0, []⟩

/-- `sum(active.values())`. -/
def total (g : Gateway) : ℤ :=
  ((g.streams.map fun entry => entry.stream.service).dedup.map g.active).sum

/-- The record under which a request can be admitted. -/
def serving (request : Request) : Except Error Record := do
  let record ← request.record
  raiseIf (record.desired ≠ "running" ∨ record.state ∉ ["ready", "degraded"])
    (.failure "service_not_ready" "This inference service is not ready to receive requests." 409)
  .ok record

/-- The request asks for something that the model or the endpoint offers. -/
def offered (request : Request) (capabilities : List String) : Bool :=
  let capability := if request.path = "/v1/embeddings" then "embeddings" else "chat"
  request.path ∈ ["/v1/chat/completions", "/v1/embeddings"] ∧ capability ∈ capabilities

def lengthCheck (request : Request) : Except Error Unit :=
  raiseIf (512 * 1024 < request.length)
    (.failure "inference_limit" "The inference request exceeds 512 KiB." 413)

/-- The attempts that have a free slot. -/
def available (g : Gateway) (request : Request) (workloads : List Identity)
    (capabilities : List String) (concurrency : ℕ) : Except Error (List Identity) := do
  raiseIf (offered request capabilities = false)
    (.failure "inference_capability" "The selected model does not offer this operation." 409)
  lengthCheck request
  let attempts := request.ready.filter fun attempt => g.loads (.attempt attempt) < concurrency
  raiseIf (attempts = [] ∨ (workloads.length * concurrency : ℕ) ≤ g.active request.service)
    (.failure "inference_capacity" "All ready inference slots are occupied." 429)
  .ok attempts

/-- The profile under which a request to an attached endpoint can be admitted. -/
def attachable (g : Gateway) (request : Request) (profile : Except Error Profile) :
    Except Error Profile := do
  let profile ← profile
  raiseIf (offered request profile.capabilities = false)
    (.failure "inference_capability" "The attached endpoint does not offer this operation." 409)
  lengthCheck request
  raiseIf ((profile.concurrency : ℤ) ≤ g.loads (.profile profile.digest) ∨ 128 ≤ g.total)
    (.failure "inference_capacity" "All attached endpoint request slots are occupied." 429)
  .ok profile

/-- What a coroutine of a stream does to the counts. -/
def apply (service : Identity) (slot : Slot) (g : Gateway) : Effect → Gateway
  | .send _ => g
  | .release =>
    { g with
      active := Function.update g.active service (g.active service - 1)
      loads := Function.update g.loads slot (g.loads slot - 1) }

/-- The counts are raised, and the stream runs up to its first `await`. -/
def occupy (g : Gateway) (record : Record) (opening : Forward × List Effect) : Gateway :=
  let service := opening.1.service
  let slot := opening.1.slot
  opening.2.foldl (apply service slot) { g with
    active := Function.update g.active service (g.active service + 1)
    loads := Function.update g.loads slot (g.loads slot + 1)
    streams := g.streams ++ [⟨record, opening.1, opening.2⟩] }

/-- A request to an attempt, of which `response` begins with its first check. -/
def opening (service attempt : Identity) (permitted : Bool) : Forward × List Effect :=
  let opened := (Stream.admitted service attempt).request (.opening .lock) permitted
  (.managed opened.1, opened.2)

/-- A request to an attached endpoint. -/
def sending (service : Identity) (profile : Digest) (permitted : Bool) : Forward × List Effect :=
  let sent := Attached.admitted service profile permitted
  (.attached sent.1, sent.2)

/-- `invoke` up to its first `await`, for a service and for an attached endpoint. -/
def invoke (g : Gateway) (request : Request) : Gateway :=
  match serving request with
  | .error _ => g
  | .ok record =>
    match record.backend with
    | .attached profile =>
      match g.attachable request profile with
      | .error _ => g
      | .ok profile => g.occupy record (sending request.service profile.digest request.permitted)
    | .managed capabilities concurrency =>
      match g.available request record.workloads capabilities concurrency with
      | .ok (first :: attempts) =>
        let index := g.cursor request.service
        let attempt := (first :: attempts).getD (index % (first :: attempts).length) first
        { g with cursor := Function.update g.cursor request.service (index + 1) }.occupy record
          (opening request.service attempt request.permitted)
      | _ => g

/-- One coroutine of the stream at a position runs up to its next `await`. -/
def handle (g : Gateway) (position : ℕ) (event : Forward.Event) : Gateway :=
  match g.streams[position]? with
  | none => g
  | some entry =>
    (entry.stream.handle event).2.foldl (apply entry.stream.service entry.stream.slot)
      { g with streams := g.streams.set position (entry.handle event) }

/-- A step of the event loop. -/
inductive Action
  | invoke (request : Request)
  | handle (position : ℕ) (event : Forward.Event)

def step (g : Gateway) : Action → Gateway
  | .invoke request => g.invoke request
  | .handle position event => g.handle position event

end Gateway

/-! ### Counting -/

section Occupied

variable {κ : Type} [DecidableEq κ] {key : Forward → κ} {id : κ} {entries : List Entry}

/-- The slots that the streams with a key hold: those of a service, or of an attempt or endpoint. -/
def occupied (key : Forward → κ) (id : κ) (entries : List Entry) : ℕ :=
  (entries.map fun entry => if key entry.stream = id then entry.stream.held else 0).sum

/-- The occupancies add up. -/
theorem occupied_append (first second : List Entry) :
    occupied key id (first ++ second) = occupied key id first + occupied key id second := by
  rw [occupied, List.map_append, List.sum_append, occupied, occupied]

theorem occupied_singleton (entry : Entry) :
    occupied key id [entry] = if key entry.stream = id then entry.stream.held else 0 := by
  rw [occupied, List.map_cons, List.map_nil, List.sum_cons, List.sum_nil, Nat.add_zero]

/-- A stream that keeps its key changes the count by what it holds. -/
theorem occupied_set (id : κ) {position : ℕ} {entry after : Entry}
    (h : entries[position]? = some entry) (hkey : key after.stream = key entry.stream) :
    occupied key id (entries.set position after) +
        (if key entry.stream = id then entry.stream.held else 0) =
      occupied key id entries + if key entry.stream = id then after.stream.held else 0 := by
  induction entries generalizing position with
  | nil => simp at h
  | cons first entries ih =>
    cases position with
    | zero =>
      obtain rfl : first = entry := by simpa using h
      simp only [List.set_cons_zero, occupied, List.map_cons, List.sum_cons, hkey]
      omega
    | succ position =>
      have hlater := ih (by simpa using h)
      simp only [occupied, List.set_cons_succ, List.map_cons, List.sum_cons] at hlater ⊢
      omega

/-- A stream that holds no more than before does not raise a count of the first streams. -/
theorem occupied_take_set_le {position : ℕ} {entry after : Entry}
    (h : entries[position]? = some entry) (hkey : key after.stream = key entry.stream)
    (hheld : after.stream.held ≤ entry.stream.held) (count : ℕ) :
    occupied key id ((entries.set position after).take count) ≤
      occupied key id (entries.take count) := by
  rw [List.take_set]
  by_cases hlt : position < count
  · have htake : (entries.take count)[position]? = some entry := by
      rw [List.getElem?_take_of_lt hlt, h]
    have hset := occupied_set id htake hkey
    split_ifs at hset <;> omega
  · rw [List.set_eq_of_length_le]
    exact (List.length_take_le _ _).trans (not_lt.mp hlt)

/-- When all streams with one key that hold a slot have another key too, they are no more than those
with the other key. -/
theorem occupied_le_occupied {κ' : Type} [DecidableEq κ'] {key' : Forward → κ'} {id' : κ'}
    (h : ∀ entry ∈ entries, key entry.stream = id → entry.stream.Holds → key' entry.stream = id') :
    occupied key id entries ≤ occupied key' id' entries := by
  refine List.sum_le_sum fun entry hentry => ?_
  split_ifs with hkey hkey'
  · exact le_rfl
  · by_contra hne
    exact hkey' (h entry hentry hkey (Forward.held_ne_zero.mp (by omega)))
  · exact Nat.zero_le _
  · exact le_rfl

/-- What is occupied is within a bound that the last stream with the key kept when it was
admitted. -/
theorem occupied_le {bound : ℕ}
    (h : ∀ position entry, entries[position]? = some entry → key entry.stream = id →
      entry.stream.Holds → occupied key id (entries.take (position + 1)) ≤ bound) :
    occupied key id entries ≤ bound := by
  induction entries using List.reverseRecOn with
  | nil => exact Nat.zero_le _
  | append_singleton entries entry ih =>
    by_cases hlast : key entry.stream = id ∧ entry.stream.Holds
    · have hlimit := h entries.length entry (by simp) hlast.1 hlast.2
      rwa [List.take_of_length_le (by simp)] at hlimit
    · have hnone : occupied key id [entry] = 0 := by
        rw [occupied_singleton]
        split_ifs with hkey
        · exact not_not.mp fun hne => hlast ⟨hkey, Forward.held_ne_zero.mp hne⟩
        · rfl
      rw [occupied_append, hnone]
      refine ih fun position other hother hkey hholds => ?_
      have hlt := (List.getElem?_eq_some_iff.mp hother).1
      have hlimit := h position other (by rw [List.getElem?_append_left hlt, hother]) hkey hholds
      rwa [List.take_append_of_le_length hlt] at hlimit

/-- The streams with a key that are not closed. -/
def unclosed (key : Forward → κ) (id : κ) (entries : List Entry) : ℕ :=
  entries.countP fun entry => key entry.stream = id ∧ ¬entry.stream.Closed

/-- The slots are those of the streams that are not closed, unless a clean-up was cut. -/
theorem occupied_eq_unclosed (h : ∀ entry ∈ entries, key entry.stream = id → ¬entry.stream.Cut) :
    occupied key id entries = unclosed key id entries := by
  induction entries with
  | nil => rfl
  | cons entry entries ih =>
    have hlater := ih fun other hother => h other (List.mem_cons_of_mem _ hother)
    have huncut := h entry List.mem_cons_self
    rw [occupied, unclosed] at hlater ⊢
    rw [List.map_cons, List.sum_cons, List.countP_cons, hlater, Nat.add_comm]
    by_cases hkey : key entry.stream = id
    · by_cases hclosed : entry.stream.Closed <;>
        simp [hkey, hclosed, Forward.held, Forward.Holds, huncut hkey]
    · simp [hkey]

end Occupied

namespace Gateway

/-- The effects of a coroutine lower the counts of its own stream, once for each release. -/
theorem foldl_apply (service : Identity) (slot : Slot) (effects : List Effect) (g : Gateway) :
    (effects.foldl (apply service slot) g).streams = g.streams ∧
      (∀ id, (effects.foldl (apply service slot) g).active id =
        g.active id - if service = id then (effects.count .release : ℤ) else 0) ∧
      ∀ id, (effects.foldl (apply service slot) g).loads id =
        g.loads id - if slot = id then (effects.count .release : ℤ) else 0 := by
  induction effects generalizing g with
  | nil => simp
  | cons effect effects ih =>
    obtain ⟨hstreams, hactive, hloads⟩ := ih (apply service slot g effect)
    rw [List.foldl_cons]
    cases effect with
    | send operation =>
      refine ⟨hstreams, fun id => ?_, fun id => ?_⟩
      · rw [hactive, List.count_cons_of_ne (by simp)]
        rfl
      · rw [hloads, List.count_cons_of_ne (by simp)]
        rfl
    | release =>
      refine ⟨hstreams, fun id => ?_, fun id => ?_⟩
      · rw [hactive, List.count_cons_self]
        by_cases hid : service = id
        · subst hid
          simp only [apply, Function.update_self, if_true]
          push_cast
          omega
        · simp [apply, hid, Function.update_of_ne (Ne.symm hid)]
      · rw [hloads, List.count_cons_self]
        by_cases hid : slot = id
        · subst hid
          simp only [apply, Function.update_self, if_true]
          push_cast
          omega
        · simp [apply, hid, Function.update_of_ne (Ne.symm hid)]

/-- What an admission and its record have to do with the counts of the streams up to it. -/
structure Within (entries : List Entry) (entry : Entry) : Prop where
  slot : occupied Forward.slot entry.stream.slot entries ≤ entry.record.concurrency
  service : entry.stream.Managed →
    occupied Forward.service entry.stream.service entries ≤ entry.record.limit

/-- What every run keeps. A stream that still holds its slot was admitted below the limits of its
record, and the streams before it have only become fewer. -/
structure Invariant (g : Gateway) : Prop where
  sound : ∀ entry ∈ g.streams, entry.stream.Sound entry.effects
  active : ∀ id, g.active id = occupied Forward.service id g.streams
  loads : ∀ slot, g.loads slot = occupied Forward.slot slot g.streams
  limits : ∀ position entry, g.streams[position]? = some entry → entry.stream.Holds →
    Within (g.streams.take (position + 1)) entry
  concurrency : ∀ entry ∈ g.streams, ¬entry.stream.Managed →
    entry.record.limit = entry.record.concurrency

theorem invariant_empty : empty.Invariant where
  sound entry h := by simp [empty] at h
  active id := rfl
  loads slot := rfl
  limits position entry h := by simp [empty] at h
  concurrency entry h := by simp [empty] at h

variable {g : Gateway}

/-- An event of a stream that is sound. What is released is no longer held. -/
theorem held_handle {entry : Entry} (h : entry.stream.Sound entry.effects)
    (event : Forward.Event) :
    (entry.handle event).stream.Sound (entry.handle event).effects ∧
      (entry.stream.handle event).2.count .release + (entry.handle event).stream.held =
        entry.stream.held := by
  have hafter := h.handle event
  have hold := h.releases
  have hnew := hafter.releases
  rw [List.count_append] at hnew
  exact ⟨hafter, by show _ + (entry.stream.handle event).1.held = _; omega⟩

/-- An event of a stream keeps the counters. -/
theorem invariant_handle (h : g.Invariant) (position : ℕ) (event : Forward.Event) :
    (g.handle position event).Invariant := by
  unfold handle
  cases hentry : g.streams[position]? with
  | none => exact h
  | some entry =>
    have hmem := List.mem_of_getElem? hentry
    obtain ⟨hsound, hreleases⟩ := held_handle (h.sound entry hmem) event
    obtain ⟨hservice, hslot, hmanaged⟩ := entry.stream.handle_same event
    obtain ⟨hstreams, hactive, hloads⟩ := foldl_apply entry.stream.service entry.stream.slot
      (entry.stream.handle event).2
      { g with streams := g.streams.set position (entry.handle event) }
    have hservice : (entry.handle event).stream.service = entry.stream.service := hservice
    have hslot : (entry.handle event).stream.slot = entry.stream.slot := hslot
    have hmanaged : (entry.handle event).stream.Managed ↔ entry.stream.Managed := hmanaged
    refine ⟨?_, fun id => ?_, fun id => ?_, ?_, ?_⟩
    · rw [hstreams]
      intro other hother
      obtain hother | rfl := List.mem_or_eq_of_mem_set hother
      · exact h.sound other hother
      · exact hsound
    · have hset := occupied_set id hentry hservice
      have hcount := h.active id
      rw [hactive, hstreams]
      split_ifs at hset ⊢ <;> simp only [hcount] <;> omega
    · have hset := occupied_set id hentry hslot
      have hcount := h.loads id
      rw [hloads, hstreams]
      split_ifs at hset ⊢ <;> simp only [hcount] <;> omega
    · rw [hstreams]
      intro other held hother hholds
      have hle : (entry.handle event).stream.held ≤ entry.stream.held := by omega
      -- The stream at this position holds its slot before the event, under the same record.
      obtain ⟨before, hbefore, hheldBefore, hrecord, hsame⟩ : ∃ before,
          g.streams[other]? = some before ∧ before.stream.Holds ∧
          held.record = before.record ∧ held.stream.service = before.stream.service ∧
          held.stream.slot = before.stream.slot ∧
          (held.stream.Managed ↔ before.stream.Managed) := by
        by_cases hposition : position = other
        · subst hposition
          have hlt := (List.getElem?_eq_some_iff.mp hentry).1
          obtain rfl : entry.handle event = held := by
            simpa [List.getElem?_set_self, hlt] using hother
          have hnonzero := Forward.held_ne_zero.mpr hholds
          exact ⟨entry, hentry, Forward.held_ne_zero.mp (by omega), rfl, hservice, hslot, hmanaged⟩
        · exact ⟨held, by simpa [List.getElem?_set_ne hposition] using hother, hholds, rfl, rfl,
            rfl, Iff.rfl⟩
      obtain ⟨hconcurrency, hlimit⟩ := h.limits other before hbefore hheldBefore
      refine ⟨?_, fun hheld => ?_⟩
      · rw [hrecord, hsame.2.1]
        exact (occupied_take_set_le hentry hslot hle _).trans hconcurrency
      · rw [hrecord, hsame.1]
        exact (occupied_take_set_le hentry hservice hle _).trans (hlimit (hsame.2.2.mp hheld))
    · rw [hstreams]
      intro other hother hattached
      obtain hother | rfl := List.mem_or_eq_of_mem_set hother
      · exact h.concurrency other hother hattached
      · exact h.concurrency entry hmem (hmanaged.not.mp hattached)

/-- A slot is taken: the count of the admitted stream's key is higher by what it holds. -/
theorem occupied_anew {κ : Type} [DecidableEq κ] (key : Forward → κ) (entry : Entry)
    {entries : List Entry} {effects : List Effect} (hsound : entry.stream.Sound effects) (id : κ)
    (count : κ → ℤ) (hcount : ∀ id, count id = occupied key id entries) :
    Function.update count (key entry.stream) (count (key entry.stream) + 1) id -
        (if key entry.stream = id then (effects.count .release : ℤ) else 0) =
      occupied key id (entries ++ [entry]) := by
  have hreleases := hsound.releases
  rw [occupied_append, occupied_singleton]
  by_cases hid : key entry.stream = id
  · subst hid
    rw [Function.update_self, if_pos rfl, if_pos rfl, hcount]
    omega
  · rw [Function.update_of_ne (Ne.symm hid), hcount, if_neg hid, if_neg hid]
    omega

/-- An admission takes one slot, of its service and of its attempt or endpoint. -/
theorem invariant_occupy (h : g.Invariant) {record : Record} {opening : Forward × List Effect}
    (hsound : opening.1.Sound opening.2) (hload : g.loads opening.1.slot < record.concurrency)
    (hactive : opening.1.Managed → g.active opening.1.service < record.limit)
    (hlimit : ¬opening.1.Managed → record.limit = record.concurrency) :
    (g.occupy record opening).Invariant := by
  unfold occupy
  dsimp only
  obtain ⟨hstreams, hactives, hloads⟩ := foldl_apply opening.1.service opening.1.slot opening.2
    { g with
      active := Function.update g.active opening.1.service (g.active opening.1.service + 1)
      loads := Function.update g.loads opening.1.slot (g.loads opening.1.slot + 1)
      streams := g.streams ++ [⟨record, opening.1, opening.2⟩] }
  have hservices (id : Identity) := occupied_anew Forward.service ⟨record, opening.1, opening.2⟩
    hsound id g.active h.active
  have hslots (slot : Slot) := occupied_anew Forward.slot ⟨record, opening.1, opening.2⟩ hsound slot
    g.loads h.loads
  refine ⟨?_, fun id => ?_, fun slot => ?_, ?_, ?_⟩
  · rw [hstreams]
    intro entry hentry
    obtain hentry | hentry := List.mem_append.mp hentry
    · exact h.sound entry hentry
    · rw [List.mem_singleton.mp hentry]
      exact hsound
  · rw [hactives, hstreams]
    exact hservices id
  · rw [hloads, hstreams]
    exact hslots slot
  · rw [hstreams]
    intro position entry hentry hholds
    obtain hlt | hge := lt_or_ge position g.streams.length
    · -- The streams up to an earlier one are those of before.
      rw [List.getElem?_append_left hlt] at hentry
      rw [List.take_append_of_le_length hlt]
      exact h.limits position entry hentry hholds
    · -- The last stream is the admitted one, which was below its limits.
      have hlast : position = g.streams.length := by
        have hlength := (List.getElem?_eq_some_iff.mp hentry).1
        simp only [List.length_append, List.length_singleton] at hlength
        omega
      subst hlast
      obtain rfl : (⟨record, opening.1, opening.2⟩ : Entry) = entry := by simpa using hentry
      rw [List.take_of_length_le (by simp)]
      have hslot := hslots opening.1.slot
      have hservice := hservices opening.1.service
      simp only [Function.update_self, if_true] at hslot hservice
      refine ⟨?_, fun hmanaged => ?_⟩
      · show occupied Forward.slot opening.1.slot (g.streams ++ [⟨record, opening.1, opening.2⟩]) ≤
          record.concurrency
        omega
      · have hbelow := hactive hmanaged
        show occupied Forward.service opening.1.service
          (g.streams ++ [⟨record, opening.1, opening.2⟩]) ≤ record.limit
        omega
  · rw [hstreams]
    intro entry hentry hattached
    obtain hentry | hentry := List.mem_append.mp hentry
    · exact h.concurrency entry hentry hattached
    · rw [List.mem_singleton.mp hentry] at hattached ⊢
      exact hlimit hattached

/-- What is available is below its bound. -/
theorem available_eq_ok {request : Request} {workloads attempts : List Identity}
    {capabilities : List String} {concurrency : ℕ}
    (h : g.available request workloads capabilities concurrency = .ok attempts) :
    (∀ attempt ∈ attempts, g.loads (.attempt attempt) < concurrency) ∧
      g.active request.service < (workloads.length * concurrency : ℕ) := by
  simp only [available, bind_eq_ok, raiseIf_eq_ok, exists_const, Except.ok.injEq, not_or,
    not_le] at h
  obtain ⟨-, -, -, ⟨-, hlimit⟩, rfl⟩ := h
  refine ⟨fun attempt hattempt => ?_, hlimit⟩
  simpa using (List.mem_filter.mp hattempt).2

/-- So is what can be attached. -/
theorem attachable_eq_ok {request : Request} {found : Except Error Profile} {profile : Profile}
    (h : g.attachable request found = .ok profile) :
    found = .ok profile ∧ g.loads (.profile profile.digest) < profile.concurrency := by
  simp only [attachable, bind_eq_ok, raiseIf_eq_ok, exists_const, Except.ok.injEq, not_or,
    not_le] at h
  obtain ⟨profile', hfound, -, -, -, ⟨hload, -⟩, rfl⟩ := h
  exact ⟨hfound, hload⟩

/-- The first step of an admitted request to an attempt does nothing but change the stream. -/
theorem sound_opening (service attempt : Identity) (permitted : Bool) :
    (opening service attempt permitted).1.Sound (opening service attempt permitted).2 ∧
      (opening service attempt permitted).1.service = service ∧
      (opening service attempt permitted).1.slot = .attempt attempt := by
  have hsound : ((Stream.admitted service attempt).request (.opening .lock) permitted).1.Sound
      ((Stream.admitted service attempt).request (.opening .lock) permitted).2 :=
    (Stream.sound_admitted service attempt).request rfl (by simp) (fun _ => rfl) permitted
  cases permitted <;> exact ⟨hsound, rfl, rfl⟩

theorem sound_sending (service : Identity) (profile : Digest) (permitted : Bool) :
    (sending service profile permitted).1.Sound (sending service profile permitted).2 ∧
      (sending service profile permitted).1.slot = .profile profile := by
  refine ⟨Attached.sound_admitted service profile permitted, ?_⟩
  cases permitted <;> rfl

/-- A request keeps the counters. -/
theorem invariant_invoke (h : g.Invariant) (request : Request) : (g.invoke request).Invariant := by
  unfold invoke
  split
  · exact h
  next record hserving =>
  split
  · next found hbackend =>
    split
    · exact h
    next profile hattachable =>
    obtain ⟨rfl, hload⟩ := attachable_eq_ok hattachable
    obtain ⟨hsound, hslot⟩ := sound_sending request.service profile.digest request.permitted
    have hconcurrency : record.concurrency = profile.concurrency := by
      rw [Record.concurrency, hbackend]
    refine invariant_occupy h hsound ?_ (fun hmanaged => hmanaged.elim) fun _ => ?_
    · rw [hslot, hconcurrency]
      exact hload
    · rw [Record.limit, hbackend]
  · next capabilities concurrency hbackend =>
    split
    · next first attempts havailable =>
      obtain ⟨hloads, hactive⟩ := available_eq_ok havailable
      dsimp only
      set attempt := (first :: attempts).getD
        (g.cursor request.service % (first :: attempts).length) first with hattempt
      have hmem : attempt ∈ first :: attempts := by
        have hlt : g.cursor request.service % (first :: attempts).length <
            (first :: attempts).length := Nat.mod_lt _ (Nat.succ_pos _)
        rw [hattempt, List.getD_eq_getElem?_getD, List.getElem?_eq_getElem hlt, Option.getD_some]
        exact List.getElem_mem hlt
      obtain ⟨hsound, hservice, hslot⟩ := sound_opening request.service attempt request.permitted
      have hturned (cursor : Identity → ℕ) : ({ g with cursor } : Gateway).Invariant :=
        ⟨h.sound, h.active, h.loads, h.limits, h.concurrency⟩
      refine invariant_occupy (hturned _) hsound ?_ (fun _ => ?_) fun hattached =>
        absurd trivial hattached
      · rw [hslot, Record.concurrency, hbackend]
        exact hloads attempt hmem
      · rw [hservice, Record.limit, hbackend]
        exact hactive
    · exact h

/-- So does every action. -/
theorem invariant_step (g : Gateway) (action : Action) (h : g.Invariant) :
    (step g action).Invariant := by
  cases action with
  | invoke request => exact invariant_invoke h request
  | handle position event => exact invariant_handle h position event

/-- The streams of a service that hold a slot are all for its attempts, or all for one attached
endpoint. -/
def Alike (id : Identity) (entries : List Entry) : Prop :=
  ∀ entry ∈ entries, entry.stream.service = id → entry.stream.Holds → ¬entry.stream.Managed →
    ∀ other ∈ entries, other.stream.service = id → other.stream.Holds →
      other.stream.slot = entry.stream.slot

/-- The count of a slot is within the concurrency under which its streams were admitted. -/
theorem Invariant.loads_le (h : g.Invariant) {slot : Slot} {bound : ℕ}
    (hbound : ∀ entry ∈ g.streams, entry.stream.slot = slot → entry.stream.Holds →
      entry.record.concurrency ≤ bound) : g.loads slot ≤ bound := by
  have hle : occupied Forward.slot slot g.streams ≤ bound := by
    refine occupied_le fun position entry hentry hslot hholds => ?_
    have hwithin := (h.limits position entry hentry hholds).slot
    rw [hslot] at hwithin
    exact hwithin.trans (hbound entry (List.mem_of_getElem? hentry) hslot hholds)
  rw [h.loads]
  exact_mod_cast hle

/-- The count of a service is within the limit under which its streams were admitted. -/
theorem Invariant.active_le (h : g.Invariant) {id : Identity} {bound : ℕ}
    (hbound : ∀ entry ∈ g.streams, entry.stream.service = id → entry.stream.Holds →
      entry.record.limit ≤ bound) (halike : Alike id g.streams) : g.active id ≤ bound := by
  have hle : occupied Forward.service id g.streams ≤ bound := by
    refine occupied_le fun position entry hentry hservice hholds => ?_
    have hmem := List.mem_of_getElem? hentry
    have hwithin := h.limits position entry hentry hholds
    by_cases hmanaged : entry.stream.Managed
    · have hlimit := hwithin.service hmanaged
      rw [hservice] at hlimit
      exact hlimit.trans (hbound entry hmem hservice hholds)
    · -- All streams of the service are streams of its endpoint.
      have hslots : occupied Forward.service id (g.streams.take (position + 1)) ≤
          occupied Forward.slot entry.stream.slot (g.streams.take (position + 1)) :=
        occupied_le_occupied fun other hother hkey hheld =>
          halike entry hmem hservice hholds hmanaged other (List.mem_of_mem_take hother) hkey hheld
      exact (hslots.trans hwithin.slot).trans
        ((h.concurrency entry hmem hmanaged).symm.le.trans (hbound entry hmem hservice hholds))
  rw [h.active]
  exact_mod_cast hle

/-- In every run of the gateway the counts are those of the streams that have been admitted and are
not closed, where no clean-up of an attached stream has raised at its client. They stay within the
concurrency under which these were admitted. A stream releases its slot at most once, which is when it
closes, and sends at most one opening and one cancellation. -/
theorem counts_exact (actions : List Action) :
    let g := run step empty actions
    (∀ id, (∀ entry ∈ g.streams, entry.stream.service = id → ¬entry.stream.Cut) →
      g.active id = unclosed Forward.service id g.streams) ∧
    (∀ slot, (∀ entry ∈ g.streams, entry.stream.slot = slot → ¬entry.stream.Cut) →
      g.loads slot = unclosed Forward.slot slot g.streams) ∧
    (∀ id, 0 ≤ g.active id) ∧ (∀ slot, 0 ≤ g.loads slot) ∧
    (∀ id bound, (∀ entry ∈ g.streams, entry.stream.service = id → entry.stream.Holds →
      entry.record.limit ≤ bound) → Alike id g.streams → g.active id ≤ bound) ∧
    (∀ slot bound, (∀ entry ∈ g.streams, entry.stream.slot = slot → entry.stream.Holds →
      entry.record.concurrency ≤ bound) → g.loads slot ≤ bound) ∧
    ∀ entry ∈ g.streams,
      (entry.effects.count .release ≤ 1 ∧ (¬entry.stream.Cut →
        entry.effects.count .release = if entry.stream.Closed then 1 else 0)) ∧
      entry.effects.count (.send .open_) ≤ 1 ∧ entry.effects.count (.send .cancel) ≤ 1 := by
  intro g
  have h : g.Invariant := run_invariant invariant_step invariant_empty actions
  refine ⟨fun id huncut => ?_, fun slot huncut => ?_, fun id => ?_, fun slot => ?_,
    fun id bound hbound halike => h.active_le hbound halike,
    fun slot bound hbound => h.loads_le hbound, fun entry hentry => ?_⟩
  · rw [h.active, occupied_eq_unclosed huncut]
  · rw [h.loads, occupied_eq_unclosed huncut]
  · rw [h.active]
    exact Int.natCast_nonneg _
  · rw [h.loads]
    exact Int.natCast_nonneg _
  · have hsound := h.sound entry hentry
    have hreleases := hsound.releases
    refine ⟨⟨by omega, fun huncut => ?_⟩, hsound.openings, hsound.cancellations⟩
    by_cases hclosed : entry.stream.Closed <;>
      simp [Forward.held, Forward.Holds, hclosed, huncut] at hreleases ⊢ <;> omega

end Gateway

namespace Example

/-- A service with one replica and a number of slots. -/
def record (concurrency : ℕ) : Record := ⟨"running", "ready", [5], .managed ["chat"] concurrency⟩

/-- A request to it. -/
def request (concurrency : ℕ) (permitted : Bool) : Request :=
  ⟨1, .ok (record concurrency), "/v1/chat/completions", 100, [7], permitted⟩

/-- The events in which a stream has its lock, and then an answer. -/
def answered : List Gateway.Action :=
  [.handle 0 (.managed (.wake 0 .acquired true)),
    .handle 0 (.managed (.wake 0 (.replied ⟨200, none, false, false⟩) true))]

end Example

namespace Gateway

/-- When no coroutine is left, a stream that was dropped unread has not released its slot, and one
whose first check failed has sent no opening. A service that has been stopped and configured anew can
have more streams than it is configured for. -/
theorem not_always_released :
    (¬∀ actions, ∀ entry ∈ (run step empty actions).streams, entry.stream.Quiet →
      entry.effects.count .release = 1) ∧
    (¬∀ actions, ∀ entry ∈ (run step empty actions).streams, entry.stream.Quiet →
      entry.effects.count (.send .open_) = 1) ∧
    ¬∀ actions request record, request.record = .ok record →
      (run step empty (actions ++ [.invoke request])).active request.service ≤ record.limit := by
  refine ⟨fun hreleased => ?_, fun hopened => ?_, fun hlimited => ?_⟩
  · have hdropped := hreleased (.invoke (Example.request 1 true) :: Example.answered)
      ⟨Example.record 1, .managed { Stream.admitted 1 7 with
        stage := .returned, current := ⟨200, none, false, false⟩ }, [.send .open_]⟩
      (List.mem_singleton.mpr rfl) ⟨by simp, rfl⟩
    revert hdropped
    decide
  · have hrefused := hopened (.invoke (Example.request 1 false) :: Example.answered)
      ⟨Example.record 1, .managed { Stream.admitted 1 7 with opened := false, stage := .refused },
        [.send .cancel, .release]⟩ (List.mem_singleton.mpr rfl) ⟨by simp, rfl⟩
    revert hrefused
    decide
  · have hmore := hlimited [.invoke (Example.request 2 true), .invoke (Example.request 2 true)]
      (Example.request 1 true) (Example.record 1) rfl
    revert hmore
    decide +kernel

end Gateway

end Ficc.Inference
