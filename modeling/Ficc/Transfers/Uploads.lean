import Ficc.Foundations.Transition
import Ficc.Transfers.Phases

/-!
# Uploads from a browser

One item of an upload: the record that the controller keeps, and the node that keeps the file. A
client sends chunks, finishes the upload, and resumes it after an interruption. For a resumption the
controller remembers how much of the accepted prefix has to be sent again, and how much of it has
been.

A call of the node can be refused on the way, stopped after any durable step, or carried out without
its answer, and the controller itself can die. A request can also outlive its call: the helper on the
node waits for the lock of the namespace and carries the request out later, but only once. The lock of
the item makes the actions of the controller follow one another. Access checks that fail before a call
refuse the action and are left out.
-/

namespace Ficc.Transfers

open Execution (Identity Digest Hash)
open Durable (cut)

/-- The state of an item. -/
inductive ItemState
  | queued | unknown
  /-- A state that the node knows as well. -/
  | of (state : State)
deriving DecidableEq

/-- The item that the controller keeps. -/
structure Item where
  spec : Spec
  state : ItemState
  offset : ℕ
  replayOffset : ℕ
  replayUntil : ℕ
  sha256 : Option Digest
  /-- The code of the error. -/
  error : Option String
  cleanupPending : Bool
deriving DecidableEq

deriving instance DecidableEq for Limits, Request

/-- A request that has outlived its call. -/
structure Late where
  /-- The session of the upload in which the request was sent. -/
  session : ℕ
  request : Request
deriving DecidableEq

/-- The item, its node and the requests on the way. -/
structure Upload where
  item : Item
  node : Node
  late : List Late
  /-- The number of answered resumptions. The controller does not count them. -/
  session : ℕ
deriving DecidableEq

/-- What becomes of the answer of the node. -/
inductive Answer
  | received | lost
  /-- The controller dies. -/
  | crashed
deriving DecidableEq

/-- A late request is carried out until it is stopped. -/
structure Arrival where
  late : Late
  kernel : Kernel
  stop : Option ℕ

/-- A call of the node. It is stopped after `stop` durable steps, so a call that never arrives is
one that is stopped at once. -/
structure Call where
  kernel : Kernel
  limits : Limits
  stop : Option ℕ
  answer : Answer
  /-- The call ends while its request is still on the way. -/
  outlived : Bool
  /-- The late requests that are carried out first. -/
  arrivals : List Arrival

/-- Why an action fails. -/
inductive Failure
  | failure (code : String)
  | crashed
deriving DecidableEq

def FileError.failure : FileError → Failure
  | .error code _ => .failure code
  | .missing => .failure "file_unavailable"

/-- The failure of a call that is not answered. -/
def Answer.failure : Answer → Failure
  | .crashed => .crashed
  | .received | .lost => .failure "unreachable"

namespace Upload

variable [Hashing] [Hash (Root × Spec)]

/-- The node carries out a late request. -/
def arrive (root : Root) (s : Upload) (arrival : Arrival) : Upload :=
  if arrival.late ∈ s.late ∧ Node.Fresh s.node arrival.kernel then
    { s with
      node := cut (Node.dispatch arrival.kernel root arrival.late.request) s.node arrival.stop
      late := s.late.erase arrival.late }
  else s

/-- The node answers a request, or leaves it unanswered. -/
def answered (root : Root) (s : Upload) (request : Request) (call : Call) :
    Upload × Except Failure Record :=
  if call.outlived then
    ({ s with late := ⟨s.session, request⟩ :: s.late }, .error call.answer.failure)
  else if Node.Fresh s.node call.kernel then
    ({ s with node := cut (Node.dispatch call.kernel root request) s.node call.stop },
      match call.answer, call.stop with
      | .received, none =>
        (Node.dispatch call.kernel root request s.node).result.mapError FileError.failure
      | answer, _ => .error answer.failure)
  else (s, .error (.failure "unreachable"))

/-- A call of the node. -/
def exchange (root : Root) (s : Upload) (request : Request) (call : Call) :
    Upload × Except Failure Record :=
  (run (arrive root) s call.arrivals).answered root request call

/-- Uploading takes a chunk from the client. -/
def upload (root : Root) (s : Upload) (offset : ℕ) (data : Bytes) (sha256 : Option Digest)
    (begun written : Call) : Upload × Option Failure :=
  let item := s.item
  if ¬(item.state = .queued ∨ item.state = .of .running) then (s, some (.failure "transfer_state"))
  else if item.replayOffset < item.replayUntil ∧ item.replayOffset < offset then
    (s, some (.failure "source_verification_required"))
  else
    match s.exchange root (.start item.spec true begun.limits) begun with
    | (s, .error e) => (s, some e)
    | (s, .ok _) =>
      match s.exchange root (.write offset data sha256) written with
      | (s, .error e) => (s, some e)
      | (s, .ok result) =>
        ({ s with item := { item with
            offset := result.offset, state := .of .running, error := none
            replayOffset :=
              if item.replayOffset < item.replayUntil ∧ offset = item.replayOffset then
                item.replayOffset + data.length
              else item.replayOffset } }, none)

/-- Records a failure. An incomplete upload goes on, and a controller that dies records nothing. -/
def interrupted (item : Item) : Failure → Item
  | .failure code =>
    if code = "incomplete_transfer" then item
    else { item with
      state := if item.state = .of .committing then .unknown else .of .interrupted
      error := some code }
  | .crashed => item

/-- The end of an upload that was verified. -/
def publish (root : Root) (s : Upload) (committed : Call) : Upload × Option Failure :=
  let item := { s.item with state := .of .committing }
  match { s with item }.exchange root (.commit item.sha256) committed with
  | (s, .error e) => ({ s with item := interrupted item e }, some e)
  | (s, .ok result) =>
    if result.state ≠ .succeeded ∨ result.sha256 ≠ item.sha256 ∨ result.offset ≠ item.spec.size then
      let e := Failure.failure "invalid_file_response"
      ({ s with item := interrupted item e }, some e)
    else
      ({ s with item := { item with
          state := .of .succeeded, offset := item.spec.size, error := none
          cleanupPending := result.cleanupPending } }, none)

/-- Finishes an upload. The access is checked again after the verification. -/
def finish (root : Root) (s : Upload) (begun verified committed : Call) (allowed : Bool) :
    Upload × Option Failure :=
  let item := s.item
  if item.state = .of .succeeded then (s, none)
  else if ¬(item.state = .queued ∨ item.state = .of .running) then
    (s, some (.failure "transfer_state"))
  else if item.replayOffset < item.replayUntil then
    (s, some (.failure "source_verification_required"))
  else
    match s.exchange root (.start item.spec true begun.limits) begun with
    | (s, .error e) => ({ s with item := interrupted item e }, some e)
    | (s, .ok _) =>
      match s.exchange root .verify verified with
      | (s, .error e) => ({ s with item := interrupted item e }, some e)
      | (s, .ok result) =>
        if result.offset ≠ item.spec.size then (s, some (.failure "incomplete_transfer"))
        else
          let item := { item with sha256 := result.prefixSha256, offset := result.offset }
          if allowed = false then
            let e := Failure.failure "denied"
            ({ s with item := interrupted item e }, some e)
          else { s with item }.publish root committed

/-- The last part of a resumption or a cancellation. -/
def restart (root : Root) (s : Upload) (resume discard : Bool) (begun changed : Call) :
    Upload × Option Failure :=
  let item := s.item
  let refused := Failure.failure "source_manifest_required"
  if resume = true ∧ item.offset ≠ 0 ∧ item.spec.sourceManifest = none then (s, some refused)
  else
    match s.exchange root (.start item.spec resume begun.limits) begun with
    | (s, .error e) => (s, some e)
    | (s, .ok _) =>
      match s.exchange root (if resume then .resume else .cancel discard) changed with
      | (s, .error e) => (s, some e)
      | (s, .ok result) =>
        if resume = true ∧ result.offset ≠ 0 ∧ item.spec.sourceManifest = none then
          ({ s with item := { item with
              state := .of .interrupted, offset := result.offset
              error := some "source_manifest_required" } }, some refused)
        else if resume then
          ({ s with
            item := { item with
              state := .of .running, offset := result.offset, error := none
              replayOffset := 0, replayUntil := result.offset }
            session := s.session + 1 }, none)
        else
          ({ s with item := { item with
              state := .of result.state, offset := result.offset, error := none } }, none)

/-- Looks up how an uncertain commit ended, and carries on with one that the node has begun. -/
def reconcile (root : Root) (s : Upload) (looked committed : Call) :
    Upload × Except Failure Record :=
  match s.exchange root .status looked with
  | (s, .error e) => (s, .error e)
  | (s, .ok status) =>
    if status.state = .committing then s.exchange root (.commit s.item.sha256) committed
    else (s, .ok status)

/-- Resumes or cancels an upload. -/
def change (root : Root) (s : Upload) (resume discard : Bool)
    (looked committed begun changed : Call) : Upload × Option Failure :=
  let item := s.item
  if item.state = .of .succeeded ∧ item.cleanupPending = true ∧ discard = true ∧
      resume = false then
    match s.exchange root (.cancel true) changed with
    | (s, .error e) => (s, some e)
    | (s, .ok result) =>
      ({ s with item := { item with
          state := .of result.state, cleanupPending := result.cleanupPending } }, none)
  else if item.state = .of .succeeded ∨ item.state = .of .cancelled then (s, none)
  else if item.state = .unknown ∨ item.state = .of .committing then
    if resume = false then (s, some (.failure "outcome_unknown"))
    else
      match s.reconcile root looked committed with
      | (s, .error e) => (s, some e)
      | (s, .ok status) =>
        if status.state = .succeeded then
          ({ s with item := { item with
              state := .of .succeeded, offset := status.offset, sha256 := status.sha256
              error := none, cleanupPending := status.cleanupPending } }, none)
        else if status.state ≠ .running then (s, some (.failure "outcome_unknown"))
        else if item.error = some "destination_changed" then
          ({ s with item := { item with state := .of .interrupted } }, none)
        else s.restart root resume discard begun changed
  else s.restart root resume discard begun changed

/-- Polling starts with a new controller: the tasks of the one before are gone. -/
def poll (s : Upload) : Upload :=
  { s with item := { s.item with
      state :=
        if s.item.state = .of .committing then .unknown
        else if s.item.state = .of .running ∨ s.item.state = .queued then .of .interrupted
        else s.item.state } }

/-- A new upload. -/
def submitted (spec : Spec) (old : Option File) : Upload where
  item := {
    spec, state := .queued, offset := 0, replayOffset := 0, replayUntil := 0, sha256 := none
    error := none, cleanupPending := false }
  node := { destination := old, staging := none, record := none, accepted := [] }
  late := []
  session := 0

/-- What happens to an upload. -/
inductive Action
  | upload (offset : ℕ) (data : Bytes) (sha256 : Option Digest) (begun written : Call)
  | finish (begun verified committed : Call) (allowed : Bool)
  | change (resume discard : Bool) (looked committed begun changed : Call)
  | poll
  /-- A late request is carried out between two actions of the controller. -/
  | arrive (arrival : Arrival)

/-- Performs an action and answers the client. -/
def perform (root : Root) (s : Upload) : Action → Upload × Option Failure
  | .upload offset data sha256 begun written => s.upload root offset data sha256 begun written
  | .finish begun verified committed allowed => s.finish root begun verified committed allowed
  | .change resume discard looked committed begun changed =>
    s.change root resume discard looked committed begun changed
  | .poll => (s.poll, none)
  | .arrive arrival => (s.arrive root arrival, none)

def step (root : Root) (s : Upload) (action : Action) : Upload := (s.perform root action).1

/-- The late requests that are carried out in the course of an action. -/
def Action.arrivals : Action → List Arrival
  | .upload _ _ _ begun written => begun.arrivals ++ written.arrivals
  | .finish begun verified committed _ =>
    begun.arrivals ++ verified.arrivals ++ committed.arrivals
  | .change _ _ looked committed begun changed =>
    looked.arrivals ++ committed.arrivals ++ begun.arrivals ++ changed.arrivals
  | .poll => []
  | .arrive arrival => [arrival]

/-- The controller waits for the client to send the accepted prefix again. -/
def Pending (item : Item) : Prop := item.replayOffset < item.replayUntil

instance : DecidablePred Pending := fun _ => inferInstanceAs (Decidable (_ < _))

/-- The action resumes the upload. -/
def Resumes (root : Root) (s : Upload) (action : Action) : Prop :=
  (∃ discard looked committed begun changed,
    action = .change true discard looked committed begun changed) ∧
  (s.perform root action).2 = none ∧ (s.step root action).item.state = .of .running

end Upload

end Ficc.Transfers
