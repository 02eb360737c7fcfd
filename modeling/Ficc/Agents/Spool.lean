import Ficc.Foundations.Durable
import Ficc.Foundations.Table
import Ficc.Execution.Spec
import Mathlib.Data.List.Sort

/-!
# The spool of an agent

The private directory of one agent on its node. The helper of the controller, the tool of the agent
and the adapter of its runtime work in it, each under the lock of the directory, so that their
actions follow one another. Every file is replaced in one durable step, and an action may be stopped
between any two steps.

What the body checks of a message say, the clock, and whether the terminal of the agent is still
there are inputs of an action. A full spool makes a write fail, which is a stop.
-/

namespace Ficc.Agents

open Execution (Identity Digest Hash)
open Durable (perform disk check refuseIf demand each)

/-- How a message is delivered to an agent. -/
inductive Method
  | direct | inbox
deriving DecidableEq

/-- The states of a delivery, on the host and on the node. -/
inductive State
  | hostStored | hostUncertain | nodeStored | adapterSubmitted | sessionIncluded | toolRead
  | uncertain | failed | cancelled | missing
deriving DecidableEq

/-- The states after which nothing happens to a delivery any more. -/
def State.Settled (state : State) : Prop :=
  state = .sessionIncluded ∨ state = .toolRead ∨ state = .failed ∨ state = .cancelled

instance : DecidablePred State.Settled := fun _ => inferInstanceAs (Decidable (_ ∨ _))

/-- A message to an agent. -/
structure Delivery where
  id : Identity
  runId : Identity
  messageId : Identity
  agentId : Identity
  senderId : String
  type : String
  body : String
  method : Method
  authorizationExpiresAt : ℚ
deriving DecidableEq

/-- How far a delivery has come on the node. -/
structure Receipt where
  id : Identity
  state : State
  detail : Option String
  sessionId : Option String
deriving DecidableEq

/-- A message from an agent. -/
structure Item where
  id : Identity
  type : String
  body : String
  recipientIds : List Identity
  replyTo : Option Identity
  idempotencyKey : Identity
  delivery : Method
deriving DecidableEq

/-- Why the host has refused a message for ever. -/
structure Refusal where
  id : Identity
  code : String
  detail : String
  rejectedAt : ℚ
deriving DecidableEq

/-- A refusal with the digest of the message that was refused. -/
structure Rejection extends Refusal where
  sha256 : Digest
deriving DecidableEq

/-- What the host says about a message from an agent. -/
inductive Acknowledgement
  | stored (id : Identity)
  | rejected (rejection : Rejection)
deriving DecidableEq

inductive RuntimeState
  | starting | ready | suspended | unknown | exited | stopped
deriving DecidableEq

/-- The session that the agent runs in. -/
structure Runtime where
  sessionId : Option String
  observedSessionId : Option String
  state : RuntimeState
  bindingRevision : ℕ
deriving DecidableEq

/-- What an agent was launched with. -/
structure Spec where
  agentId : Identity
  runId : Identity
  deliveryMethod : Method
deriving DecidableEq

/-- The files in the directory of an agent. -/
structure Folder where
  inbox : Table Identity Delivery
  receipts : Table Identity Receipt
  outbox : Table Identity Item
  sent : Table Identity Item
  rejected : Table Identity Item
  rejections : Table Identity Rejection
  runtime : Runtime
  archived : Bool
deriving DecidableEq

/-- What the helper tells the controller. -/
structure Reply where
  state : RuntimeState
  receipts : List Receipt
  outbox : List Item

/-- What the controller asks of the node. -/
structure Request where
  deliveries : List Delivery
  outboxAcks : List Acknowledgement
  receiptIds : List Identity

namespace Folder

/-- An action in the directory. -/
abbrev Action (α : Type) : Type := Durable Folder Error α

/-- A file that is not there cannot be read. -/
def missing : Error := .os

/-- The directory of an archived agent is closed. -/
def locked {α : Type} (action : Action α) : Action α := do
  let s ← disk
  refuseIf (s.archived = true)
    (.value "This agent identity is archived and cannot be launched or read as active.")
  action

/-- Writes a receipt. -/
def receipt (value : Receipt) : Action Receipt := do
  perform fun s => { s with receipts := s.receipts.insert value.id value }
  pure value

section Outbox

variable [Hash Item]

/-- Keeps a refused message apart from the pending ones. -/
def retain (identity : Identity) : Action Unit := do
  let s ← disk
  match s.outbox.lookup identity with
  | none => pure ()
  | some message =>
    match s.rejected.lookup identity with
    | some retained => do
      refuseIf (retained ≠ message) (.value "The retained rejection content conflicts.")
      perform fun s => { s with outbox := s.outbox.erase identity }
    | none => perform fun s =>
      { s with rejected := s.rejected.insert identity message, outbox := s.outbox.erase identity }

/-- Writes the refusal of a message, unless it is there. -/
def recordRejection (rejection : Rejection) : Action Unit := do
  let s ← disk
  if s.rejections.lookup rejection.id = none then
    perform fun s => { s with rejections := s.rejections.insert rejection.id rejection }
  else pure ()

/-- Takes a message out of the pending ones that the host has stored or refused. -/
def acknowledge : Acknowledgement → Action Unit
  | .stored identity => do
    let s ← disk
    match s.outbox.lookup identity with
    | none => pure ()
    | some message => do
      perform fun s => { s with sent := s.sent.insert identity message }
      perform fun s => { s with outbox := s.outbox.erase identity }
  | .rejected rejection => do
    let s ← disk
    let source ← demand ((s.outbox.lookup rejection.id).or (s.rejected.lookup rejection.id)) missing
    refuseIf (Hash.digest source ≠ rejection.sha256)
      (.value "The rejection does not match the pending outbox content.")
    recordRejection rejection
    retain rejection.id

end Outbox

/-- Stores a message to the agent, or finds it. Only its authorization may have been renewed. -/
def admitDelivery (spec : Spec) (item : Delivery) : Action Unit := do
  refuseIf (item.agentId ≠ spec.agentId ∨ item.runId ≠ spec.runId)
    (.value "The delivery does not match its registered recipient and run.")
  let s ← disk
  match s.inbox.lookup item.id with
  | some saved =>
    refuseIf ({ saved with authorizationExpiresAt := 0 } ≠ { item with authorizationExpiresAt := 0 })
      (.value "The delivery identity conflicts with saved content.")
  | none => do
    refuseIf (256 ≤ s.inbox.keys.length) (.value "The retained inbox is full.")
    perform fun s => { s with inbox := s.inbox.insert item.id item }

/-- Begins the receipt of a message. -/
def admitReceipt (identity : Identity) : Action Unit := do
  let s ← disk
  if s.receipts.lookup identity = none then do
    let _ ← receipt { id := identity, state := .nodeStored, detail := none, sessionId := none }
    pure ()
  else pure ()

/-- Reads a receipt that the controller asks for. -/
def requestedReceipt (identity : Identity) : Action Receipt := do
  let s ← disk
  if s.receipts.lookup identity = none ∧ (s.inbox.lookup identity).isSome then do
    receipt { id := identity, state := .nodeStored, detail := none, sessionId := none }
  else pure ((s.receipts.lookup identity).getD
    { id := identity, state := .missing, detail := some "No inbox item was admitted."
      sessionId := none })

/-- The receipts that the controller asks for. -/
def requestedReceipts : List Identity → Action (List Receipt)
  | [] => pure []
  | identity :: rest => do
    let first ← requestedReceipt identity
    let others ← requestedReceipts rest
    pure (first :: others)

/-- The state of the runtime, for whether its terminal is there. -/
def status (runtime : Runtime) (present : Bool) : RuntimeState :=
  if present then runtime.state
  else match runtime.state with
    | .stopped => .stopped
    | .starting => .unknown
    | _ => .exited

/-- The files of a kind in the order of their names. -/
def sorted {α : Type} (t : Table Identity α) : List α :=
  (t.rows.insertionSort fun first second => first.1 ≤ second.1).map Prod.snd

/-- The pending messages that go to the controller. -/
def pending (s : Folder) : List Item := (sorted s.outbox).take 8

/-- Exchanges messages and receipts with the controller. -/
def exchange [Hash Item] (spec : Spec) (request : Request) (present : Bool) : Action Reply := do
  refuseIf (8 < request.deliveries.length ∨ 8 < request.outboxAcks.length)
    (.value "The exchange batch exceeds capacity.")
  each request.deliveries fun item => do
    admitDelivery spec item
    admitReceipt item.id
  each request.outboxAcks acknowledge
  refuseIf (8 < request.receiptIds.length) (.value "The receipt batch exceeds capacity.")
  let receipts ← requestedReceipts request.receiptIds
  let s ← disk
  pure { state := status s.runtime present, receipts, outbox := s.pending }

/-- A message that was never sent goes to the outbox. -/
def enqueue (value : Item) : Action Acknowledgement := do
  let s ← disk
  match s.outbox.lookup value.id with
  | some pending => do
    refuseIf (pending ≠ value) (.value "The outbox key already identifies different content.")
    pure (.stored value.id)
  | none => do
    refuseIf (128 ≤ s.outbox.keys.length) (.value "The pending outbox is full.")
    perform fun s => { s with outbox := s.outbox.insert value.id value }
    pure (.stored value.id)

/-- The tool sends a message. `valid` is what the checks of its body and its addresses say. -/
def send (request : Item) (valid : Bool) : Action Acknowledgement := do
  refuseIf (valid = false) (.value "Invalid local bus action.")
  let s ← disk
  let value := { request with id := request.idempotencyKey }
  match s.rejected.lookup value.id with
  | some retained => do
    refuseIf (retained ≠ value)
      (.value "The outbox key already identifies different rejected content.")
    let rejection ← demand (s.rejections.lookup value.id) missing
    pure (.rejected rejection)
  | none =>
    match s.sent.lookup value.id with
    | some message => do
      refuseIf (message ≠ value)
        (.value "The outbox key already identifies different acknowledged content.")
      pure (.stored value.id)
    | none => enqueue value

/-- The tool reads a message. -/
def read (identity : Identity) : Action Delivery := do
  let s ← disk
  let value ← demand (s.inbox.lookup identity) missing
  let current ← demand (s.receipts.lookup identity) missing
  if value.method ≠ .direct ∨ ¬(current.state = .uncertain ∨ current.state = .adapterSubmitted)
  then do
    let _ ← receipt
      { id := identity, state := .toolRead
        detail := some "Read through the registered local inbox tool.", sessionId := none }
    pure value
  else pure value

/-- The next message for the runtime among the given ones, in the order of their names. -/
def nextOf (spec : Spec) (session : Option String) (now : ℚ) :
    List Delivery → Action (List Delivery)
  | [] => pure []
  | item :: rest => do
    let s ← disk
    let current ← demand (s.receipts.lookup item.id) missing
    if item.method ≠ .direct ∨ current.state ≠ .nodeStored then nextOf spec session now rest
    else if item.authorizationExpiresAt ≤ now then do
      let _ ← receipt
        { id := item.id, state := .cancelled
          detail := some "Delivery authorization expired before runtime admission."
          sessionId := none }
      nextOf spec session now rest
    else if spec.deliveryMethod ≠ .direct then do
      let _ ← receipt
        { id := item.id, state := .failed
          detail := some "This runtime supports inbox delivery only.", sessionId := none }
      nextOf spec session now rest
    else do
      let _ ← receipt
        { id := item.id, state := .uncertain
          detail := some "Runtime admission started; acknowledgement is not yet durable."
          sessionId := session }
      pure [item]

/-- The adapter asks for the next message. -/
def next (spec : Spec) (session : Option String) (now : ℚ) : Action (List Delivery) := do
  let s ← disk
  if s.runtime.state ≠ .ready ∨ session ≠ s.runtime.sessionId then pure []
  else nextOf spec s.runtime.sessionId now (sorted s.inbox)

/-- The states that an adapter reports. -/
def adapterStates : List State := [.adapterSubmitted, .sessionIncluded, .uncertain, .failed]

/-- The adapter reports what became of a message. -/
def adapterReceipt (identity : Identity) (session : Option String) (state : State)
    (detail : String) : Action Receipt := do
  let s ← disk
  let item ← demand (s.inbox.lookup identity) missing
  refuseIf (session ≠ s.runtime.sessionId ∨
      ¬(s.runtime.state = .ready ∨ s.runtime.state = .suspended) ∨ item.method ≠ .direct)
    (.value "The receipt does not match the bound runtime session.")
  refuseIf (state ∉ adapterStates) (.value "Invalid runtime receipt state.")
  let current ← demand (s.receipts.lookup identity) missing
  refuseIf ((current.sessionId.or s.runtime.sessionId) ≠ session)
    (.value "The receipt belongs to a different runtime session.")
  if current.state = .sessionIncluded ∨ current.state = .toolRead then pure current
  else receipt { id := identity, state, detail := some detail, sessionId := session }

/-- Writes the runtime file. -/
def saveRuntime (runtime : Runtime) : Action Unit := perform fun s => { s with runtime }

/-- The adapter reports the session of the runtime. -/
def register (session : String) : Action Unit := do
  let s ← disk
  if s.runtime.sessionId = none then
    saveRuntime { s.runtime with sessionId := some session, state := .ready }
  else if s.runtime.sessionId ≠ some session then
    saveRuntime { s.runtime with state := .suspended, observedSessionId := some session }
  else saveRuntime s.runtime

/-- The adapter reports that the runtime has changed its session. -/
def suspend (session : String) (expected : Option (String × ℕ)) : Action Unit := do
  let s ← disk
  if expected.any fun (id, revision) =>
      decide (s.runtime.sessionId ≠ some id ∨ s.runtime.bindingRevision ≠ revision) then pure ()
  else saveRuntime { s.runtime with state := .suspended, observedSessionId := some session }

/-- The owner binds the agent to the session that was observed. -/
def rebind (session : String) : Action Unit := do
  let s ← disk
  refuseIf (s.runtime.observedSessionId ≠ some session ∨ s.runtime.state ≠ .suspended)
    (.value "The requested session is not the suspended observed runtime session.")
  refuseIf (s.runtime.sessionId ≠ some session ∧ s.receipts.values.any fun value =>
      decide (value.state = .uncertain ∨ value.state = .adapterSubmitted))
    (.value "Resolve old-session direct receipts before changing the runtime binding.")
  saveRuntime
    { sessionId := some session, observedSessionId := none, state := .ready
      bindingRevision := s.runtime.bindingRevision + 1 }

/-- Cancels the messages that were not handed over. -/
def cancelStored (value : Receipt) : Action Unit :=
  if value.state = .nodeStored then do
    let _ ← receipt
      { id := value.id, state := .cancelled
        detail := some "The recipient stopped before runtime admission or tool read."
        sessionId := none }
    pure ()
  else pure ()

/-- Archives the directory of an agent that has ended and whose messages are all settled. -/
def retire (present : Bool) : Action Unit := do
  let s ← disk
  if s.archived = true then pure ()
  else do
    refuseIf (¬(s.runtime.state = .stopped ∨ s.runtime.state = .exited) ∨ present = true)
      (.value "An active or uncertain agent spool cannot be archived.")
    refuseIf (s.outbox.keys ≠ []) (.value "Unacknowledged agent outbox messages must be retained.")
    refuseIf (s.receipts.values.any fun value => decide ¬value.state.Settled)
      (.value "Unresolved agent delivery receipts must be retained.")
    refuseIf (s.inbox.keys.any fun identity => (s.receipts.lookup identity).isNone)
      (.value "An unacknowledged inbox item must be retained.")
    perform fun s => { s with archived := true }

/-- Stops the agent. -/
def stop : Action Unit := do
  let s ← disk
  each s.receipts.values cancelStored
  saveRuntime
    { sessionId := none, observedSessionId := none, state := .stopped, bindingRevision := 0 }

/-- The agent has ended. -/
def exited : Action Unit := do
  let s ← disk
  if s.runtime.state ≠ .stopped then saveRuntime { s.runtime with state := .exited } else pure ()

end Folder

end Ficc.Agents
