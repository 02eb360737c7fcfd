import Ficc.Agents.Spool

/-!
# Agents on the controller

The records that the controller keeps of one agent and of the bus: the messages with the deliveries
to their recipients, and the record of the agent with what is to be acknowledged to its node. An
exchange reads the record of the agent into memory, writes that the chosen deliveries are uncertain,
asks the node, and writes what the node has replied.

What is checked about credentials, recipients, capacity and bodies before a message is stored is an
input, as are random identities and the clock.
-/

namespace Ficc.Agents

open Execution (Identity Digest Hash)
open Durable (perform disk check refuseIf demand each attempt)

/-- Where a message comes from, with the key that its sender has given to it. -/
inductive Origin
  | agent (agentId key : Identity)
  | operator (actor key : String)
deriving DecidableEq

/-- What a message says. -/
structure Intent where
  runId : Identity
  type : String
  body : String
  recipientIds : List Identity
  replyTo : Option Identity
  delivery : Method
deriving DecidableEq

/-- A message on the bus. The two columns `actor` and `key` are the origin. -/
structure Message where
  id : Identity
  origin : Origin
  digest : Digest
  senderId : String
  intent : Intent
deriving DecidableEq

/-- A delivery of a message, as the host has it. -/
structure Recipient where
  id : Identity
  messageId : Identity
  agentId : Identity
  method : Method
  state : State
  detail : Option String
deriving DecidableEq

inductive RunState
  | opened | closed
deriving DecidableEq

/-- The record of the agent. -/
structure Agent where
  outboxAcks : List Acknowledgement
  outboxRejections : List Refusal
  state : RuntimeState
deriving DecidableEq

/-- What the host has decided about a message, for ever. -/
inductive Decision
  | stored (origin : Origin) (digest : Digest)
  | rejected (rejection : Rejection)
deriving DecidableEq

/-- The records of the controller. The log is not read by any action. -/
structure Host where
  messages : Table Identity Message
  deliveries : Table Identity Recipient
  agent : Agent
  /-- The run of the agent, unless it is archived. -/
  run : Option RunState
  /-- The messages that were ever stored, and the rejections that the record of the agent has ever
  held. -/
  log : List Decision
deriving DecidableEq

/-- The rejections among acknowledgements. -/
def rejections (acks : List Acknowledgement) : List Decision :=
  acks.filterMap fun
    | .stored _ => none
    | .rejected rejection => some (.rejected rejection)

/-- What the checks before a message is stored say, and the random identities. -/
structure Checks where
  /-- What the check of the run and its credential raises. -/
  grant : Option Error
  /-- The message has the wrong fields. -/
  malformed : Bool
  /-- What the checks of the recipients, the capacity and the body raise. -/
  admission : Option Error
  messageId : Identity
  deliveryIds : List Identity
  /-- What the audit entry after the transaction raises. -/
  audit : Option Error
  now : ℚ
deriving DecidableEq

namespace Host

/-- An action of the controller. -/
abbrev Action (α : Type) : Type := Durable Host Error α

/-- Raises the error, if there is one. -/
def raising (error : Option Error) : Action Unit := check (error.elim (.ok ()) .error)

/-- Writes the record of the agent. -/
def saveAgent (agent : Agent) : Action Unit := perform fun s =>
  { s with agent, log := s.log ++ rejections agent.outboxAcks }

/-- Writes a delivery. -/
def saveDelivery (value : Recipient) : Action Unit := perform fun s =>
  { s with deliveries := s.deliveries.insert value.id value }

/-- The run is there and the credential may use it. -/
def checkRun (checks : Checks) : Action RunState := do
  let s ← disk
  let run ← demand s.run (.failure "not_found" "The agent or bus record was not found." 404)
  raising checks.grant
  pure run

/-- The message that has the origin. -/
def find (s : Host) (origin : Origin) : Option Message :=
  s.messages.values.find? fun message => message.origin = origin

/-- Stores a message and its deliveries in one transaction. -/
def transact (message : Message) (checks : Checks) : Action Unit := perform fun s =>
  { s with
    messages := s.messages.insert message.id message
    deliveries := (message.intent.recipientIds.zip checks.deliveryIds).foldl
      (fun deliveries (agentId, id) => deliveries.insert id
        { id, messageId := message.id, agentId, method := message.intent.delivery
          state := .hostStored, detail := none }) s.deliveries
    log := s.log ++ [.stored message.origin message.digest] }

/-- Stores a new message. -/
def publish (run : RunState) (message : Message) (checks : Checks) : Action Message := do
  refuseIf (run ≠ .opened) (.failure "run_closed" "The selected bus run is closed." 409)
  raising checks.admission
  transact message checks
  raising checks.audit
  pure message

/-- Stores a message on the bus, or finds the one that was stored before. -/
def send [Hash Intent] (origin : Origin) (senderId : String) (intent : Intent) (checks : Checks) :
    Action Message := do
  let run ← checkRun checks
  let s ← disk
  let message : Message :=
    { id := checks.messageId, origin, digest := Hash.digest intent, senderId, intent }
  match s.find origin with
  | some previous => do
    refuseIf (previous.digest ≠ message.digest)
      (.failure "idempotency_conflict" "The request key already identifies different content." 409)
    pure previous
  | none => publish run message checks

/-- What a message of the agent says. -/
def intentOf (spec : Spec) (item : Item) : Intent :=
  { runId := spec.runId, type := item.type, body := item.body, recipientIds := item.recipientIds
    replyTo := item.replyTo, delivery := item.delivery }

/-- Stores a message of the agent. -/
def accept [Hash Intent] (spec : Spec) (senderId : String) (item : Item) (checks : Checks) :
    Action Message := do
  let _ ← checkRun checks
  refuseIf (checks.malformed = true ∨ item.id ≠ item.idempotencyKey)
    (.failure "invalid_message" "The agent outbox message failed validation." 422)
  send (.agent spec.agentId item.idempotencyKey) senderId (intentOf spec item) checks

/-- The codes of refusals for ever. -/
def PERMANENT : List String :=
  ["invalid_message", "invalid_reply", "invalid_recipient", "invalid_recipients",
    "direct_unsupported", "run_closed", "idempotency_conflict"]

/-- The record of the agent with another refusal. The last sixteen are kept. -/
def refused [Hash Item] (agent : Agent) (item : Item) (code message : String) (now : ℚ) : Agent :=
  let previous := agent.outboxRejections
  let refusal := (previous.find? fun refusal => refusal.id = item.id).getD
    { id := item.id, code, detail := String.ofList (message.toList.take 240), rejectedAt := now }
  let others := previous.filter fun refusal => refusal.id ≠ item.id
  { agent with
    outboxRejections := others.drop (others.length - 15) ++ [refusal]
    outboxAcks := agent.outboxAcks ++
      [.rejected { refusal with sha256 := Hash.digest item }] }

/-- Writes what became of a message of the agent. A passing failure leaves it for later, and any
other exception ends the collection. -/
def settle [Hash Item] (agent : Agent) (item : Item) (now : ℚ) :
    Except Error Message → Action (Agent × Option Error)
  | .ok _ => do
    let agent := { agent with outboxAcks := agent.outboxAcks ++ [.stored item.id] }
    saveAgent agent
    pure (agent, none)
  | .error (.failure code message _) =>
    if code ∈ PERMANENT then do
      let agent := refused agent item code message now
      saveAgent agent
      pure (agent, none)
    else pure (agent, none)
  | .error error => pure (agent, some error)

/-- Stores the messages of the agent one after the other. -/
def collectFrom [Hash Item] [Hash Intent] (spec : Spec) (senderId : String) (agent : Agent) :
    List (Item × Checks) → Action (Agent × Option Error)
  | [] => pure (agent, none)
  | (item, checks) :: rest => do
    let result ← attempt (accept spec senderId item checks)
    let (agent, error) ← settle agent item checks.now result
    if error.isSome then pure (agent, error) else collectFrom spec senderId agent rest

/-- Stores the messages of the agent and writes what is to be acknowledged. The record is written
at the end unless the database has failed. -/
def collect [Hash Item] [Hash Intent] (spec : Spec) (senderId : String) (agent : Agent)
    (outbox : List (Item × Checks)) : Action Unit := do
  let (agent, error) ← collectFrom spec senderId { agent with outboxAcks := [] } outbox
  if error = some .integrity then check (.error .integrity) else saveAgent agent

/-- The delivery as it goes to the node. -/
def deliveryPayload (s : Host) (spec : Spec) (value : Recipient) (expires : ℚ) :
    Option Delivery :=
  (s.messages.lookup value.messageId).map fun message =>
    { id := value.id, runId := spec.runId, messageId := message.id, agentId := value.agentId
      senderId := message.senderId, type := message.intent.type, body := message.intent.body
      method := value.method, authorizationExpiresAt := expires }

/-- A delivery that is chosen for an exchange, and until when it is authorized. -/
structure Choice where
  id : Identity
  expires : Option ℚ
deriving DecidableEq

/-- Cancels a delivery that is no longer authorized. -/
def cancelExpired (value : Recipient) : Action (Option Delivery) := do
  saveDelivery
    { value with
      state := .cancelled
      detail := some
        "The originating delivery credential expired or was revoked before dispatch." }
  pure none

/-- The payload of a chosen delivery, which is cancelled when it is no longer authorized. -/
def choose (spec : Spec) (choice : Choice) : Action (Option Delivery) := do
  let s ← disk
  match s.deliveries.lookup choice.id with
  | none => pure none
  | some value =>
    if value.agentId ≠ spec.agentId ∨ value.state ≠ .hostStored then pure none
    else
      match choice.expires.bind (s.deliveryPayload spec value) with
      | some payload => pure (some payload)
      | none => cancelExpired value

/-- The payloads of the chosen deliveries. -/
def chooseAll (spec : Spec) : List Choice → Action (List Delivery)
  | [] => pure []
  | choice :: rest => do
    let first ← choose spec choice
    let others ← chooseAll spec rest
    pure (first.toList ++ others)

/-- Changes the state of a delivery. -/
def mark (state : State) (detail : String) (identity : Identity) : Action Unit := do
  let s ← disk
  match s.deliveries.lookup identity with
  | none => pure ()
  | some value => saveDelivery { value with state, detail := some detail }

/-- Begins an exchange. The deliveries that are sent are uncertain from now on. -/
def beginExchange (spec : Spec) (choices : List Choice) (receiptIds : List Identity) :
    Action Request := do
  let deliveries ← chooseAll spec (choices.take 8)
  let s ← disk
  each (deliveries.map Delivery.id)
    (mark .hostUncertain "Dispatch started; node storage is not yet confirmed.")
  pure
    { deliveries, outboxAcks := s.agent.outboxAcks.take 8
      receiptIds := (receiptIds.filter fun identity => (s.deliveries.lookup identity).any fun value =>
        decide (value.agentId = spec.agentId ∧ ¬value.state.Settled ∧
          value.state ≠ .hostStored)).take 8 }

/-- The states that a node reports. -/
def STATES : List State :=
  [.nodeStored, .adapterSubmitted, .sessionIncluded, .toolRead, .uncertain, .failed, .cancelled,
    .missing]

/-- The state of a delivery after a receipt. -/
def receivedState (saved : Recipient) (receipt : Receipt) : Except Error State :=
  if receipt.state = .missing then do
    raiseIf (saved.state ≠ .hostUncertain)
      (.failure "invalid_agent_response" "A previously confirmed node delivery is missing." 502)
    .ok .hostStored
  else .ok receipt.state

/-- Writes a receipt of the node, unless the delivery is settled. -/
def applyReceipt (spec : Spec) (receiptIds : List Identity) (receipt : Receipt) : Action Unit := do
  refuseIf (receipt.id ∉ receiptIds ∨ receipt.state ∉ STATES)
    (.failure "invalid_agent_response" "The node returned an unrequested delivery receipt." 502)
  let s ← disk
  let saved ← demand (s.deliveries.lookup receipt.id)
    (.failure "not_found" "The agent or bus record was not found." 404)
  refuseIf (saved.agentId ≠ spec.agentId)
    (.failure "invalid_agent_response" "The delivery receipt names a different agent." 502)
  if saved.state.Settled then pure ()
  else do
    let state ← check (receivedState saved receipt)
    saveDelivery { saved with state, detail := receipt.detail }

/-- An exchange that the controller is waiting for: the record of the agent as it was read, and what
was asked. -/
structure Waiting where
  agent : Agent
  request : Request

/-- Goes through the receipts of the node. -/
def applyReceipts (spec : Spec) (waiting : Waiting) (reply : Reply) : Action Unit := do
  each (waiting.request.deliveries.map Delivery.id)
    (mark .nodeStored "The node confirmed durable inbox storage.")
  refuseIf (8 < reply.receipts.length ∨ 8 < reply.outbox.length)
    (.failure "invalid_agent_response" "The exchange response exceeds its record limit." 502)
  each reply.receipts (applyReceipt spec waiting.request.receiptIds)

/-- Ends an exchange. An invalid reply is written to the record of the agent as it was read. -/
def endExchange [Hash Item] [Hash Intent] (spec : Spec) (senderId : String) (waiting : Waiting)
    (reply : Reply) (checks : Identity → Checks) : Action Unit := do
  let agent := { waiting.agent with state := reply.state }
  let result ← attempt (applyReceipts spec waiting reply)
  match result with
  | .ok _ => collect spec senderId agent (reply.outbox.map fun item => (item, checks item.id))
  | .error _ => saveAgent agent

/-- The runtime has ended. -/
def Closed (state : RuntimeState) : Prop := state = .stopped ∨ state = .exited

instance : DecidablePred Closed := fun _ => inferInstanceAs (Decidable (_ ∨ _))

/-- Cancels the deliveries that were not sent to an agent that was stopped. -/
def cancelUnsubmitted (spec : Spec) : Action Unit := do
  let s ← disk
  each ((s.deliveries.values.filter fun value =>
      decide (value.agentId = spec.agentId ∧ value.state = .hostStored)).map Recipient.id)
    (mark .cancelled "The recipient was stopped before node admission.")

/-- Closes the run. -/
def close (spec : Spec) (checks : Checks) : Action Unit := do
  let _ ← checkRun checks
  let s ← disk
  refuseIf (¬Closed s.agent.state ∨ s.agent.outboxAcks ≠ [])
    (.failure "run_busy" "Stop all enrolled agents before closing this run." 409)
  refuseIf (s.deliveries.values.any fun value =>
      decide (value.agentId = spec.agentId ∧ ¬value.state.Settled))
    (.failure "run_busy" "Resolve all delivery outcomes before closing this run." 409)
  perform fun s => { s with run := some .closed }

end Host

end Ficc.Agents
