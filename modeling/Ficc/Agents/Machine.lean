import Ficc.Agents.Host
import Ficc.Foundations.Transition

/-!
# An agent and the controller

The controller, the directory of one agent on its node, and the adapter that hands messages to the
runtime, with the requests, replies and messages that are under way between them. A request may be
performed late or again, and a reply or a message may be lost. Every action may be stopped after any
of its durable steps. The other agents and the operators only store messages on the bus.

The controller waits for one exchange at a time, under the lock of the agent.
-/

namespace Ficc.Agents

open Execution (Identity Digest Hash)
open Durable

/-- The state of all parties, and what is under way. -/
structure System where
  folder : Folder
  host : Host
  /-- The number of the exchange that the controller waits for, in its memory. -/
  waiting : Option (ℕ × Host.Waiting)
  exchanges : ℕ
  requests : List (ℕ × Request)
  replies : List (ℕ × Reply)
  /-- The messages that the adapter has, but not the runtime. -/
  offered : List Delivery
  /-- The messages that were handed to the runtime. -/
  handed : List Identity
  /-- The messages that the tool has returned. -/
  shown : List Identity

/-- What a party does. -/
inductive Event
  | toolSend (request : Item) (valid : Bool)
  | toolRead (identity : Identity)
  /-- The controller begins an exchange. -/
  | beginExchange (choices : List Host.Choice) (receiptIds : List Identity)
  /-- The node performs a request. -/
  | exchange (number : ℕ) (present : Bool)
  /-- The controller gets the reply that it waits for. -/
  | endExchange (checks : Identity → Checks)
  /-- The controller gives up. -/
  | abandon
  | restart
  /-- The launch of the agent writes its record for the last time. -/
  | launched
  | next (session : Option String) (now : ℚ)
  | handOver (identity : Identity)
  | crashAdapter
  | adapterReceipt (identity : Identity) (session : Option String) (state : State) (detail : String)
  | register (session : String)
  | suspend (session : String) (expected : Option (String × ℕ))
  | rebind (session : String)
  | stop
  | exited
  | retire (present : Bool)
  | cancelUnsubmitted
  /-- An operator or another agent stores a message. -/
  | send (origin : Origin) (senderId : String) (intent : Intent) (checks : Checks)
  | close (checks : Checks)
  /-- The controller deletes the records of an archived run. -/
  | archive

/-- What a party does, and the number of durable steps after which it is stopped. -/
structure Step where
  event : Event
  stopped : Option ℕ

namespace System

/-- What an action returns when it is not stopped. -/
def returned {α σ : Type} (action : Durable σ Error α) (s : σ) (stopped : Option ℕ) : Option α :=
  if stopped = none then (action s).result.toOption else none

/-- An action in the directory of the agent. -/
def onNode {α : Type} (s : System) (action : Folder.Action α) (stopped : Option ℕ) : System :=
  { s with folder := cut (Folder.locked action) s.folder stopped }

/-- An action of the controller. -/
def onHost {α : Type} (s : System) (action : Host.Action α) (stopped : Option ℕ) : System :=
  { s with host := cut action s.host stopped }

/-- Random identities are not in use, and are drawn only once. -/
def Fresh (host : Host) (identities : List Identity) : Prop :=
  identities.Nodup ∧ ∀ identity ∈ identities,
    host.messages.lookup identity = none ∧ host.deliveries.lookup identity = none

instance (host : Host) (identities : List Identity) : Decidable (Fresh host identities) :=
  inferInstanceAs (Decidable (_ ∧ _))

/-- The identities that storing a message may draw. -/
def drawn (checks : Checks) : List Identity := checks.messageId :: checks.deliveryIds

/-- The records of the run can be deleted. -/
def Archivable (spec : Spec) (s : System) : Prop :=
  s.waiting.isNone = true ∧ s.folder.archived = true ∧ s.host.run = some .closed ∧
    Host.Closed s.host.agent.state ∧ s.host.agent.outboxAcks = [] ∧
      ∀ value ∈ s.host.deliveries.values, value.agentId = spec.agentId → value.state.Settled

instance (spec : Spec) : DecidablePred (Archivable spec) := fun _ =>
  inferInstanceAs (Decidable (_ ∧ _))

/-- The records without those of the run. -/
def archived (spec : Spec) (host : Host) : Host :=
  { host with
    messages := host.messages.discard fun _ message => decide (message.intent.runId = spec.runId)
    deliveries := host.deliveries.discard fun _ value => decide (value.agentId = spec.agentId)
    run := none }

/-- The controller begins an exchange and sends the request. -/
def begun (spec : Spec) (s : System) (choices : List Host.Choice) (receiptIds : List Identity)
    (stopped : Option ℕ) : System :=
  let action := Host.beginExchange spec choices receiptIds
  let next := s.onHost action stopped
  match returned action s.host stopped with
  | none => next
  | some request =>
    { next with
      waiting := some (s.exchanges, ⟨s.host.agent, request⟩), exchanges := s.exchanges + 1
      requests := (s.exchanges, request) :: s.requests }

/-- The node performs a request and replies. -/
def exchanged [Hash Item] (spec : Spec) (s : System) (number : ℕ) (request : Request)
    (present : Bool) (stopped : Option ℕ) : System :=
  let action := Folder.exchange spec request present
  let next := s.onNode action stopped
  match returned (Folder.locked action) s.folder stopped with
  | none => next
  | some reply => { next with replies := (number, reply) :: s.replies }

/-- The message comes from an operator or another agent. -/
def Foreign (spec : Spec) : Origin → Prop
  | .agent agentId _ => agentId ≠ spec.agentId
  | .operator _ _ => True

instance (spec : Spec) : DecidablePred (Foreign spec)
  | .agent _ _ => inferInstanceAs (Decidable (_ ≠ _))
  | .operator _ _ => inferInstanceAs (Decidable True)

/-- The record of the agent after a restart of the controller. -/
def restarted (agent : Agent) : Agent :=
  if Host.Closed agent.state then agent else { agent with state := .unknown }

/-- What happens at a step. -/
def step [Hash Item] [Hash Intent] (spec : Spec) (s : System) (act : Step) : System :=
  match act.event with
  | .toolSend request valid => s.onNode (Folder.send request valid) act.stopped
  | .toolRead identity =>
    { s.onNode (Folder.read identity) act.stopped with
      shown := s.shown ++
        ((returned (Folder.locked (Folder.read identity)) s.folder act.stopped).map
          Delivery.id).toList }
  | .beginExchange choices receiptIds =>
    if s.waiting.isNone ∧ s.host.run.isSome then s.begun spec choices receiptIds act.stopped else s
  | .exchange number present =>
    match s.requests.lookup number with
    | none => s
    | some request => s.exchanged spec number request present act.stopped
  | .endExchange checks =>
    match s.waiting with
    | none => s
    | some (number, waiting) =>
      match s.replies.lookup number with
      | none => s
      | some reply =>
        if Fresh s.host (reply.outbox.flatMap fun item => drawn (checks item.id)) then
          { s.onHost (Host.endExchange spec spec.agentId.toHex waiting reply checks) act.stopped with
            waiting := none }
        else s
  | .abandon =>
    match s.waiting with
    | none => s
    | some (_, waiting) => { s.onHost (Host.saveAgent waiting.agent) act.stopped with waiting := none }
  | .restart =>
    if s.host.run.isSome then
      { s.onHost (Host.saveAgent (restarted s.host.agent)) act.stopped with waiting := none }
    else { s with waiting := none }
  | .launched =>
    if s.host.run.isSome then
      s.onHost (Host.saveAgent { s.host.agent with outboxAcks := [], outboxRejections := [] })
        act.stopped
    else s
  | .next session now =>
    { s.onNode (Folder.next spec session now) act.stopped with
      offered := s.offered ++
        (returned (Folder.locked (Folder.next spec session now)) s.folder act.stopped).getD [] }
  | .handOver identity =>
    if s.offered.any fun item => item.id = identity then
      { s with
        offered := s.offered.eraseP fun item => item.id = identity
        handed := s.handed ++ [identity] }
    else s
  | .crashAdapter => { s with offered := [] }
  | .adapterReceipt identity session state detail =>
    s.onNode (Folder.adapterReceipt identity session state detail) act.stopped
  | .register session => s.onNode (Folder.register session) act.stopped
  | .suspend session expected => s.onNode (Folder.suspend session expected) act.stopped
  | .rebind session => s.onNode (Folder.rebind session) act.stopped
  | .stop => s.onNode Folder.stop act.stopped
  | .exited => s.onNode Folder.exited act.stopped
  | .retire present => s.onNode (Folder.retire present) act.stopped
  | .cancelUnsubmitted =>
    if s.waiting.isNone then s.onHost (Host.cancelUnsubmitted spec) act.stopped else s
  | .send origin senderId intent checks =>
    if Fresh s.host (drawn checks) ∧ Foreign spec origin then
      s.onHost (Host.send origin senderId intent checks) act.stopped
    else s
  | .close checks => s.onHost (Host.close spec checks) act.stopped
  | .archive => if Archivable spec s then { s with host := archived spec s.host } else s

/-- An agent that was just launched in an open run. -/
def launch (runtime : Runtime) : System :=
  { folder :=
      { inbox := ∅, receipts := ∅, outbox := ∅, sent := ∅, rejected := ∅, rejections := ∅, runtime
        archived := false }
    host :=
      { messages := ∅, deliveries := ∅, agent := ⟨[], [], .starting⟩, run := some .opened
        log := [] }
    waiting := none, exchanges := 0, requests := [], replies := [], offered := [], handed := []
    shown := [] }

section Lemmas

variable {spec : Spec}

theorem cut_locked_of_archived {α : Type} {action : Folder.Action α} {folder : Folder}
    (h : folder.archived = true) (stopped : Option ℕ) :
    cut (Folder.locked action) folder stopped = folder := by
  cases stopped <;>
    simp [cut, Folder.locked, disk, refuseIf, check, raiseIf, h, bind, followedBy]

theorem returned_eq_some {α σ : Type} {action : Durable σ Error α} {s : σ} {stopped : Option ℕ}
    {a : α} (h : returned action s stopped = some a) :
    stopped = none ∧ (action s).result = .ok a := by
  unfold returned at h
  split_ifs at h with hstopped
  cases hresult : (action s).result with
  | error error => rw [hresult] at h; cases h
  | ok value =>
    rw [hresult] at h
    exact ⟨hstopped, congrArg Except.ok (Option.some.inj h)⟩

theorem mem_of_lookup {β : Type} {list : List (ℕ × β)} {number : ℕ} {value : β}
    (h : list.lookup number = some value) : (number, value) ∈ list := by
  obtain ⟨front, back, rfl, -⟩ := List.lookup_eq_some_iff.mp h
  simp

theorem folder_begun (s : System) (choices : List Host.Choice) (receiptIds : List Identity)
    (stopped : Option ℕ) : (s.begun spec choices receiptIds stopped).folder = s.folder := by
  unfold System.begun
  dsimp only
  split <;> rfl

theorem folder_exchanged [Hash Item] (s : System) (number : ℕ) (request : Request) (present : Bool)
    (stopped : Option ℕ) : (s.exchanged spec number request present stopped).folder =
      cut (Folder.locked (Folder.exchange spec request present)) s.folder stopped := by
  unfold System.exchanged
  dsimp only
  split <;> rfl

end Lemmas

end System

end Ficc.Agents
