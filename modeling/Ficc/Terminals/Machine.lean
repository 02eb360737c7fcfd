import Ficc.Errors
import Ficc.Foundations.Transition
import Ficc.Terminals.Node

/-!
# Terminals of the controller

The records of the terminals, the operations that await a machine, the attachments, and the
requests and replies on their way. Creation, stopping and reconciliation hold one lock until
their reply is there or lost; an attachment holds it only while it marks the record. A request
can be carried out after its operation has given up, but only once.

Each operation of the source is cut where it waits: `create` ends with the request that it
sends, and `concluded` is what it does with the reply.
-/

namespace Ficc.Terminals

inductive Mode
  | ephemeral | tmux
deriving DecidableEq, Repr

/-- The `state` of a terminal. -/
inductive State
  | new | unknown | connecting | attached | detached | exited | interrupted | stopped
deriving DecidableEq, Repr

/-- `TERMINAL`. -/
def terminal (state : State) : Bool := state ∈ [.exited, .interrupted, .stopped]

/-- A row of `terminals`, saved under its identity. -/
structure Record where
  nodeId : String
  mode : Mode
  cols : ℕ
  rows : ℕ
  actor : String
  key : String
  digest : String
  state : State
  error : Option (String × String)
deriving DecidableEq, Repr

/-- The request of a creation, with its fingerprint and the actor that sends it. -/
structure Asked where
  nodeId : String
  mode : Mode
  cols : ℕ
  rows : ℕ
  actor : String
  key : String
  digest : String
deriving DecidableEq, Repr

/-- What the checks of an operation say: the authority of the actor, the abilities of the
machine, and everything that `remote` checks before it sends. -/
structure Checks where
  authority : Except Error Unit
  supported : Bool
  sending : Except Error Unit

/-- Everything is allowed. -/
def Checks.pass : Checks := { authority := .ok (), supported := true, sending := .ok () }

/-- An operation that holds the lock and awaits a machine, with the record that it has read. -/
structure Pending where
  request : Request
  value : Record
deriving DecidableEq, Repr

/-- A task in `active`, with the record that it has read and the request that it awaits. -/
structure Attachment where
  value : Record
  request : Option Request
deriving DecidableEq, Repr

/-- A reply on its way: the answer of the machine, or the text of what it raised. -/
structure Reply where
  request : Request
  answer : Except String Answer
deriving DecidableEq

/-- The controller, the machines and what is on its way between them. -/
structure System where
  terminals : Table String Record
  /-- The operation that has the lock. -/
  holder : Option Pending
  active : Table String Attachment
  /-- The number of requests sent so far. -/
  issued : ℕ
  requests : List Request
  replies : List Reply
  nodes : String → Host

/-- Nothing has happened. -/
def System.initial : System :=
  { terminals := ∅, holder := none, active := ∅, issued := 0, requests := [], replies := []
    nodes := fun _ => .fresh }

/-- `save`. -/
def System.save (s : System) (id : String) (value : Record) : System :=
  { s with terminals := s.terminals.insert id value }

/-- The request of `remote`. -/
def System.request (s : System) (id : String) (value : Record) (action : Verb) : Request :=
  { number := s.issued, action, nodeId := value.nodeId, terminalId := id
    cols := if action = .create then some value.cols else none
    rows := if action = .create then some value.rows else none }

/-- A request leaves for its machine. -/
def System.send (s : System) (request : Request) : System :=
  { s with issued := s.issued + 1, requests := request :: s.requests }

/-- What `remote` makes of a reply. -/
def remote (answer : Except String Answer) : Except Error Answer :=
  match answer with
  | .ok answer => .ok answer
  | .error _ =>
    .error (.failure "terminal_refused" "The node refused the terminal operation." 409)

/-- The `error` of a record. -/
def described : Error → Option (String × String)
  | .failure code message _ => some (code, message)
  | _ => none

/-- The checks of a creation, up to the record that has the key already. -/
def System.admission (s : System) (asked : Asked) (checks : Checks) :
    Except Error (Option Record) := do
  checks.authority
  match s.terminals.values.find? fun value => value.actor = asked.actor ∧ value.key = asked.key with
  | some value =>
    raiseIf (value.digest ≠ asked.digest)
      (.failure "idempotency_conflict" "The terminal request key is already in use." 409)
    return some value
  | none =>
    let pending := s.terminals.values.filter fun value => !terminal value.state
    raiseIf (512 ≤ s.terminals.values.length ∨ 16 ≤ pending.length ∨
        4 ≤ (pending.filter fun value => value.nodeId = asked.nodeId).length)
      (.failure "capacity" "The terminal session limit was reached." 409)
    raiseIf (asked.mode = .tmux ∧ ¬checks.supported)
      (.failure "unsupported" "Persistent terminals are unavailable on this machine." 409)
    return none

/-- The record of a creation. -/
def Asked.record (asked : Asked) : Record :=
  { nodeId := asked.nodeId, mode := asked.mode, cols := asked.cols, rows := asked.rows
    actor := asked.actor, key := asked.key, digest := asked.digest, state := .new, error := none }

/-- `create`, as far as the request. The identity is drawn at random and is a new one. -/
def System.create (s : System) (id : String) (asked : Asked) (checks : Checks) : System :=
  if s.holder.isSome ∨ (s.terminals.lookup id).isSome then s else
  match s.admission asked checks with
  | .ok none =>
    let value := asked.record
    let s := s.save id value
    match value.mode, checks.sending with
    | .ephemeral, _ => s
    | .tmux, .error e => s.save id { value with state := .unknown, error := described e }
    | .tmux, .ok () =>
      let request := s.request id value .create
      { s.send request with holder := some { request, value } }
  | _ => s

/-- How an attachment ends. -/
inductive Outcome
  | interrupted | exited | detached
deriving DecidableEq, Repr

/-- The state that `cleanup` saves. -/
def Outcome.state (outcome : Outcome) (mode : Mode) : State :=
  match mode, outcome with
  | .tmux, _ => .detached
  | .ephemeral, .interrupted => .interrupted
  | .ephemeral, _ => .exited

/-- `cleanup` of an attachment. -/
def System.cleanup (s : System) (id : String) (outcome : Outcome) : System :=
  let s := { s with active := s.active.erase id }
  match s.terminals.lookup id with
  | none => s
  | some value =>
    if terminal value.state = false ∧ value.state ≠ .unknown then
      s.save id { value with state := outcome.state value.mode }
    else s

/-- `attachment`, as far as the request of `arguments`. -/
def System.attach (s : System) (id : String) (checks : Checks) : System :=
  if s.holder.isSome then s else
  match s.terminals.lookup id, checks.authority with
  | some value, .ok () =>
    -- "The terminal is attached or closed."
    if (s.active.lookup id).isSome ∨ terminal value.state then s else
    let value := { value with state := .connecting }
    let s := s.save id value
    match value.mode, checks.sending with
    | .ephemeral, _ => { s with active := s.active.insert id { value, request := none } }
    | .tmux, .error _ => s.cleanup id .interrupted
    | .tmux, .ok () =>
      let request := s.request id value .status
      { s.send request with
        active := s.active.insert id { value, request := some request } }
  | _, _ => s

/-- What `arguments` does with the result of its request. -/
def System.told (s : System) (id : String) (attachment : Attachment)
    (result : Except Error Answer) : System :=
  match result with
  | .ok .detached =>
    { s with active := s.active.insert id { attachment with request := none } }
  | .ok _ =>
    -- "The remote session no longer exists."
    (s.save id { attachment.value with state := .exited }).cleanup id .interrupted
  | .error _ => s.cleanup id .interrupted

/-- The terminal process of an attachment runs. -/
def System.opened (s : System) (id : String) : System :=
  match s.active.lookup id with
  | some { value, request := none } =>
    let value := { value with state := .attached }
    { s.save id value with active := s.active.insert id { value, request := none } }
  | _ => s

/-- An attachment ends. -/
def System.detach (s : System) (id : String) (outcome : Outcome) : System :=
  if (s.active.lookup id).isSome then s.cleanup id outcome else s

/-- `stop`, as far as the request. -/
def System.stop (s : System) (id : String) (checks : Checks) : System :=
  if s.holder.isSome then s else
  match s.terminals.lookup id, checks.authority with
  | some value, .ok () =>
    if value.state = .stopped then s else
    let value := { value with state := .unknown }
    -- The attachment is cancelled, and leaves an unknown record as it is.
    let s := (s.save id value).detach id .detached
    match value.mode, checks.sending with
    | .ephemeral, _ => s.save id { value with state := .stopped, error := none }
    | .tmux, .error e => s.save id { value with state := .unknown, error := described e }
    | .tmux, .ok () =>
      let request := s.request id value .stop
      { s.send request with holder := some { request, value } }
  | _, _ => s

/-- `reconcile`, as far as the request. -/
def System.reconcile (s : System) (id : String) (checks : Checks) : System :=
  if s.holder.isSome then s else
  match s.terminals.lookup id, checks.authority, checks.sending with
  | some value, .ok (), .ok () =>
    if value.mode ≠ .tmux ∨ value.state ≠ .unknown then s else
    let request := s.request id value .status
    { s.send request with holder := some { request, value } }
  | _, _, _ => s

/-- What the operation that has the lock does with the result of its request. -/
def System.concluded (s : System) (pending : Pending) (result : Except Error Answer) : System :=
  let id := pending.request.terminalId
  let value := pending.value
  let s := { s with holder := none }
  match pending.request.action, result with
  | .create, .ok answer =>
    s.save id { value with state := if answer = .detached then .detached else .unknown }
  | .create, .error e => s.save id { value with state := .unknown, error := described e }
  | .stop, .ok _ => s.save id { value with state := .stopped, error := none }
  | .stop, .error e => s.save id { value with state := .unknown, error := described e }
  | .status, .ok answer =>
    s.save id { value with
      state := if answer = .detached then .detached else .exited
      error := none }
  | .status, .error _ => s

/-- The operation that has the lock is cancelled while it awaits the machine. -/
def System.cancelled (s : System) (pending : Pending) : System :=
  let s := { s with holder := none }
  match pending.request.action with
  | .create => s.save pending.request.terminalId { pending.value with state := .unknown }
  | _ => s

/-- A result reaches the attachment that awaits the request, if one does. -/
def System.resumeAttachment (s : System) (request : Request) (result : Except Error Answer) :
    System :=
  match s.active.lookup request.terminalId with
  | some attachment =>
    if attachment.request = some request then s.told request.terminalId attachment result else s
  | none => s

/-- A result reaches whoever awaits the request, if anyone does. -/
def System.resume (s : System) (request : Request) (result : Except Error Answer) : System :=
  match s.holder with
  | some pending =>
    if pending.request = request then s.concluded pending result
    else s.resumeAttachment request result
  | none => s.resumeAttachment request result

/-- What `__init__` saves in place of a record. -/
def Record.restarted (value : Record) : Record :=
  if terminal value.state = false ∧ ¬(value.mode = .tmux ∧ value.state = .unknown) then
    { value with state := if value.mode = .ephemeral then .interrupted else .detached }
  else value

/-- `__init__` of a new controller: no operation awaits anything any more. -/
def System.restart (s : System) : System :=
  { s with
    holder := none
    active := ∅
    replies := []
    terminals := s.terminals.mapRows Record.restarted }

/-- A machine carries a request out. -/
def System.execute (s : System) (request : Request) (tmux : Tmux) : System :=
  if request ∈ s.requests then
    let (host, answer) := dispatch (s.nodes request.nodeId) request tmux
    { s with
      requests := s.requests.erase request
      replies := { request, answer } :: s.replies
      nodes := Function.update s.nodes request.nodeId host }
  else s

/-- Everything that can happen. -/
inductive Action
  | create (id : String) (asked : Asked) (checks : Checks)
  | attach (id : String) (checks : Checks)
  /-- The terminal process of an attachment starts. -/
  | opened (id : String)
  | detach (id : String) (outcome : Outcome)
  | stop (id : String) (checks : Checks)
  | reconcile (id : String) (checks : Checks)
  /-- A reply reaches the controller. -/
  | answer (reply : Reply)
  /-- The wait for a reply fails: it is lost, late or invalid. -/
  | fail (request : Request) (e : Error)
  | cancel
  | execute (request : Request) (tmux : Tmux)
  /-- A request is lost before it is carried out. -/
  | drop (request : Request)
  /-- A session ends by itself. -/
  | exit (nodeId id : String)
  | reboot (nodeId : String) (bootId : ℕ)
  | restart

/-- One event. -/
def step (s : System) : Action → System
  | .create id asked checks => s.create id asked checks
  | .attach id checks => s.attach id checks
  | .opened id => s.opened id
  | .detach id outcome => s.detach id outcome
  | .stop id checks => s.stop id checks
  | .reconcile id checks => s.reconcile id checks
  | .answer reply =>
    if reply ∈ s.replies then
      { s with replies := s.replies.erase reply }.resume reply.request (remote reply.answer)
    else s
  | .fail request e => s.resume request (.error e)
  | .cancel =>
    match s.holder with
    | some pending => s.cancelled pending
    | none => s
  | .execute request tmux => s.execute request tmux
  | .drop request => { s with requests := s.requests.erase request }
  | .exit nodeId id =>
    { s with nodes := Function.update s.nodes nodeId ((s.nodes nodeId).endSession id) }
  | .reboot nodeId bootId =>
    { s with nodes := Function.update s.nodes nodeId ((s.nodes nodeId).reboot bootId) }
  | .restart => s.restart

end Ficc.Terminals
