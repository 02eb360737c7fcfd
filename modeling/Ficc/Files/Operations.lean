import Ficc.Files.Node
import Ficc.Foundations.Transition

/-!
# A confirmed file operation

`submit`, `execute`, `poll` and `reconcile` of `files.py`, for one operation. Every execution reads
the record once and works on its copy, which it saves as a whole; a lock of the root orders the
executions. Each of them is cut where it waits: for the lock, and for the answer to a request.

The machine carries a request out at any time after it was sent, or never. It can be stopped
between any two durable steps, and other programs change the file system whenever they like.
-/

namespace Ficc.Files

open Execution (Identity)
open Durable (cut)

inductive ItemState
  | queued | dispatching | unknown | succeeded | failed
deriving DecidableEq

/-- What an item of the record keeps about its mutation. -/
structure Item where
  state : ItemState
  result : Option ActionKind
  error : Option Error
deriving DecidableEq

inductive OperationState
  | queued | unknown | succeeded | failed
deriving DecidableEq

/-- The part of the record that changes: its items by their identities, and its state. -/
structure Record where
  items : Identity → Item
  state : OperationState

def Record.set (value : Record) (id : Identity) (item : Item) : Record :=
  { value with items := Function.update value.items id item }

/-- The part of the record that a confirmation fixes. -/
structure Plan where
  root : Root
  action : ActionKind
  parent : Option Reference
  name : Option Name
  mode : Option ℕ
  entries : List (Identity × Option Reference)
  /-- The identities of the items are drawn at random. -/
  distinct : (entries.map Prod.fst).Nodup
  /-- `preview` refuses a root that is read-only. -/
  writable : root.readOnly = false

namespace Plan

variable (plan : Plan)

def ids : List Identity := plan.entries.map Prod.fst

/-- The request of an item. -/
def request (id : Identity) : Request :=
  { operationId := id, root := plan.root
    mutation :=
      { action := plan.action, entry := (plan.entries.lookup id).join, parent := plan.parent
        name := plan.name, mode := plan.mode } }

/-- `auth.record` and `check`. The root of the record says itself whether it is read-only. -/
def check (authority : Except Error Unit) : Except Error Unit := do
  authority
  raiseIf (plan.root.readOnly = true) (.failure "read_only" "This root is read-only." 403)

/-- The state of the record when all its items have been tried. -/
def conclusion (value : Record) : OperationState :=
  if plan.ids.all fun id => (value.items id).state = .succeeded then .succeeded
  else if plan.ids.any fun id => (value.items id).state = .unknown then .unknown else .failed

end Plan

/-- A request for an item. -/
structure Call where
  number : ℕ
  item : Identity
deriving DecidableEq

structure Reply where
  call : Call
  answer : Except Error Receipt

/-- Where an execution waits. -/
inductive Phase
  | waiting
  | ready (rest : List Identity)
  | sent (call : Call) (rest : List Identity)

/-- An execution with its copy of the record. -/
structure Task where
  value : Record
  phase : Phase

/-- The operation at the controller, the machine, and what is on its way between them. -/
structure System where
  record : Record
  tasks : Table ℕ Task
  /-- The execution that has the lock of the root. -/
  holder : Option ℕ
  /-- The number of requests sent so far. -/
  issued : ℕ
  requests : List Call
  replies : List Reply
  disk : Disk

/-- The operation is confirmed. -/
def System.initial (fs : FileSystem) : System :=
  { record := ⟨fun _ => ⟨.queued, none, none⟩, .queued⟩, tasks := ∅, holder := none, issued := 0
    requests := [], replies := [], disk := ⟨fs, ∅, []⟩ }

namespace System

variable (plan : Plan) (s : System)

/-- `save`, by an execution that goes on. -/
def store (n : ℕ) (task : Task) : System :=
  { s with record := task.value, tasks := s.tasks.insert n task }

/-- An execution reads the record. -/
def start (n : ℕ) : System :=
  if (s.tasks.lookup n).isSome then s
  else { s with tasks := s.tasks.insert n ⟨s.record, .waiting⟩ }

/-- An execution gets the lock. -/
def acquire (n : ℕ) : System :=
  match s.holder, s.tasks.lookup n with
  | none, some ⟨value, .waiting⟩ =>
    { s with holder := some n, tasks := s.tasks.insert n ⟨value, .ready plan.ids⟩ }
  | _, _ => s

/-- The error of an item that could not be sent. A request of an earlier execution may have been
carried out when the item is `dispatching`. -/
def refused (item : Item) (error : Error) : Item :=
  { item with
    state := if item.state = .dispatching then .unknown else .failed
    error := some error }

/-- The next item, as far as its request. `sending` is what the transport checks before. -/
def dispatch (n : ℕ) (authority sending : Except Error Unit) : System :=
  match s.tasks.lookup n with
  | some ⟨value, .ready (id :: rest)⟩ =>
    let item := value.items id
    if item.state = .succeeded then { s with tasks := s.tasks.insert n ⟨value, .ready rest⟩ } else
    match plan.check authority with
    | .error e => s.store n ⟨value.set id (refused item e), .ready rest⟩
    | .ok () =>
      let item := { item with state := .dispatching }
      match sending with
      | .error e => s.store n ⟨value.set id (refused item e), .ready rest⟩
      | .ok () =>
        let call : Call := ⟨s.issued, id⟩
        { s.store n ⟨value.set id item, .sent call rest⟩ with
          issued := s.issued + 1, requests := call :: s.requests }
  | _ => s

/-- The state of a receipt, as an item keeps it. -/
def received : ReceiptState → ItemState
  | .unknown => .unknown
  | .succeeded => .succeeded

/-- What the answer to its request makes of an item. -/
def settled (item : Item) : Except Error Receipt → Item
  | .ok receipt => { item with state := received receipt.state, result := receipt.result }
  | .error e => refused item e

/-- An execution has the answer to its request. -/
def conclude (n : ℕ) (task : Task) (call : Call) (rest : List Identity)
    (answer : Except Error Receipt) : System :=
  let item := task.value.items call.item
  s.store n ⟨task.value.set call.item (settled item answer), .ready rest⟩

/-- The answer of the machine arrives. -/
def answer (n : ℕ) : System :=
  match s.tasks.lookup n with
  | some ⟨value, .sent call rest⟩ =>
    match s.replies.find? fun reply => reply.call = call with
    | some reply => s.conclude n ⟨value, .sent call rest⟩ call rest reply.answer
    | none => s
  | _ => s

/-- The answer is lost or late, or is not accepted. -/
def fail (n : ℕ) (error : Error) : System :=
  match s.tasks.lookup n with
  | some ⟨value, .sent call rest⟩ => s.conclude n ⟨value, .sent call rest⟩ call rest (.error error)
  | _ => s

/-- All items have been tried. -/
def finish (n : ℕ) : System :=
  match s.tasks.lookup n with
  | some ⟨value, .ready []⟩ =>
    { s with record := { value with state := plan.conclusion value }
             tasks := s.tasks.erase n, holder := none }
  | _ => s

/-- An execution is cancelled. -/
def cancel (n : ℕ) : System :=
  { s with tasks := s.tasks.erase n, holder := if s.holder = some n then none else s.holder }

/-- The machine carries a request out, as far as `stop`. -/
def execute (number : ℕ) (env : Environment) (stop : Option ℕ) : System :=
  match s.requests.find? fun call => call.number = number with
  | none => s
  | some call =>
    let program := mutate env (plan.request call.item)
    { s with
      requests := s.requests.filter fun other => other ≠ call
      replies := if stop = none then ⟨call, (program s.disk).result⟩ :: s.replies else s.replies
      disk := cut program s.disk stop }

/-- A request or its reply is lost. -/
def drop (number : ℕ) : System :=
  { s with
    requests := s.requests.filter fun call => call.number ≠ number
    replies := s.replies.filter fun reply => reply.call.number ≠ number }

/-- Another program changes the file system. -/
def disturb (f : FileSystem → FileSystem) : System := { s with disk := onFiles f s.disk }

/-- The controller stops and starts again. -/
def restart : System := { s with tasks := ∅, holder := none }

end System

inductive Action
  | start (n : ℕ)
  | acquire (n : ℕ)
  | dispatch (n : ℕ) (authority sending : Except Error Unit)
  | answer (n : ℕ)
  | fail (n : ℕ) (error : Error)
  | finish (n : ℕ)
  | cancel (n : ℕ)
  | execute (number : ℕ) (env : Environment) (stop : Option ℕ)
  | drop (number : ℕ)
  | disturb (f : FileSystem → FileSystem)
  | restart

def step (plan : Plan) (s : System) : Action → System
  | .start n => s.start n
  | .acquire n => s.acquire plan n
  | .dispatch n authority sending => s.dispatch plan n authority sending
  | .answer n => s.answer n
  | .fail n error => s.fail n error
  | .finish n => s.finish plan n
  | .cancel n => s.cancel n
  | .execute number env stop => s.execute plan number env stop
  | .drop number => s.drop number
  | .disturb f => s.disturb f
  | .restart => s.restart

/-! ### Reconciliation -/

/-- The steps of an execution for one item, when every check passes, no reply is lost, and the
machine carries out what it is asked. -/
def attempt (n : ℕ) (env : Identity → Environment) (id : Identity) (s : System) : List Action :=
  if (s.record.items id).state = .succeeded then [.dispatch n (.ok ()) (.ok ())]
  else [.dispatch n (.ok ()) (.ok ()), .execute s.issued (env id) none, .answer n]

/-- The steps for the items that are left. -/
def attempts (plan : Plan) (n : ℕ) (env : Identity → Environment) :
    List Identity → System → List Action
  | [], _ => []
  | id :: rest, s =>
    attempt n env id s ++ attempts plan n env rest (run (step plan) s (attempt n env id s))

/-- `reconcile`, from a state in which nothing is executed. -/
def reconciliation (plan : Plan) (n : ℕ) (env : Identity → Environment) (s : System) :
    List Action :=
  let reading : List Action := [.start n, .acquire n]
  reading ++ attempts plan n env plan.ids (run (step plan) s reading) ++ [.finish n]

end Ficc.Files
