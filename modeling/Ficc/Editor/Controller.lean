import Ficc.Editor.Publication
import Ficc.Foundations.Transition

/-!
# The controller's side of an edit

`module_editor_service.py` keeps an item for each edited file: its state, and whether the node
retains copies for it. An item is saved as unknown and retained before the request is sent, and what
the node replies is taken over. An error tells the controller that nothing is retained when its code
is one of those that the node raises before it journals anything.

A call can be refused before it is sent, its reply can be lost, and the access of the caller is
checked again after the reply: first by the transport and then by the service, which marks its error
as one after dispatch. The node may serve a request whose reply was lost at any later time, once.
-/

namespace Ficc.Editor

open Durable

/-! ### Items -/

inductive ItemState
  | pending | unknown | succeeded | failed | conflict
deriving DecidableEq

structure Item where
  state : ItemState
  retained : Bool
  resolved : Bool
deriving DecidableEq

def SaveState.item : SaveState → ItemState
  | .preparing => .unknown
  | .unknown => .unknown
  | .succeeded => .succeeded
  | .failed => .failed
  | .conflict => .conflict

/-- `apply` -/
def Receipt.item (receipt : Receipt) : Item :=
  ⟨receipt.state.item, receipt.retained, receipt.resolved⟩

/-- The codes after which nothing is retained. -/
def refusals : List String :=
  ["stale_entry", "editor_conflict", "editor_metadata", "editor_capacity", "editor_text",
    "editor_type", "editor_revision", "editor_changed", "capacity", "read_only"]

def Refuses : Error → Prop
  | .failure code _ _ => code ∈ refusals
  | _ => False

instance : DecidablePred Refuses
  | .failure code _ _ => inferInstanceAs (Decidable (code ∈ refusals))
  | .conflict _ => .isFalse id
  | .value _ => .isFalse id
  | .os => .isFalse id
  | .integrity => .isFalse id

/-! ### Calls -/

def unreachable : Error := .failure "unreachable" "The SSH connection could not be completed." 502

def fileUnavailable : Error :=
  .failure "file_unavailable" "The file action could not be completed." 409

def authorityChanged : Error := .failure "editor_authority_changed"
  "Access changed after dispatch. Restore access and check the save outcome." 403

/-- What the channel makes of the node's answer. A recovery has no receipt. -/
def answered : Except Halt (Option Receipt) → Except Error (Option Receipt)
  | .ok reply => .ok reply
  | .error (.raised (.failure code message status)) => .error (.failure code message status)
  | .error (.raised _) => .error fileUnavailable
  | .error .crashed => .error unreachable

/-- What the check of the access raises after a reply. Of the codes after which nothing is retained it
only has `read_only`, and not after a request that it has let pass: the row of a root does not
change. -/
structure Denial where
  error : Error
  dispatched : ¬Refuses error

inductive Outcome
  /-- The call raises before anything is sent. -/
  | refused (error : Error)
  /-- The request is sent and there is no reply. -/
  | lost
  /-- The node serves the request. The two checks after the reply follow. -/
  | served (env : Environment) (transport after : Option Denial)

structure System where
  disk : Disk
  item : Option Item
  /-- Requests that were sent, without a reply, and that the node can still serve. -/
  late : List Request

/-- The disk after the node has served a request. -/
def serve (tools : Tools) (env : Environment) (request : Request) (disk : Disk) : Disk :=
  cut (dispatch tools env request) disk none

/-- The checks after a reply. A request that writes says that it has been dispatched. -/
def checkedReply (write : Bool) (transport after : Option Denial) :
    Except Error (Option Receipt) → Except Error (Option Receipt)
  | .error error => .error error
  | .ok reply =>
    match transport, after with
    | some denial, _ => .error denial.error
    | none, some denial => .error (if write then authorityChanged else denial.error)
    | none, none => .ok reply

/-- `call` -/
def call (tools : Tools) (s : System) (write : Bool) (request : Request) :
    Outcome → System × Except Error (Option Receipt)
  | .refused error => (s, .error error)
  | .lost => ({ s with late := request :: s.late }, .error unreachable)
  | .served env transport after => ({ s with disk := serve tools env request s.disk },
      checkedReply write transport after
        (answered (dispatch tools env request s.disk).result))

/-! ### Requests of the user -/

/-- Where a save is interrupted by a stop of the controller. -/
inductive Stop
  | inserted | announced | replied
deriving DecidableEq

/-- The item after an error of the call that saves it. -/
def Item.afterError (item : Item) (error : Error) : Item :=
  if Refuses error then { item with state := .failed, retained := false } else item

/-- The item after a call. -/
def recordReply (s : System) (item : Item) : Except Error (Option Receipt) → System
  | .ok (some receipt) => { s with item := some receipt.item }
  | .ok none => s
  | .error error => { s with item := some (item.afterError error) }

/-- `save` for one item. The item is new, or its state is asked for instead. -/
def saveItem (tools : Tools) (s : System) (request : SaveRequest) (stop : Option Stop)
    (denied : Option Error) (outcome : Outcome) : System :=
  let pending : Item := ⟨.pending, false, false⟩
  let announced : Item := ⟨.unknown, true, false⟩
  if stop = some .inserted then { s with item := some pending } else
  match denied with
  | some _ => { s with item := some { pending with state := .failed } }
  | none =>
    let s := { s with item := some announced }
    if stop = some .announced then s else
    let (s, result) := call tools s true (.save request) outcome
    if stop = some .replied then s else recordReply s announced result

/-- `_status` -/
def statusItem (tools : Tools) (s : System) (item : Item) (outcome : Outcome) : System :=
  match item.state with
  | .pending => { s with item := some { item with state := .failed } }
  | .unknown =>
    match call tools s false .status outcome with
    | (s, .ok (some receipt)) => { s with item := some receipt.item }
    | (s, _) => s
  | _ => s

/-- `cleanup` for one item. -/
def cleanupItem (tools : Tools) (s : System) (readOnly confirm recovered : Bool)
    (outcome : Outcome) : System :=
  match call tools s true (.cleanup readOnly confirm recovered) outcome with
  | (s, .ok (some receipt)) => { s with item := some receipt.item }
  | (s, _) => s

inductive Event
  | save (request : SaveRequest) (stop : Option Stop) (denied : Option Error) (outcome : Outcome)
  | status (outcome : Outcome)
  | recovery (copy : Copy) (outcome : Outcome)
  | cleanup (readOnly confirm recovered : Bool) (outcome : Outcome)
  /-- The node serves the first request whose reply was lost. -/
  | late (env : Environment)
  /-- A request whose reply was lost is never served. -/
  | drop
  /-- Another request whose reply was lost comes first. -/
  | rotate

def step (tools : Tools) (s : System) : Event → System
  | .save request stop denied outcome =>
    match s.item with
    | none => saveItem tools s request stop denied outcome
    | some item => statusItem tools s item outcome
  | .status outcome =>
    match s.item with
    | none => s
    | some item => statusItem tools s item outcome
  | .recovery copy outcome =>
    match s.item with
    | none => s
    | some _ => (call tools s false (.recovery copy) outcome).1
  | .cleanup readOnly confirm recovered outcome =>
    match s.item with
    | none => s
    | some _ => cleanupItem tools s readOnly confirm recovered outcome
  | .late env =>
    match s.late with
    | [] => s
    | request :: rest => { s with disk := serve tools env request s.disk, late := rest }
  | .drop => { s with late := s.late.tail }
  | .rotate => { s with late := s.late.rotate 1 }

/-- A file that no edit has touched. -/
def System.initial (file : File) : System where
  disk := ⟨file, none, none, [], 0⟩
  item := none
  late := []

/-- What the node serves in an event. -/
def Event.Serves (s : System) (env : Environment) (request : Request) : Event → Prop
  | .save saved stop denied (.served env' _ _) => env' = env ∧
      (request = .save saved ∧ s.item = none ∧ denied = none ∧ stop ≠ some .inserted ∧
        stop ≠ some .announced ∨ request = .status ∧ s.item ≠ none)
  | .status (.served env' _ _) => env' = env ∧ request = .status
  | .recovery copy (.served env' _ _) => env' = env ∧ request = .recovery copy
  | .cleanup readOnly confirm recovered (.served env' _ _) =>
      env' = env ∧ request = .cleanup readOnly confirm recovered
  | .late env' => env' = env ∧ s.late.head? = some request
  | _ => False

/-- The condition on the steps: a save that the node journals is not interrupted before its draft is
written. -/
def Careful (s : System) (event : Event) : Prop :=
  ∀ env request, event.Serves s env request → request.Stores env s.disk

end Ficc.Editor
