import Ficc.Foundations.Dialogue
import Ficc.Modules.Frames
import Ficc.Modules.Registry

/-!
# Conversations with module processes

A module process calls the broker of the host, and an adapter calls the transport of the host, in two
protocols that are written apart. Both are dialogues under authority: what `channel`, the authority
and the callbacks do is the peer of a dialogue. The requests that open a conversation are checked
before it and are not modelled.

## Main results

* `Broker.admits` and `Adapter.admits`: calls are few, new, and within the scope of the conversation.
-/

namespace Ficc.Modules.Conversations

open JsonText Utf8 Frames Dialogue
open Utf16 (CodePoint)

def MAX_CALLS : ℕ := 16

variable {F : Type}

/-- A frame, which is a dictionary. -/
abbrev Message (F : Type) := List (Text × Value F)

/-! ### Checks of values -/

/-- `value == n` for a value of type `int`. -/
def isInt (value : Option (Value F)) (n : ℤ) : Bool :=
  match value with
  | some (.number (.int found)) => found = n
  | _ => false

def asText : Option (Value F) → Option Text
  | some (.text value) => some value
  | _ => none

/-- `value == text`. -/
def isText (value : Option (Value F)) (text : Text) : Bool := asText value = some text

def failure (message : String) : Fault := .failure (invalid message)

/-- `REQUEST_ID` and `HEX`. -/
def isRequestId (text : Text) : Bool := text.length = 32 && text.all lowerHex

/-- An error of the codec. -/
def lift {α : Type} : Except Error α → Except Fault α
  | .ok value => .ok value
  | .error error => .error (.failure error)

/-- `loads(dumps(value), maximum)`. -/
def copied [Floats F] (value : Value F) (maximum : ℕ) : Except Fault (Value F) := do
  let bytes ← lift (dumps value)
  lift (loads bytes maximum)

/-- `strings` with its defaults. -/
def strings (value : Option (Value F)) : Except Fault (List Text) :=
  match value with
  | some (.list items) => do
    raiseIf (64 < items.length) (failure "The module list exceeds the limit.")
    let texts ← items.mapM fun item => do
      let text ← textOf (some item) 128
      raiseIf (text = []) (failure "The module list contains an empty value.")
      return text
    raiseIf (¬texts.Nodup) (failure "The module list contains duplicate values.")
    return texts
  | _ => .error (failure "The module list exceeds the limit.")

/-- `reference` of a text that is neither too long nor empty. -/
def reference (value : Text) : Except Fault Unit :=
  raiseIf (value ∈ UNSAFE.map points ∨ value.any fun c => c.val = 47 ∨ c.val = 92 ∨ c.val = 58)
    (failure "The component reference must be an opaque identifier.")

/-- `targets`. -/
def targets (value : Option (Value F)) : Except Fault (List Text) := do
  let result ← strings value
  raiseIf (result = []) (failure "Select at least one module target.")
  result.forM reference
  return result

/-! ### The broker -/

namespace Broker

def MAX_PARAMETERS : ℕ := 65536

structure BrokerCall (F : Type) where
  invocationId : Text
  requestId : Text
  primitive : Text
  targetIds : List Text
  parameters : Value F
  packageDigest : Text
  actionId : Text
  actionCapabilities : List Text

/-- What a conversation is frozen to. -/
structure Conversation where
  id : Text
  digest : Text
  action : Text
  targets : List Text
  capabilities : List Text
  /-- A broker is given. -/
  broker : Bool

def identityMessage : Fault :=
  failure "The module broker identity, version or call count is invalid."

/-- `Conversation.call`, with the identities in `self.seen`. -/
def Conversation.call [Floats F] (self : Conversation) (seen : List Text) (value : Message F) :
    Except Fault (BrokerCall F) := do
  let value ← fields (.object value)
    ["version", "type", "id", "invocation_id", "primitive", "targets", "parameters"] []
  let id ← orRaise (asText (field value "id")) identityMessage
  raiseIf (isInt (field value "version") 2 = false ∨ isText (field value "type") (points "broker") = false ∨
    isText (field value "invocation_id") self.id = false ∨ isRequestId id = false ∨ id = self.id ∨
    id ∈ seen ∨ MAX_CALLS ≤ seen.length) identityMessage
  identifier (field value "primitive")
  let primitive ← orRaise (asText (field value "primitive")) .key
  let requested ← Conversations.targets (field value "targets")
  raiseIf (¬requested ⊆ self.targets)
    (failure "The broker targets exceed the frozen invocation scope.")
  match field value "parameters" with
  | some (.object members) =>
    let parameters ← copied (.object members) MAX_PARAMETERS
    return ⟨self.id, id, primitive, requested, parameters, self.digest, self.action,
      self.capabilities⟩
  | _ => .error (failure "Broker parameters must be an object.")

/-- `protocol.result_frame`. -/
def resultFrame (result : Message F) (requestId : Text) (targetIds : List Text) (version : ℤ) :
    Except Fault (List (Value F)) := do
  let result ← fields (.object result) ["version", "type", "id", "results"] []
  raiseIf (isInt (field result "version") version = false ∨
    isText (field result "type") (points "result") = false ∨
    isText (field result "id") requestId = false)
    (failure "The module response identity is invalid.")
  let results ← orRaise (field result "results") .key
  batchResults results targetIds

/-- The messages of `Conversation.exchange`. -/
def Conversation.protocol [Floats F] (self : Conversation) :
    Protocol Text (Message F) (BrokerCall F) (Value F) (Message F) Bytes Bytes Fault where
  hello hello := do
    let hello ← fields (.object hello) ["version", "type", "protocol"] []
    raiseIf (isInt (field hello "version") 2 = false ∨ isInt (field hello "protocol") 2 = false ∨
      isText (field hello "type") (points "hello") = false)
      (failure "The module protocol handshake is unsupported.")
  final value := isText (field value "type") (points "result")
  result value := do
    let _ ← resultFrame value self.id self.targets 2
    return value
  output hello value := do
    let first ← lift (frame (.object hello))
    let second ← lift (frame (.object value))
    return first ++ second
  call := self.call
  identity := BrokerCall.requestId
  authority := raiseIf (self.broker = false ∨ self.capabilities = [])
    (.failure (.failure "module_capability_unavailable" "No broker authority is available." 409))
  copy results := .ok results
  reply call results := do
    -- Host data is copied before it is checked.
    let copied ← copied (.object [(points "results", results)]) MAX_JSON
    match copied with
    | .object copied =>
      let results ← orRaise (field copied "results") .key
      let results ← batchResults results call.targetIds
      lift (frame (.object [(points "version", .number (.int 2)),
        (points "type", .text (points "broker-result")), (points "id", .text call.requestId),
        (points "invocation_id", .text self.id), (points "results", .list results)]))
    | _ => .error .key

/-- `Conversation.exchange`, with one round more than there may be calls. -/
def Conversation.exchange [Floats F] (self : Conversation)
    (channel : Peer (Message F) (BrokerCall F) (Value F) Bytes Fault) :
    Durable (Talk Text (BrokerCall F)) Fault (Option Bytes) :=
  Dialogue.exchange self.protocol channel (MAX_CALLS + 1)

/-- The targets of a call are among those that the conversation started with. -/
theorem admits [Floats F] (self : Conversation) :
    (self.protocol (F := F)).Admits MAX_CALLS fun call => call.targetIds ⊆ self.targets := by
  intro seen value call h
  obtain ⟨value, -, h⟩ := bind_eq_ok.mp h
  obtain ⟨id, -, h⟩ := orRaise_bind_eq_ok.mp h
  obtain ⟨hidentity, h⟩ := unit_bind_eq_ok.mp h
  obtain ⟨-, h⟩ := unit_bind_eq_ok.mp h
  obtain ⟨primitive, -, h⟩ := orRaise_bind_eq_ok.mp h
  obtain ⟨requested, -, h⟩ := bind_eq_ok.mp h
  obtain ⟨hscope, h⟩ := unit_bind_eq_ok.mp h
  rw [raiseIf_eq_ok, not_not] at hscope
  rw [raiseIf_eq_ok] at hidentity
  simp only [not_or, Nat.not_le] at hidentity
  obtain ⟨-, -, -, -, -, hnew, hfew⟩ := hidentity
  have hcall : call.requestId = id ∧ call.targetIds = requested := by
    split at h
    · obtain ⟨parameters, -, h⟩ := bind_eq_ok.mp h
      obtain rfl := Except.ok.inj h
      exact ⟨rfl, rfl⟩
    · cases h
  show call.requestId ∉ seen ∧ seen.length < MAX_CALLS ∧ call.targetIds ⊆ self.targets
  rw [hcall.1, hcall.2]
  exact ⟨hnew, hfew, hscope⟩

end Broker

/-! ### The adapter -/

namespace Adapter

def MAX_PRIVATE : ℕ := 65536

structure TransportCall where
  invocationId : Text
  requestId : Text
  profileId : Text
  packageDigest : Text
  phase : Text
  commandBytes : Bytes

/-- What a conversation is frozen to. -/
structure Conversation where
  id : Text
  digest : Text
  phase : Text
  profileIds : List Text
  /-- A transport is given. -/
  transport : Bool

/-- `identity`. -/
def identity (value : Option (Value F)) : Except Fault Text :=
  match value with
  | some (.text value) =>
    if isRequestId value then .ok value else .error (failure "The adapter identity is invalid.")
  | _ => .error (failure "The adapter identity is invalid.")

/-- `plain`. -/
def plain (value : Option (Value F)) (maximum : ℕ) : Except Fault Text := do
  let result ← textOf value maximum
  raiseIf (result = [] ∨ result.any fun c => c.val < 32)
    (failure "The adapter text is empty or contains control characters.")
  return result

/-- `private`. -/
def privateData [Floats F] (value : Option (Value F)) : Except Fault (Value F) :=
  match value with
  | some (.object members) => copied (.object members) MAX_PRIVATE
  | _ => .error (failure "Private adapter data must be an object.")

/-- `commands`. -/
def commands [Floats F] (value : Option (Value F)) : Except Fault (Value F) :=
  match value with
  | some (.list items) => do
    raiseIf (¬(1 ≤ items.length ∧ items.length ≤ 64))
      (failure "The adapter transport requires one to 64 commands.")
    items.forM fun item => do
      let item ← fields item ["command", "parameters"] []
      let _ ← plain (field item "command") 96
      let _ ← privateData (field item "parameters")
    let _ ← copied (.list items) MAX_PRIVATE
    return .list items
  | _ => .error (failure "The adapter transport requires one to 64 commands.")

/-- `Conversation.call`, with the identities in `self.seen`. -/
def Conversation.call [Floats F] (self : Conversation) (seen : List Text) (value : Message F) :
    Except Fault TransportCall := do
  let value ← fields (.object value)
    ["version", "type", "id", "invocation_id", "profile_id", "commands"] []
  let id ← identity (field value "id")
  let message := failure "The adapter transport identity, profile or call count is invalid."
  let profileId ← orRaise (asText (field value "profile_id")) message
  raiseIf (isInt (field value "version") 1 = false ∨
    isText (field value "type") (points "adapter-transport") = false ∨
    isText (field value "invocation_id") self.id = false ∨ id = self.id ∨ id ∈ seen ∨
    profileId ∉ self.profileIds ∨ MAX_CALLS ≤ seen.length) message
  let found ← commands (field value "commands")
  let raw ← lift (dumps found)
  return ⟨self.id, id, profileId, self.digest, self.phase, raw⟩

/-- What `Conversation.result` asks of the row of a profile. -/
def row (value : Value F) (profileId : Text) : Except Fault Unit := do
  let row ← fields value ["profile_id"] ["data", "error"]
  raiseIf (isText (field row "profile_id") profileId = false ∨
    ((field row "data").isSome ↔ (field row "error").isSome))
    (failure "The adapter response order or outcome is invalid.")
  match field row "error", field row "data" with
  | some error, _ =>
    let error ← fields error ["code", "message"] []
    Frames.identifier (field error "code")
    let _ ← plain (field error "message") 1024
  | none, some (.object _) => return ()
  | none, _ => .error (failure "Adapter result data must be an object.")

/-- `Conversation.result`. -/
def Conversation.result [Floats F] (self : Conversation) (value : Message F) :
    Except Fault (Value F) := do
  let value ← fields (.object value) ["version", "type", "id", "results"] []
  raiseIf (isInt (field value "version") 1 = false ∨
    isText (field value "type") (points "adapter-result") = false ∨
    isText (field value "id") self.id = false) (failure "The adapter response identity is invalid.")
  match field value "results" with
  | some (.list rows) =>
    raiseIf (rows.length ≠ self.profileIds.length)
      (failure "The adapter response must complete every profile.")
    (rows.zip self.profileIds).forM fun pair => row pair.1 pair.2
    copied (.object value) MAX_JSON
  | _ => .error (failure "The adapter response must complete every profile.")

/-- `TransportCall.commands`. -/
def TransportCall.commands [Floats F] (call : TransportCall) : Except Fault (List (Value F)) := do
  let value ← lift (loads call.commandBytes MAX_PRIVATE)
  match value with
  | .list items => return items
  -- The bytes were written from a list.
  | _ => .error .key

def resultsMessage : Fault :=
  failure "The adapter transport did not return every command result."

/-- The messages of `Conversation.exchange`. -/
def Conversation.protocol [Floats F] (self : Conversation) :
    Protocol Text (Message F) TransportCall (Value F) (Value F) Bytes Bytes Fault where
  hello hello := do
    let hello ← fields (.object hello) ["version", "type", "protocol"] []
    raiseIf (isInt (field hello "version") 1 = false ∨ isInt (field hello "protocol") 1 = false ∨
      isText (field hello "type") (points "adapter-hello") = false)
      (failure "The adapter handshake is unsupported.")
  final value := isText (field value "type") (points "adapter-result")
  result := self.result
  output _ result := lift (dumps result)
  call := self.call
  identity := TransportCall.requestId
  authority := raiseIf (self.transport = false)
    (failure "This adapter has no host transport authority.")
  -- The results are copied before the authority is checked, unlike those of a broker.
  copy results := copied results MAX_JSON
  reply call results :=
    match results with
    | .list results => do
      let commands ← call.commands (F := F)
      raiseIf (results.length ≠ commands.length) resultsMessage
      lift (frame (.object [(points "version", .number (.int 1)),
        (points "type", .text (points "adapter-transport-result")),
        (points "id", .text call.requestId), (points "invocation_id", .text self.id),
        (points "profile_id", .text call.profileId), (points "results", .list results)]))
    | _ => .error resultsMessage

/-- `Conversation.exchange`, with one round more than there may be calls. -/
def Conversation.exchange [Floats F] (self : Conversation)
    (channel : Peer (Message F) TransportCall (Value F) Bytes Fault) :
    Durable (Talk Text TransportCall) Fault (Option Bytes) :=
  Dialogue.exchange self.protocol channel (MAX_CALLS + 1)

/-- The profile of a call is among those that the conversation started with. -/
theorem admits [Floats F] (self : Conversation) :
    (self.protocol (F := F)).Admits MAX_CALLS fun call => call.profileId ∈ self.profileIds := by
  intro seen value call h
  obtain ⟨value, -, h⟩ := bind_eq_ok.mp h
  obtain ⟨id, -, h⟩ := bind_eq_ok.mp h
  obtain ⟨profileId, -, h⟩ := orRaise_bind_eq_ok.mp h
  obtain ⟨hidentity, h⟩ := unit_bind_eq_ok.mp h
  obtain ⟨found, -, h⟩ := bind_eq_ok.mp h
  obtain ⟨raw, -, h⟩ := bind_eq_ok.mp h
  obtain rfl := Except.ok.inj h
  rw [raiseIf_eq_ok] at hidentity
  simp only [not_or, not_not, Nat.not_le] at hidentity
  obtain ⟨-, -, -, -, hnew, hscope, hfew⟩ := hidentity
  exact ⟨hnew, hfew, hscope⟩

end Adapter

/-! ### Both conversations -/

/-- A conversation is contained wherever it stops: its calls are at most 16 and have different
identities, they stay within what it started with, and each of them follows on a successful check. It
ends, and what it returns follows on a last check. -/
theorem conversations_contained [Floats F] :
    (∀ (self : Broker.Conversation)
      (channel : Peer (Message F) (Broker.BrokerCall F) (Value F) Bytes Fault) (stop : Option ℕ),
      Contained MAX_CALLS Broker.BrokerCall.requestId (fun call => call.targetIds ⊆ self.targets)
          (Durable.cut (self.exchange channel) ⟨[], []⟩ stop).trace ∧
        ∀ output, (self.exchange channel ⟨[], []⟩).result = .ok output → output ≠ none ∧
          Settled (Durable.cut (self.exchange channel) ⟨[], []⟩ none)) ∧
    ∀ (self : Adapter.Conversation)
      (channel : Peer (Message F) Adapter.TransportCall (Value F) Bytes Fault) (stop : Option ℕ),
      Contained MAX_CALLS Adapter.TransportCall.requestId (fun call => call.profileId ∈ self.profileIds)
          (Durable.cut (self.exchange channel) ⟨[], []⟩ stop).trace ∧
        ∀ output, (self.exchange channel ⟨[], []⟩).result = .ok output → output ≠ none ∧
          Settled (Durable.cut (self.exchange channel) ⟨[], []⟩ none) :=
  ⟨fun self channel stop => contained_of_admits (Broker.admits self) channel stop,
    fun self channel stop => contained_of_admits (Adapter.admits self) channel stop⟩

/-- A conversation for one target. -/
def visit : Broker.Conversation where
  id := List.replicate 32 97
  digest := points "d"
  action := points "show"
  targets := [points "node"]
  capabilities := [points "system:read"]
  broker := true

/-- The rows that a target is shown with. -/
def shown : Value Printed :=
  .list [.object [(points "target", .text (points "node")), (points "data", .null)]]

/-- A module that calls the broker once and then sends its result. -/
def visitor : Peer (Message Printed) (Broker.BrokerCall Printed) (Value Printed) Bytes Fault where
  receive trace :=
    if trace.length = 1 then
      .ok [(points "version", .number (.int 2)), (points "type", .text (points "hello")),
        (points "protocol", .number (.int 2))]
    else if trace.length = 2 then
      .ok [(points "version", .number (.int 2)), (points "type", .text (points "broker")),
        (points "id", .text (List.replicate 32 98)), (points "invocation_id", .text visit.id),
        (points "primitive", .text (points "system.read")),
        (points "targets", .list [.text (points "node")]), (points "parameters", .object [])]
    else
      .ok [(points "version", .number (.int 2)), (points "type", .text (points "result")),
        (points "id", .text visit.id), (points "results", shown)]
  check _ := .ok ()
  dispatch _ _ := .ok shown
  send _ _ := .ok ()
  complete _ := .ok ()

theorem visit_contained :
    Contained MAX_CALLS Broker.BrokerCall.requestId (fun call => call.targetIds ⊆ visit.targets)
        (Durable.cut (visit.exchange visitor) ⟨[], []⟩ (some 6)).trace ∧
      ∃ output, (visit.exchange visitor ⟨[], []⟩).result = .ok (some output) ∧
        Settled (Durable.cut (visit.exchange visitor) ⟨[], []⟩ none) := by
  have hresult : ((visit.exchange visitor ⟨[], []⟩).result.toOption.bind id).isSome = true := by
    decide +kernel
  obtain ⟨hcontained, hend⟩ := conversations_contained.1 visit visitor (some 6)
  refine ⟨hcontained, ?_⟩
  cases houtput : (visit.exchange visitor ⟨[], []⟩).result with
  | error error =>
    rw [houtput] at hresult
    cases hresult
  | ok output =>
    obtain ⟨hsome, hsettled⟩ := hend output houtput
    obtain ⟨bytes, rfl⟩ := Option.ne_none_iff_exists'.mp hsome
    exact ⟨bytes, rfl, hsettled⟩

end Ficc.Modules.Conversations
