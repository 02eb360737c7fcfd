import Ficc.Contributors.Sessions

/-!
# The executor command channel

The controller talks to a contributor through polls that the contributor makes. A request waits in
the one slot of its contributor, a poll hands its command over, and a later poll brings the reply.
Requests and polls are tasks of one event loop, so that a step is what a task does between two
awaits: a request runs until it waits for its future, a poll until it waits for an event.

Futures are kept with their requests, because nothing else refers to them. The events only decide
when a waiting poll runs again, and here it may do so at any time. What the caller's `check` raises
is given with every step that calls it.

The history of a channel lists what happened on it, the newest event first. It is not read by any
step.
-/

namespace Ficc.Workloads

open Execution Contributors

/-- The actions of a command message. -/
inductive MessageAction
  | prepare | rejectAbsent | reconcileAbsent | renew | start | observe | stop | release | collect
  | inputStatus | inputWrite | endpoint | snapshot | setOffer
deriving DecidableEq

variable (β ρ : Type)

/-- A command message. The channel reads its identity and its action only. -/
structure Message where
  id : Identity
  action : MessageAction
  fields : β

/-- A reply of an executor, as the validator returns it. -/
structure Reply where
  id : Identity
  deploymentId : Identity
  nodeId : Identity
  content : ρ

/-- A response that comes with a poll: the size of its encoding, and the reply that it is, if the
validator accepts it. -/
structure Response where
  size : ℕ
  reply : Option (Reply ρ)

/-- The state of a future. A reply is kept with the poll that brought it. -/
inductive Future
  | waiting
  | result (reply : Reply ρ) (poll : ℕ)
  | exception (error : Error)
  | cancelled

/-- What a request raises: an error, or the cancellation of its task. -/
inductive Interruption
  | error (error : Error)
  | cancelled

/-- How far the task of a request has come. -/
inductive Progress
  | waiting
  | timedOut
  | cancelled
  | ended

/-- A request with its task, its `Pending` object and its future. -/
structure Pending where
  nodeId : Identity
  message : Message β
  sessionId : Identity
  fingerprint : Digest
  delivered : Bool
  future : Future ρ
  progress : Progress

/-- A poll that waits, with the rounds that it has left. -/
structure Poll where
  nodeId : Identity
  sessionId : Identity
  fingerprint : Digest
  rounds : ℕ

/-- What happens on a channel. -/
inductive ChannelEvent
  /-- The command of a request is handed to the contributor of a poll. -/
  | handed (request poll : ℕ) (sessionId : Identity) (fingerprint : Digest)
  /-- A poll brings a reply. -/
  | arrived (poll : ℕ) (reply : Reply ρ) (sessionId : Identity) (fingerprint : Digest)
  /-- A request returns the reply that a poll has brought. -/
  | completed (request : ℕ) (reply : Reply ρ) (poll : ℕ)
  /-- A request raises. -/
  | raised (request : ℕ)

/-- The channel with its tasks and its history. -/
structure Channel where
  nodes : Sessions
  /-- The request in the slot of a contributor. -/
  pending : Table Identity ℕ
  polling : Finset Identity
  closed : Bool
  /-- All requests, in the order in which they were made. -/
  requests : List (Pending β ρ)
  polls : Table ℕ Poll
  /-- The number of polls so far. -/
  polled : ℕ
  history : List (ChannelEvent ρ)

variable {β ρ}

/-- The limit of an encoded reply. -/
def MAX_REPLY : ℕ := 2 * 1024 * 1024

/-- The result unless the future has one. -/
def Future.resolve (future result : Future ρ) : Future ρ :=
  match future with
  | .waiting => result
  | other => other

namespace Channel

/-- The request in the slot of the contributor. -/
def slot (s : Channel β ρ) (nodeId : Identity) : Option (ℕ × Pending β ρ) :=
  (s.pending.lookup nodeId).bind fun request =>
    s.requests[request]?.map fun pending => (request, pending)

/-- Rewrites a request. -/
def modify (s : Channel β ρ) (request : ℕ) (change : Pending β ρ → Pending β ρ) : Channel β ρ :=
  { s with requests := s.requests.modify request change }

/-- Settles the future of a request, unless it is done. -/
def settle (s : Channel β ρ) (request : ℕ) (result : Future ρ) : Channel β ρ :=
  s.modify request fun pending => { pending with future := pending.future.resolve result }

/-- Adds an event to the history. -/
def note (s : Channel β ρ) (event : ChannelEvent ρ) : Channel β ρ :=
  { s with history := event :: s.history }

/-- The current session of the contributor. -/
def session (settings : Contributors.Settings) (s : Channel β ρ) (nodeId : Identity) :
    Except Error Session := do
  let session ← orRaise (s.nodes.sessions.lookup nodeId)
    (.failure "contributor_disconnected" "The contributor has no current connection." 409)
  s.nodes.guard settings nodeId session.id session.fingerprint
  .ok session

/-- The tests of a request before it takes the slot. -/
def admitRequest (settings : Contributors.Settings) (s : Channel β ρ) (nodeId : Identity)
    (message : Message β) (check : Except Error Unit) : Except Error Session := do
  raiseIf (message.action = .setOffer)
    (.failure "local_consent" "Change the offer through the authenticated local owner interface."
      403)
  raiseIf (s.closed = true ∨ s.pending.lookup nodeId ≠ none)
    (.failure "executor_busy" "The contributor command channel is busy or stopped." 409)
  let current ← s.session settings nodeId
  check
  .ok current

/-- A request up to its await. The identities of messages are drawn at random and assumed to be
new. -/
def request (settings : Contributors.Settings) (s : Channel β ρ) (nodeId : Identity)
    (message : Message β) (check : Except Error Unit) : Channel β ρ :=
  if ∃ pending ∈ s.requests, pending.message.id = message.id then s
  else
    match s.admitRequest settings nodeId message check with
    | .error _ => s
    | .ok current =>
      { s with
        pending := s.pending.insert nodeId s.requests.length
        requests := s.requests ++
          [⟨nodeId, message, current.id, current.fingerprint, false, .waiting, .waiting⟩] }

/-- The timeout of a request, or its caller, cancels its task, which cancels the future. -/
def cancelRequest (s : Channel β ρ) (request : ℕ) (progress : Progress) : Channel β ρ :=
  s.modify request fun pending =>
    match pending.progress with
    | .waiting => { pending with future := pending.future.resolve .cancelled, progress }
    | _ => pending

/-- Ends the task of a request, which gives up the slot if it still has it. -/
def finish (s : Channel β ρ) (request : ℕ) (nodeId : Identity) (event : ChannelEvent ρ) :
    Channel β ρ :=
  let s := (s.modify request fun pending => { pending with progress := .ended }).note event
  if s.pending.lookup nodeId = some request then { s with pending := s.pending.erase nodeId } else s

/-- What a request that runs again raises, or the reply that it returns. -/
def answer (settings : Contributors.Settings) (s : Channel β ρ) (pending : Pending β ρ)
    (check : Except Error Unit) : Option (Except Interruption (Reply ρ × ℕ)) :=
  match pending.progress, pending.future with
  | .waiting, .result reply poll => some <| Except.mapError .error do
    s.nodes.guard settings pending.nodeId pending.sessionId pending.fingerprint
    check
    .ok (reply, poll)
  | .waiting, .exception error => some (.error (.error error))
  -- The cancellation comes first, even when the future has a result by then.
  | .timedOut, _ => some (.error (.error (.failure "executor_reply_unknown"
      "The executor reply was not received. Reconcile the same attempt." 504)))
  | .cancelled, _ => some (.error .cancelled)
  | _, _ => none

/-- A request after its await. -/
def resume (settings : Contributors.Settings) (s : Channel β ρ) (request : ℕ)
    (check : Except Error Unit) : Channel β ρ :=
  match s.requests[request]? with
  | none => s
  | some pending =>
    match s.answer settings pending check with
    | none => s
    | some (.ok (reply, poll)) =>
      s.finish request pending.nodeId (.completed request reply poll)
    | some (.error _) => s.finish request pending.nodeId (.raised request)

/-- The request was made in this session, which is the current one. Otherwise the request fails. -/
def bound (settings : Contributors.Settings) (s : Channel β ρ) (request : ℕ) (pending : Pending β ρ)
    (identity sessionId : Identity) (fingerprint : Digest) : Channel β ρ × Except Error Unit :=
  if (pending.sessionId, pending.fingerprint) ≠ (sessionId, fingerprint) then
    let failure := Error.failure "node_lease_changed"
      "The contributor connection changed during an executor command." 409
    (s.settle request (.exception failure), .error failure)
  else (s, s.nodes.guard settings identity sessionId fingerprint)

/-- The end of a poll. -/
def leave (s : Channel β ρ) (poll : ℕ) (nodeId : Identity) : Channel β ρ :=
  { s with polls := s.polls.erase poll, polling := s.polling.erase nodeId }

/-- One round of a poll: it hands over the command in the slot, or waits. After the last round it
returns nothing. -/
def round (settings : Contributors.Settings) (s : Channel β ρ) (number : ℕ) (poll : Poll)
    (check : Except Error Unit) : Channel β ρ :=
  match s.nodes.guard settings poll.nodeId poll.sessionId poll.fingerprint, poll.rounds with
  | .error _, _ => s.leave number poll.nodeId
  | .ok (), 0 => s.leave number poll.nodeId
  | .ok (), rounds + 1 =>
    match s.slot poll.nodeId with
    | some (request, pending) =>
      if pending.delivered = true then
        { s with polls := s.polls.insert number { poll with rounds } }
      else
        match s.bound settings request pending poll.nodeId poll.sessionId poll.fingerprint with
        | (s, .error _) => s.leave number poll.nodeId
        | (s, .ok ()) =>
          match check with
          | .error error => (s.settle request (.exception error)).leave number poll.nodeId
          | .ok () =>
            ((s.modify request fun pending => { pending with delivered := true }).note
              (.handed request number poll.sessionId poll.fingerprint)).leave number poll.nodeId
    | none => { s with polls := s.polls.insert number { poll with rounds } }

/-- The reply of a response that is not too large and belongs to the contributor. -/
def acceptResponse (settings : Contributors.Settings) (identity : Identity)
    (response : Response ρ) : Except Error (Reply ρ) := do
  raiseIf (MAX_REPLY < response.size)
    (.failure "response_limit" "The executor response exceeds the control limit." 413)
  let reply ← orRaise response.reply (.value "validation error")
  raiseIf (reply.nodeId ≠ identity ∨ reply.deploymentId ≠ settings.deploymentId)
    (.failure "executor_identity" "The executor response belongs to another deployment or node."
      403)
  .ok reply

/-- Gives a reply to the request in the slot, if it is the reply to its delivered command. -/
def receive (settings : Contributors.Settings) (s : Channel β ρ) (number : ℕ) (poll : Poll)
    (reply : Reply ρ) : Channel β ρ × Except Error Unit :=
  let s := s.note (.arrived number reply poll.sessionId poll.fingerprint)
  match s.slot poll.nodeId with
  | some (request, pending) =>
    if pending.delivered = true ∧ reply.id = pending.message.id then
      match s.bound settings request pending poll.nodeId poll.sessionId poll.fingerprint with
      | (s, .ok ()) => (s.settle request (.result reply number), .ok ())
      | other => other
    else (s, .ok ())
  | none => (s, .ok ())

/-- A poll up to its first await. -/
def exchange (settings : Contributors.Settings) (s : Channel β ρ) (fingerprint : Digest)
    (sessionId : Identity) (response : Option (Response ρ)) (check : Except Error Unit) :
    Channel β ρ :=
  match s.nodes.authenticate fingerprint with
  | .error _ => s
  | .ok certificate =>
    let identity := certificate.nodeId
    match s.nodes.guard settings identity sessionId fingerprint with
    | .error _ => s
    | .ok () =>
      if identity ∈ s.polling then s
      else
        let number := s.polled
        let poll : Poll := ⟨identity, sessionId, fingerprint, 10⟩
        let s := { s with polling := insert identity s.polling, polled := s.polled + 1 }
        match response with
        | none => s.round settings number poll check
        | some response =>
          match acceptResponse settings identity response with
          | .error _ => s.leave number identity
          | .ok reply =>
            match s.receive settings number poll reply with
            | (s, .error _) => s.leave number identity
            | (s, .ok ()) => s.round settings number poll check

/-- Stops the channel. -/
def close (s : Channel β ρ) : Channel β ρ :=
  let failure := Error.failure "executor_stopped" "The controller execution channel stopped." 503
  let s := s.pending.rows.foldl (fun s row => s.settle row.2 (.exception failure)) s
  { s with closed := true, pending := ∅ }

/-- A step of the channel, of its callers, of the contributors or of the clocks. -/
inductive Step (β ρ : Type)
  | request (nodeId : Identity) (message : Message β) (check : Except Error Unit)
  /-- The timeout of a request passes. -/
  | timeout (request : ℕ)
  /-- The caller of a request is cancelled. -/
  | cancel (request : ℕ)
  | resume (request : ℕ) (check : Except Error Unit)
  | exchange (fingerprint : Digest) (sessionId : Identity) (response : Option (Response ρ))
    (check : Except Error Unit)
  /-- A waiting poll runs again. -/
  | round (poll : ℕ) (check : Except Error Unit)
  /-- A waiting poll is cancelled. -/
  | abandon (poll : ℕ)
  | close
  | heartbeat (fingerprint : Digest) (sessionId : Option Identity) (sequence : ℕ)
    (fresh : Identity)
  /-- The periodic check of the certificates. -/
  | verify
  /-- The session of a contributor is closed, because its certificate was replaced or revoked. -/
  | disconnect (nodeId : Identity)
  /-- All sessions are closed. -/
  | disconnectAll
  /-- The records of certificates change. -/
  | certify (certificates : Table Digest Certificate)
  | tick (wall monotonic : ℚ)

/-- The channel after a step. -/
def step (settings : Contributors.Settings) (s : Channel β ρ) : Step β ρ → Channel β ρ
  | .request nodeId message check => s.request settings nodeId message check
  | .timeout request => s.cancelRequest request .timedOut
  | .cancel request => s.cancelRequest request .cancelled
  | .resume request check => s.resume settings request check
  | .exchange fingerprint sessionId response check =>
    s.exchange settings fingerprint sessionId response check
  | .round number check =>
    match s.polls.lookup number with
    | some poll => s.round settings number poll check
    | none => s
  | .abandon number =>
    match s.polls.lookup number with
    | some poll => s.leave number poll.nodeId
    | none => s
  | .close => s.close
  | .heartbeat fingerprint sessionId sequence fresh =>
    { s with nodes := s.nodes.heartbeat settings fingerprint sessionId sequence fresh }
  | .verify => { s with nodes := s.nodes.poll }
  | .disconnect nodeId =>
    { s with nodes := { s.nodes with sessions := s.nodes.sessions.erase nodeId } }
  | .disconnectAll => { s with nodes := { s.nodes with sessions := ∅ } }
  | .certify certificates => { s with nodes := { s.nodes with certificates } }
  | .tick wall monotonic => { s with nodes := { s.nodes with wall, monotonic } }

/-- A new channel. -/
def initial (nodes : Sessions) : Channel β ρ :=
  { nodes, pending := ∅, polling := ∅, closed := false, requests := [], polls := ∅, polled := 0
    history := [] }

end Channel

end Ficc.Workloads
