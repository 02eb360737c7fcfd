import Ficc.Agents.Host

/-!
# What the actions write

One rule for each action in the directory of an agent and for each action of the controller: a
property of the state holds wherever the action stops, if every write of the action keeps it. The
rule says what is known when the write happens.
-/

namespace Ficc.Agents

open Execution (Identity Digest Hash)
open Durable

namespace Folder

variable {α : Type} {s : Folder} {I : Folder → Prop}

/-- The directory with a receipt. -/
def withReceipt (value : Receipt) (s : Folder) : Folder :=
  { s with receipts := s.receipts.insert value.id value }

/-- The directory with a message to the agent. -/
def withInbox (item : Delivery) (s : Folder) : Folder :=
  { s with inbox := s.inbox.insert item.id item }

@[simp]
theorem wp_receipt {ok : Receipt → Folder → Prop} {raised : Error → Folder → Prop}
    {during : Folder → Prop} {value : Receipt} :
    wp (receipt value) ok raised during s ↔
      during (withReceipt value s) ∧ ok value (withReceipt value s) := by
  simp [receipt, withReceipt]

theorem wp_locked {ok : α → Folder → Prop} {raised : Error → Folder → Prop}
    {during : Folder → Prop} {action : Action α} (hraised : ∀ e, raised e s)
    (h : s.archived = false → wp action ok raised during s) :
    wp (locked action) ok raised during s := by
  simp only [locked, wp_bind, wp_disk, wp_refuseIf]
  exact ⟨fun _ => hraised _, fun hopen => h (Bool.eq_false_iff.mpr hopen)⟩

section Exchange

theorem wp_admitDelivery {spec : Spec} {item : Delivery} (hs : I s)
    (hinbox : s.inbox.lookup item.id = none → I (withInbox item s)) :
    wp (admitDelivery spec item) (fun _ => I) (fun _ => I) I s := by
  simp only [admitDelivery, wp_bind, wp_refuseIf, wp_disk]
  refine ⟨fun _ => hs, fun _ => ?_⟩
  cases hlookup : s.inbox.lookup item.id with
  | some saved =>
    rw [wp_refuseIf]
    exact ⟨fun _ => hs, fun _ => hs⟩
  | none =>
    simp only [wp_bind, wp_refuseIf, wp_perform]
    exact ⟨fun _ => hs, fun _ => ⟨hinbox hlookup, hinbox hlookup⟩⟩

/-- The first receipt of a message. -/
def stored (identity : Identity) : Receipt :=
  { id := identity, state := .nodeStored, detail := none, sessionId := none }

theorem wp_admitReceipt {identity : Identity} (hs : I s)
    (hreceipt : s.receipts.lookup identity = none → I (withReceipt (stored identity) s)) :
    wp (admitReceipt identity) (fun _ => I) (fun _ => I) I s := by
  simp only [admitReceipt, wp_bind, wp_disk, wp_ite, wp_receipt, wp_pure]
  exact ⟨fun hnone => ⟨hreceipt hnone, hreceipt hnone⟩, fun _ => hs⟩

/-- A receipt that is asked for is read, or it is stored. -/
theorem wp_requestedReceipt {identity : Identity} {R : Receipt → Prop} (hs : I s)
    (hreceipt : s.receipts.lookup identity = none → I (withReceipt (stored identity) s))
    (hstored : s.receipts.lookup identity = none → R (stored identity))
    (hread : ∀ value, s.receipts.lookup identity = some value → R value)
    (hmissing : s.receipts.lookup identity = none → s.inbox.lookup identity = none →
      R { id := identity, state := .missing, detail := some "No inbox item was admitted."
          sessionId := none }) :
    wp (requestedReceipt identity) (fun value t => I t ∧ R value) (fun _ => I) I s := by
  simp only [requestedReceipt, wp_bind, wp_disk, wp_ite, wp_receipt, wp_pure]
  refine ⟨fun hnew => ⟨hreceipt hnew.1, hreceipt hnew.1, hstored hnew.1⟩, fun hold => ⟨hs, ?_⟩⟩
  cases hlookup : s.receipts.lookup identity with
  | some value => exact hread value hlookup
  | none =>
    refine hmissing hlookup ?_
    by_contra hinbox
    exact hold ⟨hlookup, Option.isSome_iff_ne_none.mpr hinbox⟩

theorem wp_requestedReceipts {identities : List Identity} {R : Receipt → Prop}
    (hreceipt : ∀ t identity, I t → t.receipts.lookup identity = none →
      I (withReceipt (stored identity) t) ∧ R (stored identity))
    (hread : ∀ t identity value, I t → t.receipts.lookup identity = some value → R value)
    (hmissing : ∀ t identity, I t → t.receipts.lookup identity = none →
      t.inbox.lookup identity = none →
        R { id := identity, state := .missing, detail := some "No inbox item was admitted."
            sessionId := none }) (hs : I s) :
    wp (requestedReceipts identities) (fun values t => I t ∧ ∀ value ∈ values, R value)
      (fun _ => I) I s := by
  induction identities generalizing s with
  | nil => exact wp_pure.mpr ⟨hs, nofun⟩
  | cons identity rest ih =>
    refine wp_seq (wp_requestedReceipt hs (fun hnone => (hreceipt s identity hs hnone).1)
      (fun hnone => (hreceipt s identity hs hnone).2) (fun value => hread s identity value hs)
      (hmissing s identity hs)) ?_
    rintro first t ⟨ht, hfirst⟩
    refine wp_seq (ih ht) ?_
    rintro others u ⟨hu, hothers⟩
    rw [wp_pure]
    refine ⟨hu, fun value hvalue => ?_⟩
    obtain rfl | hvalue := List.mem_cons.mp hvalue
    · exact hfirst
    · exact hothers value hvalue

variable [Hash Item]

/-- What the writes of an acknowledgement keep. -/
theorem wp_acknowledge {ack : Acknowledgement} (hs : I s)
    (hsent : ∀ t identity message, I t → ack = .stored identity →
      t.outbox.lookup identity = some message →
        I { t with sent := t.sent.insert identity message })
    (herase : ∀ t identity message, I t → ack = .stored identity →
      t.sent.lookup identity = some message → (∀ other, t.outbox.lookup identity = some other →
        other = message) → I { t with outbox := t.outbox.erase identity })
    (hrejection : ∀ t rejection, I t → ack = .rejected rejection →
      I { t with rejections := t.rejections.insert rejection.id rejection })
    (hretain : ∀ t rejection message, I t → ack = .rejected rejection →
      t.outbox.lookup rejection.id = some message → Hash.digest message = rejection.sha256 →
        (t.rejected.lookup rejection.id = none → I { t with
          rejected := t.rejected.insert rejection.id message
          outbox := t.outbox.erase rejection.id }) ∧
        (t.rejected.lookup rejection.id = some message →
          I { t with outbox := t.outbox.erase rejection.id })) :
    wp (acknowledge ack) (fun _ => I) (fun _ => I) I s := by
  cases ack with
  | stored identity =>
    simp only [acknowledge, wp_bind, wp_disk]
    cases hlookup : s.outbox.lookup identity with
    | none => exact wp_pure.mpr hs
    | some message =>
      simp only [wp_bind, wp_perform]
      have hmid := hsent s identity message hs rfl hlookup
      have hend := herase _ identity message hmid rfl (AList.lookup_insert s.sent)
        fun other hother => Option.some.inj (hother.symm.trans hlookup)
      exact ⟨hmid, hend, hend⟩
  | rejected rejection =>
    simp only [acknowledge, wp_bind, wp_disk, wp_demand, wp_refuseIf]
    refine ⟨fun _ => hs, fun source hsource => ⟨fun _ => hs, fun hdigest => ?_⟩⟩
    rw [not_not] at hdigest
    -- The refusal is written before the message moves.
    have hrecord : wp (recordRejection rejection)
        (fun _ t => I t ∧ t.outbox = s.outbox ∧ t.rejected = s.rejected) (fun _ => I) I s := by
      simp only [recordRejection, wp_bind, wp_disk, wp_ite, wp_perform, wp_pure]
      have hnext := hrejection s rejection hs rfl
      exact ⟨fun _ => ⟨hnext, hnext, trivial, trivial⟩, fun _ => ⟨hs, trivial, trivial⟩⟩
    refine wp_mono hrecord ?_ (fun _ _ h => h) fun _ h => h
    rintro - t ⟨ht, houtbox, hrejected⟩
    simp only [retain, wp_bind, wp_disk]
    cases hlookup : t.outbox.lookup rejection.id with
    | none => exact wp_pure.mpr ht
    | some message =>
      rw [← houtbox, hlookup, Option.some_or, Option.some.injEq] at hsource
      have hkeeps := hretain t rejection message ht rfl hlookup (hsource ▸ hdigest)
      cases hretained : t.rejected.lookup rejection.id with
      | some retained =>
        simp only [wp_bind, wp_refuseIf, wp_perform]
        refine ⟨fun _ => ht, fun hsame => ?_⟩
        rw [not_not] at hsame
        have hend := hkeeps.2 (hsame ▸ hretained)
        exact ⟨hend, hend⟩
      | none =>
        rw [wp_perform]
        exact ⟨hkeeps.1 hretained, hkeeps.1 hretained⟩

/-- An exchange on the node. -/
theorem wp_exchange {spec : Spec} {request : Request} {present : Bool} {R : Receipt → Prop}
    (hinbox : ∀ t item, I t → item ∈ request.deliveries → t.inbox.lookup item.id = none →
      I (withInbox item t))
    (hreceipt : ∀ t identity, I t → t.receipts.lookup identity = none →
      I (withReceipt (stored identity) t) ∧ R (stored identity))
    (hread : ∀ t identity value, I t → t.receipts.lookup identity = some value → R value)
    (hmissing : ∀ t identity, I t → t.receipts.lookup identity = none →
      t.inbox.lookup identity = none →
        R { id := identity, state := .missing, detail := some "No inbox item was admitted."
            sessionId := none })
    (hack : ∀ t ack, I t → ack ∈ request.outboxAcks →
      wp (acknowledge ack) (fun _ => I) (fun _ => I) I t) (hs : I s) :
    wp (exchange spec request present)
      (fun reply t => I t ∧ reply.outbox = t.pending ∧ ∀ value ∈ reply.receipts, R value)
      (fun _ => I) I s := by
  rw [exchange, wp_bind, wp_refuseIf]
  refine ⟨fun _ => hs, fun _ => ?_⟩
  have hadmit : wp (each request.deliveries fun item => do
      admitDelivery spec item
      admitReceipt item.id) (fun _ => I) (fun _ => I) I s := by
    refine wp_each (fun item hitem t ht => ?_) hs
    refine wp_seq (wp_admitDelivery ht (hinbox t item ht hitem)) fun _ u hu => ?_
    exact wp_admitReceipt hu fun hnone => (hreceipt u item.id hu hnone).1
  refine wp_seq hadmit fun _ t ht => ?_
  refine wp_seq (wp_each (fun ack hmem u hu => hack u ack hu hmem) ht) fun _ u hu => ?_
  rw [wp_bind, wp_refuseIf]
  refine ⟨fun _ => hu, fun _ => wp_seq (wp_requestedReceipts hreceipt hread hmissing hu) ?_⟩
  rintro values v ⟨hv, hvalues⟩
  rw [wp_bind, wp_disk, wp_pure]
  exact ⟨hv, rfl, hvalues⟩

end Exchange

section Others

/-- The tool sends a message. -/
theorem wp_send {request : Item} {valid : Bool} (hs : I s)
    (hwrite : ∀ value : Item, value = { request with id := request.idempotencyKey } →
      s.rejected.lookup value.id = none → s.sent.lookup value.id = none →
        s.outbox.lookup value.id = none → I { s with outbox := s.outbox.insert value.id value }) :
    wp (send request valid) (fun _ => I) (fun _ => I) I s := by
  simp only [send, wp_bind, wp_refuseIf, wp_disk]
  refine ⟨fun _ => hs, fun _ => ?_⟩
  cases hrejected : s.rejected.lookup request.idempotencyKey with
  | some retained =>
    simp only [wp_bind, wp_refuseIf, wp_demand, wp_pure]
    exact ⟨fun _ => hs, fun _ => ⟨fun _ => hs, fun _ _ => hs⟩⟩
  | none =>
    cases hsent : s.sent.lookup request.idempotencyKey with
    | some message =>
      simp only [wp_bind, wp_refuseIf, wp_pure]
      exact ⟨fun _ => hs, fun _ => hs⟩
    | none =>
      simp only [enqueue, wp_bind, wp_disk]
      cases houtbox : s.outbox.lookup request.idempotencyKey with
      | some pending =>
        simp only [wp_bind, wp_refuseIf, wp_pure]
        exact ⟨fun _ => hs, fun _ => hs⟩
      | none =>
        simp only [wp_bind, wp_refuseIf, wp_perform, wp_pure]
        have hnext := hwrite _ rfl hrejected hsent houtbox
        exact ⟨fun _ => hs, fun _ => ⟨hnext, hnext⟩⟩

/-- The tool reads a message. -/
theorem wp_read {identity : Identity} (hs : I s)
    (hreceipt : ∀ value current, s.inbox.lookup identity = some value →
      s.receipts.lookup identity = some current →
      (value.method ≠ .direct ∨ ¬(current.state = .uncertain ∨ current.state = .adapterSubmitted)) →
        I (withReceipt { id := identity, state := .toolRead
                         detail := some "Read through the registered local inbox tool."
                         sessionId := none } s)) :
    wp (read identity) (fun value t => I t ∧ s.inbox.lookup identity = some value) (fun _ => I) I
      s := by
  simp only [read, wp_bind, wp_disk, wp_demand, wp_ite, wp_receipt, wp_pure]
  refine ⟨fun _ => hs, fun value hvalue => ⟨fun _ => hs, fun current hcurrent =>
    ⟨fun hwrites => ?_, fun _ => ⟨hs, hvalue⟩⟩⟩⟩
  have hnext := hreceipt value current hvalue hcurrent hwrites
  exact ⟨hnext, hnext, hvalue⟩

/-- The next message for the runtime. It is uncertain before it is returned. -/
theorem wp_nextOf {spec : Spec} {session : Option String} {now : ℚ} {items : List Delivery}
    (hreceipt : ∀ t item current, I t → item ∈ items → t.receipts.lookup item.id = some current →
      current.state = .nodeStored → ∀ state detail sessionId,
        state = .cancelled ∨ state = .failed → I (withReceipt ⟨item.id, state, detail, sessionId⟩ t))
    {O : List Delivery → Folder → Prop} (hnone : ∀ t, I t → O [] t)
    (hnext : ∀ t item current, I t → item ∈ items → t.receipts.lookup item.id = some current →
      current.state = .nodeStored → item.method = .direct → ∀ detail,
        I (withReceipt ⟨item.id, .uncertain, detail, session⟩ t) ∧
          O [item] (withReceipt ⟨item.id, .uncertain, detail, session⟩ t)) (hs : I s) :
    wp (nextOf spec session now items) O (fun _ => I) I s := by
  induction items generalizing s with
  | nil => exact wp_pure.mpr (hnone s hs)
  | cons item rest ih =>
    have hrest {t : Folder} (ht : I t) : wp (nextOf spec session now rest) O (fun _ => I) I t :=
      ih (fun t other current ht hmem => hreceipt t other current ht (List.mem_cons_of_mem item hmem))
        (fun t other current ht hmem => hnext t other current ht (List.mem_cons_of_mem item hmem)) ht
    simp only [nextOf, wp_bind, wp_disk, wp_demand, wp_ite, wp_receipt, wp_pure]
    refine ⟨fun _ => hs, fun current hcurrent => ⟨fun _ => hrest hs, fun hready => ?_⟩⟩
    rw [not_or, not_not, not_not] at hready
    have hwrite (state : State) (detail : Option String)
        (hstate : state = .cancelled ∨ state = .failed) :=
      hreceipt s item current hs List.mem_cons_self hcurrent hready.2 state detail none hstate
    refine ⟨fun _ => ⟨hwrite _ _ (.inl rfl), hrest (hwrite _ _ (.inl rfl))⟩, fun _ =>
      ⟨fun _ => ⟨hwrite _ _ (.inr rfl), hrest (hwrite _ _ (.inr rfl))⟩, fun _ => ?_⟩⟩
    exact hnext s item current hs List.mem_cons_self hcurrent hready.2 hready.1 _

/-- A list of the files of a kind has only files that are there. -/
theorem lookup_of_mem_sorted {β : Type} {t : Table Identity β} {value : β}
    (h : value ∈ sorted t) : ∃ identity, t.lookup identity = some value := by
  obtain ⟨row, hrow, rfl⟩ := List.mem_map.mp h
  rw [List.mem_insertionSort] at hrow
  exact ⟨row.1, Table.mem_rows.mp hrow⟩

theorem wp_next {spec : Spec} {session : Option String} {now : ℚ} (hs : I s)
    (hreceipt : ∀ t value, I t → I (withReceipt value t)) :
    wp (next spec session now) (fun _ => I) (fun _ => I) I s := by
  simp only [next, wp_bind, wp_disk, wp_ite, wp_pure]
  refine ⟨fun _ => hs, fun _ => wp_nextOf (fun t _ _ ht _ _ _ _ _ _ _ => hreceipt t _ ht)
    (fun _ ht => ht) (fun t _ _ ht _ _ _ _ _ => ⟨hreceipt t _ ht, hreceipt t _ ht⟩) hs⟩

theorem wp_adapterReceipt {identity : Identity} {session : Option String} {state : State}
    {detail : String} (hs : I s)
    (hreceipt : ∀ current, s.receipts.lookup identity = some current → state ∈ adapterStates →
      ¬(current.state = .sessionIncluded ∨ current.state = .toolRead) →
        I (withReceipt ⟨identity, state, some detail, session⟩ s)) :
    wp (adapterReceipt identity session state detail) (fun _ => I) (fun _ => I) I s := by
  simp only [adapterReceipt, wp_bind, wp_disk, wp_demand, wp_refuseIf, wp_ite, wp_pure, wp_receipt]
  refine ⟨fun _ => hs, fun _ _ => ⟨fun _ => hs, fun _ => ⟨fun _ => hs, fun hstate => ⟨fun _ => hs,
    fun current hcurrent => ⟨fun _ => hs, fun _ => ⟨fun _ => hs, fun hfinal => ?_⟩⟩⟩⟩⟩⟩
  have hnext := hreceipt current hcurrent (not_not.mp hstate) hfinal
  exact ⟨hnext, hnext⟩

/-- The actions that write the runtime file. -/
theorem wp_runtime (hs : I s) (hruntime : ∀ runtime, I { s with runtime }) :
    (∀ session, wp (register session) (fun _ => I) (fun _ => I) I s) ∧
    (∀ session expected, wp (suspend session expected) (fun _ => I) (fun _ => I) I s) ∧
    (∀ session, wp (rebind session) (fun _ => I) (fun _ => I) I s) ∧
    wp exited (fun _ => I) (fun _ => I) I s := by
  refine ⟨fun session => ?_, fun session expected => ?_, fun session => ?_, ?_⟩
  · simp only [register, saveRuntime, wp_bind, wp_disk, wp_ite, wp_perform]
    exact ⟨fun _ => ⟨hruntime _, hruntime _⟩, fun _ => ⟨fun _ => ⟨hruntime _, hruntime _⟩,
      fun _ => ⟨hs, hs⟩⟩⟩
  · simp only [suspend, saveRuntime, wp_bind, wp_disk, wp_ite, wp_perform, wp_pure]
    exact ⟨fun _ => hs, fun _ => ⟨hruntime _, hruntime _⟩⟩
  · simp only [rebind, saveRuntime, wp_bind, wp_disk, wp_refuseIf, wp_perform]
    exact ⟨fun _ => hs, fun _ => ⟨fun _ => hs, fun _ => ⟨hruntime _, hruntime _⟩⟩⟩
  · simp only [exited, saveRuntime, wp_bind, wp_disk, wp_ite, wp_perform, wp_pure]
    exact ⟨fun _ => ⟨hruntime _, hruntime _⟩, fun _ => hs⟩

theorem wp_stop (hs : I s)
    (hreceipt : ∀ t value, I t → value ∈ s.receipts.values → value.state = .nodeStored →
      ∀ detail, I (withReceipt ⟨value.id, .cancelled, detail, none⟩ t))
    (hruntime : ∀ t runtime, I t → I { t with runtime }) :
    wp stop (fun _ => I) (fun _ => I) I s := by
  simp only [stop, wp_bind, wp_disk]
  refine wp_mono (wp_each (fun value hvalue t ht => ?_) hs) (fun _ t ht => ?_) (fun _ _ h => h)
    fun _ h => h
  · simp only [cancelStored, wp_ite, wp_bind, wp_receipt, wp_pure]
    exact ⟨fun hstored => ⟨hreceipt t value ht hvalue hstored _, hreceipt t value ht hvalue hstored _⟩,
      fun _ => ht⟩
  · rw [saveRuntime, wp_perform]
    exact ⟨hruntime t _ ht, hruntime t _ ht⟩

theorem wp_retire {present : Bool} (hs : I s)
    (harchive : s.outbox.keys = [] → I { s with archived := true }) :
    wp (retire present) (fun _ => I) (fun _ => I) I s := by
  simp only [retire, wp_bind, wp_disk, wp_ite, wp_pure, wp_refuseIf, wp_perform]
  refine ⟨fun _ => hs, fun _ => ⟨fun _ => hs, fun _ => ⟨fun _ => hs, fun houtbox =>
    ⟨fun _ => hs, fun _ => ⟨fun _ => hs, fun _ => ?_⟩⟩⟩⟩⟩
  have hnext := harchive (not_not.mp houtbox)
  exact ⟨hnext, hnext⟩

end Others

end Folder

namespace Host

variable {s : Host} {I : Host → Prop}

/-- The records with the record of the agent. -/
def withAgent (agent : Agent) (s : Host) : Host :=
  { s with agent, log := s.log ++ rejections agent.outboxAcks }

/-- The records with a delivery. -/
def withDelivery (value : Recipient) (s : Host) : Host :=
  { s with deliveries := s.deliveries.insert value.id value }

/-- The records with a message and its deliveries. -/
def withMessage (message : Message) (checks : Checks) (s : Host) : Host :=
  { s with
    messages := s.messages.insert message.id message
    deliveries := (message.intent.recipientIds.zip checks.deliveryIds).foldl
      (fun deliveries (agentId, id) => deliveries.insert id
        { id, messageId := message.id, agentId, method := message.intent.delivery
          state := .hostStored, detail := none }) s.deliveries
    log := s.log ++ [.stored message.origin message.digest] }

section Basic

variable {raised : Error → Host → Prop} {during : Host → Prop}

@[simp]
theorem wp_saveAgent {ok : Unit → Host → Prop} {agent : Agent} :
    wp (saveAgent agent) ok raised during s ↔
      during (withAgent agent s) ∧ ok () (withAgent agent s) :=
  wp_perform

@[simp]
theorem wp_saveDelivery {ok : Unit → Host → Prop} {value : Recipient} :
    wp (saveDelivery value) ok raised during s ↔
      during (withDelivery value s) ∧ ok () (withDelivery value s) :=
  wp_perform

theorem wp_raising {ok : Unit → Host → Prop} {error : Option Error} (hok : ok () s)
    (hraised : ∀ e, raised e s) : wp (raising error) ok raised during s := by
  cases error with
  | none => exact wp_check.mpr ⟨fun _ _ => hok, fun e _ => hraised e⟩
  | some e => exact wp_check.mpr ⟨fun _ _ => hok, fun e _ => hraised e⟩

theorem wp_checkRun {ok : RunState → Host → Prop} {checks : Checks}
    (hok : ∀ run, s.run = some run → ok run s) (hraised : ∀ e, raised e s) :
    wp (checkRun checks) ok raised during s := by
  simp only [checkRun, wp_bind, wp_disk, wp_demand]
  refine ⟨fun _ => hraised _, fun run hrun => wp_raising ?_ hraised⟩
  exact wp_pure.mpr (hok run hrun)

end Basic

/-- The message with an origin. -/
theorem find_eq_some {origin : Origin} {message : Message} (h : s.find origin = some message) :
    message.origin = origin ∧ ∃ identity, s.messages.lookup identity = some message := by
  have hmem := List.mem_of_find?_eq_some h
  have horigin := List.find?_some h
  exact ⟨of_decide_eq_true horigin, Table.mem_values.mp hmem⟩

theorem find_eq_none {origin : Origin} (h : s.find origin = none) {identity : Identity}
    {message : Message} (hlookup : s.messages.lookup identity = some message) :
    message.origin ≠ origin := by
  have hnot := List.find?_eq_none.mp h message (Table.mem_values.mpr ⟨identity, hlookup⟩)
  simpa using hnot

section Deliveries

variable {spec : Spec}

theorem wp_mark {state : State} {detail : String} {identity : Identity} (hs : I s)
    (hwrite : ∀ value, s.deliveries.lookup identity = some value →
      I (withDelivery { value with state, detail := some detail } s)) :
    wp (mark state detail identity) (fun _ => I) (fun _ => I) I s := by
  simp only [mark, wp_bind, wp_disk]
  cases hlookup : s.deliveries.lookup identity with
  | none => exact wp_pure.mpr hs
  | some value =>
    rw [wp_saveDelivery]
    exact ⟨hwrite value hlookup, hwrite value hlookup⟩

/-- A delivery is chosen, or it is cancelled. -/
theorem wp_choose {choice : Choice} {O : Option Delivery → Host → Prop} (hnone : O none s)
    (hchosen : ∀ value payload, s.deliveries.lookup choice.id = some value →
      value.agentId = spec.agentId → value.state = .hostStored → payload.id = value.id →
        O (some payload) s)
    (hcancel : ∀ value, s.deliveries.lookup choice.id = some value →
      value.agentId = spec.agentId → value.state = .hostStored → ∀ detail,
        I (withDelivery { value with state := .cancelled, detail } s) ∧
          O none (withDelivery { value with state := .cancelled, detail } s)) :
    wp (choose spec choice) O (fun _ => I) I s := by
  rw [choose, wp_bind, wp_disk]
  cases hlookup : s.deliveries.lookup choice.id with
  | none => exact wp_pure.mpr hnone
  | some value =>
    rw [wp_ite, wp_pure]
    refine ⟨fun _ => hnone, fun hready => ?_⟩
    rw [not_or, not_not, not_not] at hready
    cases hpayload : choice.expires.bind (s.deliveryPayload spec value) with
    | some payload =>
      refine wp_pure.mpr (hchosen value payload hlookup hready.1 hready.2 ?_)
      obtain ⟨expires, -, hmessage⟩ := Option.bind_eq_some_iff.mp hpayload
      obtain ⟨message, -, rfl⟩ := Option.map_eq_some_iff.mp hmessage
      rfl
    | none =>
      have hnext := hcancel value hlookup hready.1 hready.2
      simp only [cancelExpired, wp_bind, wp_saveDelivery, wp_pure]
      exact ⟨(hnext _).1, (hnext _).2⟩

/-- A receipt is applied to its delivery. -/
theorem wp_applyReceipt {receiptIds : List Identity} {receipt : Receipt} (hs : I s)
    (hwrite : ∀ saved state, receipt.id ∈ receiptIds →
      s.deliveries.lookup receipt.id = some saved → saved.agentId = spec.agentId →
      ¬saved.state.Settled → receivedState saved receipt = .ok state →
        I (withDelivery { saved with state, detail := receipt.detail } s)) :
    wp (applyReceipt spec receiptIds receipt) (fun _ => I) (fun _ => I) I s := by
  simp only [applyReceipt, wp_bind, wp_refuseIf, wp_disk, wp_demand, wp_ite, wp_pure, wp_check,
    wp_saveDelivery]
  refine ⟨fun _ => hs, fun hasked => ⟨fun _ => hs, fun saved hsaved => ⟨fun _ => hs, fun hagent =>
    ⟨fun _ => hs, fun hopen => ⟨fun state hstate => ?_, fun _ _ => hs⟩⟩⟩⟩⟩
  have hnext := hwrite saved state (not_not.mp (not_or.mp hasked).1) hsaved (not_not.mp hagent)
    hopen hstate
  exact ⟨hnext, hnext⟩

/-- Only what has not been submitted is cancelled. -/
theorem wp_cancelUnsubmitted (hs : I s)
    (hwrite : ∀ t identity value, I t → t.deliveries.lookup identity = some value →
      (∃ old ∈ s.deliveries.values, old.id = identity ∧ old.agentId = spec.agentId ∧
        old.state = .hostStored) →
        ∀ detail, I (withDelivery { value with state := .cancelled, detail } t)) :
    wp (cancelUnsubmitted spec) (fun _ => I) (fun _ => I) I s := by
  simp only [cancelUnsubmitted, wp_bind, wp_disk]
  refine wp_each (fun identity hidentity t ht => ?_) hs
  refine wp_mark ht fun value hvalue => hwrite t identity value ht hvalue ?_ _
  obtain ⟨old, hold, rfl⟩ := List.mem_map.mp hidentity
  rw [List.mem_filter, decide_eq_true_eq] at hold
  exact ⟨old, hold.1, rfl, hold.2⟩

theorem wp_close {checks : Checks} (hs : I s)
    (hclose : s.run.isSome → I { s with run := some .closed }) :
    wp (close spec checks) (fun _ => I) (fun _ => I) I s := by
  rw [close]
  refine wp_bind.mpr (wp_checkRun (fun run hrun => ?_) fun _ => hs)
  simp only [wp_bind, wp_disk, wp_refuseIf, wp_perform]
  have hnext := hclose (by rw [hrun]; rfl)
  exact ⟨fun _ => hs, fun _ => ⟨fun _ => hs, fun _ => ⟨hnext, hnext⟩⟩⟩

end Deliveries

section Storing

variable [Hash Intent] {origin : Origin} {senderId : String} {intent : Intent} {checks : Checks}

/-- A message is found or stored. -/
theorem wp_send {O : Message → Host → Prop} (hs : I s)
    (hfound : ∀ previous, s.find origin = some previous →
      previous.digest = Hash.digest intent → O previous s)
    (hnew : s.find origin = none → s.run = some .opened → ∀ message,
      message = ⟨checks.messageId, origin, Hash.digest intent, senderId, intent⟩ →
        I (withMessage message checks s) ∧ O message (withMessage message checks s)) :
    wp (send origin senderId intent checks) O (fun _ => I) I s := by
  rw [send]
  refine wp_bind.mpr (wp_checkRun (fun run hrun => ?_) fun _ => hs)
  rw [wp_bind, wp_disk]
  cases hfind : s.find origin with
  | some previous =>
    simp only [wp_bind, wp_refuseIf, wp_pure]
    exact ⟨fun _ => hs, fun hsame => hfound previous hfind (not_not.mp hsame)⟩
  | none =>
    show wp (publish run _ checks) O (fun _ => I) I s
    rw [publish, wp_bind, wp_refuseIf]
    refine ⟨fun _ => hs, fun hopen => wp_bind.mpr (wp_raising ?_ fun _ => hs)⟩
    have hnext := hnew hfind (hrun.trans (congrArg some (not_not.mp hopen))) _ rfl
    rw [wp_bind, transact, wp_perform]
    refine ⟨hnext.1, wp_bind.mpr (wp_raising ?_ fun _ => hnext.1)⟩
    exact wp_pure.mpr hnext.2

/-- A message of the agent is accepted. -/
theorem wp_accept {spec : Spec} {item : Item} {O : Message → Host → Prop} (hs : I s)
    (hfound : ∀ previous, s.find (.agent spec.agentId item.id) = some previous →
      previous.digest = Hash.digest (intentOf spec item) → O previous s)
    (hnew : s.find (.agent spec.agentId item.id) = none → s.run = some .opened → ∀ message,
      message = ⟨checks.messageId, .agent spec.agentId item.id, Hash.digest (intentOf spec item),
        senderId, intentOf spec item⟩ →
        I (withMessage message checks s) ∧ O message (withMessage message checks s)) :
    wp (accept spec senderId item checks) O (fun _ => I) I s := by
  rw [accept]
  refine wp_bind.mpr (wp_checkRun (fun _ _ => ?_) fun _ => hs)
  rw [wp_bind, wp_refuseIf]
  refine ⟨fun _ => hs, fun hvalid => ?_⟩
  have hkey : item.id = item.idempotencyKey := not_not.mp (not_or.mp hvalid).2
  rw [← hkey]
  exact wp_send hs hfound hnew

variable [Hash Item] {spec : Spec}

/-- The messages of the agent one after the other, with what is known of the messages that are left
and of the record in memory. -/
theorem wp_collectFrom {K : List (Item × Checks) → Agent → Host → Prop} {D : Item → Host → Prop}
    (hI : ∀ rest agent t, K rest agent t → I t)
    (haccept : ∀ item checks rest agent t, K ((item, checks) :: rest) agent t →
      wp (accept spec senderId item checks) (fun _ u => K rest agent u ∧ D item u)
        (fun _ u => K rest agent u) I t)
    (hstored : ∀ item rest agent t, K rest agent t → D item t →
      K rest { agent with outboxAcks := agent.outboxAcks ++ [.stored item.id] }
        (withAgent { agent with outboxAcks := agent.outboxAcks ++ [.stored item.id] } t))
    (hrefused : ∀ item rest agent t code message now, K rest agent t →
      K rest (refused agent item code message now)
        (withAgent (refused agent item code message now) t))
    {outbox : List (Item × Checks)} {agent : Agent} (hs : K outbox agent s) :
    wp (collectFrom spec senderId agent outbox) (fun result t => ∃ rest, K rest result.1 t)
      (fun _ => I) I s := by
  induction outbox generalizing agent s with
  | nil => exact wp_pure.mpr ⟨[], hs⟩
  | cons entry rest ih =>
    obtain ⟨item, checks⟩ := entry
    rw [collectFrom, wp_bind, wp_attempt]
    have hgo {agent : Agent} {t : Host} (ht : K rest agent t) (error : Option Error) :
        wp (if error.isSome = true then pure (agent, error) else
          collectFrom spec senderId agent rest) (fun result t => ∃ rest, K rest result.1 t)
          (fun _ => I) I t := by
      rw [wp_ite, wp_pure]
      exact ⟨fun _ => ⟨rest, ht⟩, fun _ => ih ht⟩
    refine wp_mono (haccept item checks rest agent s hs) ?_ ?_ fun _ h => h
    · rintro message t ⟨ht, hdone⟩
      have hnext := hstored item rest agent t ht hdone
      simp only [settle, wp_bind, wp_saveAgent, wp_pure]
      exact ⟨hI _ _ _ hnext, hgo hnext none⟩
    · intro error t ht
      cases error with
      | failure code message status =>
        have hnext := hrefused item rest agent t code message checks.now ht
        simp only [settle, wp_bind, wp_ite, wp_saveAgent, wp_pure]
        exact ⟨fun _ => ⟨hI _ _ _ hnext, fun _ => ⟨rest, hnext⟩, fun _ => ih hnext⟩,
          fun _ => ⟨fun _ => ⟨rest, ht⟩, fun _ => ih ht⟩⟩
      | conflict text => exact wp_bind.mpr (wp_pure.mpr (hgo ht (some (.conflict text))))
      | value text => exact wp_bind.mpr (wp_pure.mpr (hgo ht (some (.value text))))
      | os => exact wp_bind.mpr (wp_pure.mpr (hgo ht (some .os)))
      | integrity => exact wp_bind.mpr (wp_pure.mpr (hgo ht (some .integrity)))

/-- The end of an exchange. A reply that fails leaves the record of the agent as it was read. -/
theorem wp_endExchange {waiting : Waiting} {reply : Reply} {checks : Identity → Checks}
    {J : Host → Prop}
    (hreceipts : wp (applyReceipts spec waiting reply) (fun _ => J) (fun _ => J) I s)
    (hfailed : ∀ t, J t → I (withAgent { waiting.agent with state := reply.state } t))
    (hcollect : ∀ t, J t → wp (collectFrom spec senderId
      { waiting.agent with state := reply.state, outboxAcks := [] }
        (reply.outbox.map fun item => (item, checks item.id)))
      (fun result u => I u ∧ I (withAgent result.1 u)) (fun _ => I) I t) :
    wp (endExchange spec senderId waiting reply checks) (fun _ => I) (fun _ => I) I s := by
  rw [endExchange, wp_bind, wp_attempt]
  refine wp_mono hreceipts (fun _ t ht => ?_) (fun _ t ht => ?_) fun _ h => h
  · show wp (collect spec senderId _ _) _ _ _ t
    rw [collect]
    refine wp_seq (hcollect t ht) ?_
    rintro ⟨agent, error⟩ u ⟨hu, hsaved⟩
    rw [wp_ite, wp_check, wp_saveAgent]
    exact ⟨fun _ => ⟨fun _ _ => hu, fun _ _ => hu⟩, fun _ => ⟨hsaved, hsaved⟩⟩
  · show wp (saveAgent _) _ _ _ t
    rw [wp_saveAgent]
    exact ⟨hfailed t ht, hfailed t ht⟩

end Storing

end Host

end Ficc.Agents
