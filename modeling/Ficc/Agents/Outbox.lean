import Ficc.Agents.Actions
import Ficc.Agents.Machine

/-!
# Messages from an agent are stored once

A message that the agent has sent has one content for ever, wherever its file is (`Single`). The
host answers for a message only after it has stored it or written its refusal (`Justified`), so an
acknowledgement may be lost, repeated or late. `outbox_exactly_once` follows for every run.
-/

namespace Ficc.Agents

open Execution (Identity Digest Hash)
open Durable

namespace Folder

/-- A message from the agent is in one of the three places. -/
def Holds (s : Folder) (identity : Identity) (item : Item) : Prop :=
  s.outbox.lookup identity = some item ∨ s.sent.lookup identity = some item ∨
    s.rejected.lookup identity = some item

/-- An identity has one content for ever. -/
structure Single (s : Folder) : Prop where
  unique : ∀ {identity first second}, s.Holds identity first → s.Holds identity second →
    first = second
  keyed : ∀ {identity item}, s.Holds identity item →
    item.id = identity ∧ item.idempotencyKey = identity

/-- The messages are where they were. -/
def SameOutbox (s t : Folder) : Prop :=
  t.outbox = s.outbox ∧ t.sent = s.sent ∧ t.rejected = s.rejected

variable {s t : Folder}

theorem SameOutbox.holds (h : SameOutbox s t) {identity : Identity} {item : Item} :
    t.Holds identity item ↔ s.Holds identity item := by
  obtain ⟨houtbox, hsent, hrejected⟩ := h
  rw [Holds, Holds, houtbox, hsent, hrejected]

variable [Hash Item]

/-- A message may leave the outbox for one of the acknowledgements. -/
def Released (acks : List Acknowledgement) (identity : Identity) (item : Item) : Prop :=
  .stored identity ∈ acks ∨ ∃ rejection : Rejection, .rejected rejection ∈ acks ∧
    rejection.id = identity ∧ Hash.digest item = rejection.sha256

/-- What an action with the given acknowledgements does to the messages from the agent. -/
structure Moves (acks : List Acknowledgement) (s t : Folder) : Prop where
  single : t.Single
  holds : ∀ {identity item}, s.Holds identity item → t.Holds identity item
  leaves : ∀ {identity item}, s.outbox.lookup identity = some item →
    t.outbox.lookup identity = some item ∨ Released acks identity item

theorem Moves.refl {acks : List Acknowledgement} (h : s.Single) : Moves acks s s :=
  ⟨h, fun h => h, .inl⟩

theorem Moves.same {acks : List Acknowledgement} {u : Folder} (h : Moves acks s t)
    (hsame : SameOutbox t u) : Moves acks s u := by
  refine ⟨⟨fun hfirst hsecond => ?_, fun hitem => ?_⟩, fun hitem => ?_, fun hitem => ?_⟩
  · exact h.single.unique (hsame.holds.mp hfirst) (hsame.holds.mp hsecond)
  · exact h.single.keyed (hsame.holds.mp hitem)
  · exact hsame.holds.mpr (h.holds hitem)
  · rw [hsame.1]
    exact h.leaves hitem

/-- A message that is copied to another place is still the same message. -/
theorem Moves.copy {acks : List Acknowledgement} {u : Folder} (h : Moves acks s t)
    {identity : Identity} {message : Item} (hmessage : t.Holds identity message)
    (hinto : ∀ other item, u.Holds other item → t.Holds other item ∨ other = identity ∧ item = message)
    (hfrom : ∀ other item, t.Holds other item → u.Holds other item)
    (hleaves : ∀ other item, t.outbox.lookup other = some item → u.outbox.lookup other = some item ∨ Released acks other item) :
    Moves acks s u := by
  have hback {other : Identity} {item : Item} (hitem : u.Holds other item) : t.Holds other item := by
    obtain hitem | ⟨rfl, rfl⟩ := hinto other item hitem
    · exact hitem
    · exact hmessage
  refine ⟨⟨fun hfirst hsecond => h.single.unique (hback hfirst) (hback hsecond), fun hitem =>
    h.single.keyed (hback hitem)⟩, fun hitem => hfrom _ _ (h.holds hitem), fun hitem => ?_⟩
  obtain hitem | hreleased := h.leaves hitem
  · exact hleaves _ _ hitem
  · exact .inr hreleased

/-- An acknowledgement moves only the message that it is about. -/
theorem Moves.wp_acknowledge {acks : List Acknowledgement} (h : Moves acks s t)
    {ack : Acknowledgement} (hack : ack ∈ acks) :
    wp (acknowledge ack) (fun _ => Moves acks s) (fun _ => Moves acks s) (Moves acks s) t := by
  refine Folder.wp_acknowledge h ?_ ?_ (fun u rejection hu _ => hu.same ⟨rfl, rfl, rfl⟩) ?_
  · -- The message is copied to the ones that were sent.
    rintro u identity message hu - hlookup
    refine hu.copy (.inl hlookup) (fun other item hitem => ?_) (fun other item hitem => ?_)
      fun other item => .inl
    · simp only [Holds, Table.lookup_insert_eq] at hitem ⊢
      split_ifs at hitem with heq
      · subst heq
        rcases hitem with hitem | hitem | hitem
        · exact .inl (.inl hitem)
        · exact .inr ⟨rfl, (Option.some.inj hitem).symm⟩
        · exact .inl (.inr (.inr hitem))
      · exact .inl hitem
    · simp only [Holds, Table.lookup_insert_eq] at hitem ⊢
      split_ifs with heq
      · subst heq
        have hsame : item = message := hu.single.unique hitem (.inl hlookup)
        exact .inr (.inl (by rw [hsame]))
      · exact hitem
  · -- It leaves the outbox.
    rintro u identity message hu rfl hsent hsame
    refine hu.copy (.inr (.inl hsent)) (fun other item hitem => .inl ?_)
      (fun other item hitem => ?_) fun other item hitem => ?_
    · simp only [Holds, Table.lookup_erase_eq] at hitem ⊢
      split_ifs at hitem with heq
      · exact .inr (hitem.resolve_left nofun)
      · exact hitem
    · simp only [Holds, Table.lookup_erase_eq] at hitem ⊢
      split_ifs with heq
      · subst heq
        obtain hitem | hitem := hitem
        · exact .inr (.inl (hsame item hitem ▸ hsent))
        · exact .inr hitem
      · exact hitem
    · simp only [Table.lookup_erase_eq]
      split_ifs with heq
      · subst heq
        exact .inr (.inl hack)
      · exact .inl hitem
  · -- A refused message is kept apart.
    rintro u rejection message hu rfl hlookup hdigest
    have hrelease (other : Identity) (item : Item) (hitem : u.outbox.lookup other = some item) :
        (u.outbox.erase rejection.id).lookup other = some item ∨ Released acks other item := by
      rw [Table.lookup_erase_eq]
      split_ifs with heq
      · subst heq
        obtain rfl := Option.some.inj (hitem.symm.trans hlookup)
        exact .inr (.inr ⟨rejection, hack, rfl, hdigest⟩)
      · exact .inl hitem
    refine ⟨fun hnone => ?_, fun hretained => ?_⟩
    · refine hu.copy (.inl hlookup) (fun other item hitem => ?_) (fun other item hitem => ?_)
        hrelease
      · simp only [Holds, Table.lookup_erase_eq, Table.lookup_insert_eq] at hitem ⊢
        split_ifs at hitem with heq
        · rcases hitem with hitem | hitem | hitem
          · cases hitem
          · exact .inl (.inr (.inl hitem))
          · exact .inr ⟨heq, (Option.some.inj hitem).symm⟩
        · exact .inl hitem
      · simp only [Holds, Table.lookup_erase_eq, Table.lookup_insert_eq] at hitem ⊢
        split_ifs with heq
        · subst heq
          have hsame : item = message := hu.single.unique hitem (.inl hlookup)
          exact .inr (.inr (by rw [hsame]))
        · exact hitem
    · refine hu.copy (.inr (.inr hretained)) (fun other item hitem => .inl ?_)
        (fun other item hitem => ?_) hrelease
      · simp only [Holds, Table.lookup_erase_eq] at hitem ⊢
        split_ifs at hitem with heq
        · exact .inr (hitem.resolve_left nofun)
        · exact hitem
      · simp only [Holds, Table.lookup_erase_eq] at hitem ⊢
        split_ifs with heq
        · subst heq
          have hsame : item = message := hu.single.unique hitem (.inl hlookup)
          exact .inr (.inr (by rw [hsame]; exact hretained))
        · exact hitem

/-- An exchange replies only with messages of the agent. -/
theorem Single.wp_exchange (h : s.Single) {spec : Spec} {request : Request} {present : Bool} :
    wp (exchange spec request present)
      (fun reply t => Moves request.outboxAcks s t ∧ reply.outbox = t.pending ∧ ∀ value ∈
        reply.receipts, True)
      (fun _ => Moves request.outboxAcks s) (Moves request.outboxAcks s) s :=
  Folder.wp_exchange (fun _ _ ht _ _ => ht.same ⟨rfl, rfl, rfl⟩)
    (fun _ _ ht _ => ⟨ht.same ⟨rfl, rfl, rfl⟩, trivial⟩) (fun _ _ _ _ _ => trivial)
    (fun _ _ _ _ _ => trivial) (fun _ _ ht hack => ht.wp_acknowledge hack) (.refl h)

/-- The tool sends a message under an identity that is not in use. -/
theorem Single.wp_send (h : s.Single) {request : Item} {valid : Bool} :
    wp (send request valid) (fun _ => Moves [] s) (fun _ => Moves [] s) (Moves [] s) s := by
  refine Folder.wp_send (.refl h) ?_
  rintro value rfl hrejected hsent houtbox
  refine ⟨⟨?_, ?_⟩, ?_, ?_⟩
  · intro identity first second hfirst hsecond
    simp only [Holds, Table.lookup_insert_eq] at hfirst hsecond
    split_ifs at hfirst hsecond with heq
    · subst heq
      simp only [hsent, hrejected, reduceCtorEq, or_false, Option.some.injEq] at hfirst hsecond
      exact hfirst.symm.trans hsecond
    · exact h.unique hfirst hsecond
  · intro identity item hitem
    simp only [Holds, Table.lookup_insert_eq] at hitem
    split_ifs at hitem with heq
    · subst heq
      simp only [hsent, hrejected, reduceCtorEq, or_false, Option.some.injEq] at hitem
      subst hitem
      exact ⟨rfl, rfl⟩
    · exact h.keyed hitem
  · intro identity item hitem
    simp only [Holds, Table.lookup_insert_eq]
    split_ifs with heq
    · subst heq
      simp only [Holds, houtbox, hsent, hrejected, reduceCtorEq, or_self] at hitem
    · exact hitem
  · intro identity item hitem
    rw [Table.lookup_insert_eq]
    split_ifs with heq
    · subst heq
      rw [houtbox] at hitem
      cases hitem
    · exact .inl hitem

end Folder

namespace Host

variable [Hash Intent] {spec : Spec} {folder : Folder} {base s : Host}

/-- The decision is to store the message of the origin. -/
def Stores (origin : Origin) : Decision → Bool
  | .stored other _ => other = origin
  | .rejected _ => false

/-- The host has stored the message or written its refusal before it has answered. -/
def Justified (spec : Spec) (folder : Folder) (log : List Decision) : Acknowledgement → Prop
  | .stored identity => ∃ item, folder.Holds identity item ∧
      .stored (.agent spec.agentId identity) (Hash.digest (intentOf spec item)) ∈ log
  | .rejected rejection => .rejected rejection ∈ log

theorem Justified.mono {log log' : List Decision} {folder' : Folder} {ack : Acknowledgement}
    (h : Justified spec folder log ack) (hlog : ∀ decision ∈ log, decision ∈ log')
    (hholds : ∀ {identity item}, folder.Holds identity item → folder'.Holds identity item) :
    Justified spec folder' log' ack := by
  cases ack with
  | stored identity =>
    obtain ⟨item, hitem, hstored⟩ := h
    exact ⟨item, hholds hitem, hlog _ hstored⟩
  | rejected rejection => exact hlog _ h

/-- The messages that are stored are those that were ever stored, until the run is archived. Each
origin has stored one message at most. The state comes after `base`. -/
structure Logged (base s : Host) : Prop where
  past : ∀ decision ∈ base.log, decision ∈ s.log
  opened : s.run = none → base.run = none
  once : ∀ origin, s.log.countP (Stores origin) ≤ 1
  stored : ∀ {origin digest}, .stored origin digest ∈ s.log → s.run.isSome →
    ∃ identity message, s.messages.lookup identity = some message ∧ message.origin = origin ∧
      message.digest = digest
  logged : ∀ {identity message}, s.messages.lookup identity = some message →
    .stored message.origin message.digest ∈ s.log
  unique : ∀ {first second message message'}, s.messages.lookup first = some message →
    s.messages.lookup second = some message' → message.origin = message'.origin → first = second

/-- What holds of the records of the controller. -/
structure Recorded (spec : Spec) (folder : Folder) (base s : Host) : Prop extends
    Logged base s where
  acks : ∀ ack ∈ s.agent.outboxAcks, Justified spec folder s.log ack

theorem Recorded.rebase (h : Recorded spec folder base s) : Recorded spec folder s s :=
  ⟨⟨fun _ hdecision => hdecision, fun hrun => hrun, h.once, h.stored, h.logged, h.unique⟩, h.acks⟩

/-- A record of the agent in memory, with answers that are justified. -/
def Answers (spec : Spec) (folder : Folder) (base : Host) (agent : Agent) (s : Host) : Prop :=
  Recorded spec folder base s ∧ ∀ ack ∈ agent.outboxAcks, Justified spec folder s.log ack

section Log

omit [Hash Intent]

theorem mem_rejections {acks : List Acknowledgement} {rejection : Rejection} :
    .rejected rejection ∈ rejections acks ↔ .rejected rejection ∈ acks := by
  simp only [rejections, List.mem_filterMap]
  constructor
  · rintro ⟨ack, hack, heq⟩
    cases ack with
    | stored identity => cases heq
    | rejected other =>
      obtain rfl : other = rejection := by simpa using heq
      exact hack
  · intro h
    exact ⟨_, h, rfl⟩

theorem not_stored_mem_rejections {acks : List Acknowledgement} {origin : Origin}
    {digest : Digest} : .stored origin digest ∉ rejections acks := by
  simp only [rejections, List.mem_filterMap, not_exists, not_and]
  rintro (identity | rejection) _ heq <;> cases heq

theorem countP_rejections {acks : List Acknowledgement} {origin : Origin} :
    (rejections acks).countP (Stores origin) = 0 := by
  rw [List.countP_eq_zero]
  intro decision hdecision
  cases decision with
  | stored other digest => exact absurd hdecision not_stored_mem_rejections
  | rejected rejection => simp [Stores]

theorem Logged.withAgent (h : Logged base s) (agent : Agent) : Logged base (withAgent agent s) := by
  refine ⟨fun decision hdecision => List.mem_append_left _ (h.past decision hdecision), h.opened,
    fun origin => ?_, fun hstored => ?_, fun hlookup => ?_, h.unique⟩
  · simp only [Host.withAgent, List.countP_append, countP_rejections, Nat.add_zero]
    exact h.once origin
  · obtain hstored | hstored := List.mem_append.mp hstored
    · exact h.stored hstored
    · exact absurd hstored not_stored_mem_rejections
  · exact List.mem_append_left _ (h.logged hlookup)

/-- A message is stored under an identity and an origin that are not in use. -/
theorem Logged.withMessage (h : Logged base s) {message : Message} {checks : Checks}
    (hrun : s.run.isSome) (hfresh : s.messages.lookup message.id = none)
    (hfind : s.find message.origin = none) : Logged base (withMessage message checks s) := by
  have hold {identity : Identity} {other : Message}
      (hlookup : s.messages.lookup identity = some other) :
      (Host.withMessage message checks s).messages.lookup identity = some other := by
    simp only [Host.withMessage, Table.lookup_insert_eq]
    split_ifs with heq
    · rw [heq, hfresh] at hlookup
      cases hlookup
    · exact hlookup
  have hnew {identity : Identity} {other : Message}
      (hlookup : (Host.withMessage message checks s).messages.lookup identity = some other) :
      (identity = message.id ∧ other = message) ∨ s.messages.lookup identity = some other := by
    simp only [Host.withMessage, Table.lookup_insert_eq] at hlookup
    split_ifs at hlookup with heq
    · exact .inl ⟨heq, (Option.some.inj hlookup).symm⟩
    · exact .inr hlookup
  refine ⟨fun decision hdecision => List.mem_append_left _ (h.past decision hdecision), h.opened,
    fun origin => ?_, fun {origin digest} hstored hopen => ?_, fun {identity other} hlookup => ?_,
    fun {first second one two} hfirst hsecond horigin => ?_⟩
  · -- A message that was stored before would have been found.
    simp only [Host.withMessage, List.countP_append, List.countP_singleton, Stores]
    by_cases heq : message.origin = origin
    · have hzero : s.log.countP (Stores origin) = 0 := by
        rw [List.countP_eq_zero]
        rintro (⟨other, digest⟩ | rejection) hmem hstores
        · obtain rfl : other = origin := by simpa [Stores] using hstores
          obtain ⟨identity, found, hlookup, hother, -⟩ := h.stored hmem hrun
          exact find_eq_none hfind hlookup (hother.trans heq.symm)
        · simp [Stores] at hstores
      simp [hzero, heq]
    · have hkeep := h.once origin
      simpa [heq] using hkeep
  · obtain hstored | hstored := List.mem_append.mp hstored
    · obtain ⟨identity, found, hlookup, hfound⟩ := h.stored hstored hopen
      exact ⟨identity, found, hold hlookup, hfound⟩
    · obtain ⟨rfl, rfl⟩ : origin = message.origin ∧ digest = message.digest := by
        simpa using hstored
      exact ⟨message.id, message, AList.lookup_insert s.messages, rfl, rfl⟩
  · obtain ⟨-, rfl⟩ | hlookup := hnew hlookup
    · exact List.mem_append_right _ (List.mem_singleton_self _)
    · exact List.mem_append_left _ (h.logged hlookup)
  · rcases hnew hfirst with ⟨rfl, rfl⟩ | hone <;> rcases hnew hsecond with ⟨rfl, rfl⟩ | htwo
    · rfl
    · exact absurd horigin.symm (find_eq_none hfind htwo)
    · exact absurd horigin (find_eq_none hfind hone)
    · exact h.unique hone htwo horigin

end Log

/-- The record of the agent is written with answers that are justified, or that are refusals. -/
theorem Recorded.withAgent (h : Recorded spec folder base s) {agent : Agent}
    (hacks : ∀ identity, .stored identity ∈ agent.outboxAcks →
      Justified spec folder s.log (.stored identity)) :
    Answers spec folder base agent (withAgent agent s) := by
  have hjustified (ack : Acknowledgement) (hack : ack ∈ agent.outboxAcks) :
      Justified spec folder (s.log ++ rejections agent.outboxAcks) ack := by
    cases ack with
    | stored identity =>
      exact (hacks identity hack).mono (fun _ => List.mem_append_left _) id
    | rejected rejection => exact List.mem_append_right _ (mem_rejections.mpr hack)
  exact ⟨⟨h.toLogged.withAgent agent, hjustified⟩, hjustified⟩

/-- A message is stored. -/
theorem Recorded.withMessage (h : Recorded spec folder base s) {message : Message} {checks : Checks}
    (hrun : s.run.isSome) (hfresh : s.messages.lookup message.id = none)
    (hfind : s.find message.origin = none) :
    Recorded spec folder base (withMessage message checks s) :=
  ⟨h.toLogged.withMessage hrun hfresh hfind, fun ack hack =>
    (h.acks ack hack).mono (fun _ => List.mem_append_left _) id⟩

/-- Deliveries do not matter here. -/
theorem Recorded.withDelivery (h : Recorded spec folder base s) (value : Recipient) :
    Recorded spec folder base (withDelivery value s) :=
  ⟨⟨h.past, h.opened, h.once, h.stored, h.logged, h.unique⟩, h.acks⟩

/-- The identities for new messages are not in use. -/
def Unused (outbox : List (Item × Checks)) (s : Host) : Prop :=
  (outbox.map fun entry => entry.2.messageId).Nodup ∧
    ∀ entry ∈ outbox, s.messages.lookup entry.2.messageId = none

variable {outbox : List (Item × Checks)} {J : Host → Prop}

omit [Hash Intent] in
theorem Unused.tail {entry : Item × Checks} (h : Unused (entry :: outbox) s) : Unused outbox s :=
  ⟨(List.nodup_cons.mp h.1).2, fun other hother => h.2 other (List.mem_cons_of_mem _ hother)⟩

omit [Hash Intent] in
theorem Unused.withMessage {item : Item} {checks : Checks} (h : Unused ((item, checks) :: outbox) s)
    {message : Message} (hmessage : message.id = checks.messageId) :
    Unused outbox (withMessage message checks s) := by
  refine ⟨h.tail.1, fun other hother => ?_⟩
  simp only [Host.withMessage, Table.lookup_insert_eq]
  split_ifs with heq
  · have hmem : checks.messageId ∈ outbox.map fun entry => entry.2.messageId :=
      List.mem_map.mpr ⟨other, hother, heq.trans hmessage⟩
    exact absurd hmem (List.nodup_cons.mp h.1).1
  · exact h.tail.2 other hother

variable [Hash Item]

/-- The messages of the agent are stored, with answers that are justified. -/
theorem Answers.wp_collectFrom {senderId : String} {agent : Agent}
    (h : Answers spec folder base agent s)
    (hholds : ∀ entry ∈ outbox, folder.Holds entry.1.id entry.1) (hunused : Unused outbox s) :
    wp (collectFrom spec senderId agent outbox) (fun result t => Answers spec folder base result.1 t)
      (fun _ => Recorded spec folder base) (Recorded spec folder base) s := by
  let K (rest : List (Item × Checks)) (agent : Agent) (t : Host) : Prop :=
    Answers spec folder base agent t ∧ (∀ entry ∈ rest, folder.Holds entry.1.id entry.1) ∧ Unused rest t
  have hwp : wp (collectFrom spec senderId agent outbox) (fun result t => ∃ rest, K rest result.1 t)
      (fun _ => Recorded spec folder base) (Recorded spec folder base) s := by
    refine Host.wp_collectFrom (K := K)
      (D := fun item t => Justified spec folder t.log (.stored item.id))
      (fun rest agent t ht => ht.1.1) ?_ ?_ ?_ ⟨h, hholds, hunused⟩
    · rintro item checks rest agent t ⟨⟨hrecorded, hacks⟩, hholds, hunused⟩
      have hrest (entry) (hentry : entry ∈ rest) : folder.Holds entry.1.id entry.1 :=
        hholds entry (List.mem_cons_of_mem _ hentry)
      have hitem : folder.Holds item.id item := hholds (item, checks) List.mem_cons_self
      have haccept : wp (accept spec senderId item checks)
          (fun _ u => K rest agent u ∧ Justified spec folder u.log (.stored item.id))
          (fun _ => K rest agent) (K rest agent) t := by
        refine wp_accept ⟨⟨hrecorded, hacks⟩, hrest, hunused.tail⟩ ?_ ?_
        · -- The message was stored before, with the same content.
          intro previous hfind hdigest
          obtain ⟨horigin, identity, hlookup⟩ := find_eq_some hfind
          have hstored := hrecorded.logged hlookup
          rw [horigin, hdigest] at hstored
          exact ⟨⟨⟨hrecorded, hacks⟩, hrest, hunused.tail⟩, item, hitem, hstored⟩
        · intro hfind hrun message hmessage
          have hnext : Recorded spec folder base (Host.withMessage message checks t) := by
            subst hmessage
            exact hrecorded.withMessage (by rw [hrun]; rfl) (hunused.2 _ List.mem_cons_self) hfind
          have hall : K rest agent (Host.withMessage message checks t) :=
            ⟨⟨hnext, fun ack hack => (hacks ack hack).mono (fun _ => List.mem_append_left _) id⟩,
              hrest, hunused.withMessage (by rw [hmessage])⟩
          refine ⟨hall, hall, item, hitem, List.mem_append_right _ ?_⟩
          rw [hmessage]
          exact List.mem_singleton_self _
      exact wp_mono haccept (fun _ _ h => h) (fun _ _ h => h) fun _ h => h.1.1
    · rintro item rest agent t ⟨⟨hrecorded, hacks⟩, hholds, hunused⟩ hdone
      refine ⟨hrecorded.withAgent fun identity hidentity => ?_, hholds, hunused⟩
      obtain hidentity | hidentity := List.mem_append.mp hidentity
      · exact hacks _ hidentity
      · obtain rfl : identity = item.id := by simpa using hidentity
        exact hdone
    · rintro item rest agent t code message now ⟨⟨hrecorded, hacks⟩, hholds, hunused⟩
      refine ⟨hrecorded.withAgent fun identity hidentity => ?_, hholds, hunused⟩
      obtain hidentity | hidentity := List.mem_append.mp hidentity
      · exact hacks _ hidentity
      · simp at hidentity
  exact wp_mono hwp (fun result t ⟨rest, ht⟩ => ht.1) (fun _ _ h => h) fun _ h => h

omit [Hash Item] [Hash Intent] in
/-- The receipts of the node do not change the messages. -/
theorem wp_applyReceipts (hJ : ∀ t value, J t → J (Host.withDelivery value t)) {waiting : Waiting}
    {reply : Reply} (hs : J s) :
    wp (applyReceipts spec waiting reply) (fun _ => J) (fun _ => J) J s := by
  rw [applyReceipts]
  refine wp_seq (wp_each (fun identity _ t ht => wp_mark ht fun value _ => hJ t _ ht) hs)
    fun _ t ht => ?_
  rw [wp_bind, wp_refuseIf]
  refine ⟨fun _ => ht, fun _ => ?_⟩
  exact wp_each (fun receipt _ u hu => wp_applyReceipt hu fun saved state _ _ _ _ _ => hJ u _ hu) ht

omit [Hash Item] [Hash Intent] in
/-- The choices keep what each of them keeps. -/
theorem wp_chooseAll (hJ : ∀ t value, J t → J (Host.withDelivery value t)) {choices : List Choice}
    (hs : J s) :
    wp (chooseAll spec choices) (fun _ => J) (fun _ => J) J s := by
  induction choices generalizing s with
  | nil => exact wp_pure.mpr hs
  | cons choice rest ih =>
    have hchoose : wp (choose spec choice) (fun _ => J) (fun _ => J) J s :=
      wp_choose hs (fun _ _ _ _ _ _ => hs) fun value _ _ _ _ => ⟨hJ s _ hs, hJ s _ hs⟩
    exact wp_seq hchoose fun _ t ht => wp_seq (ih ht) fun _ u hu => wp_pure.mpr hu

omit [Hash Item] [Hash Intent] in
/-- The request has the answers that are written in the record of the agent. -/
theorem wp_beginExchange (hJ : ∀ t value, J t → J (Host.withDelivery value t))
    {choices : List Choice} {receiptIds : List Identity} (hs : J s) :
    wp (beginExchange spec choices receiptIds)
      (fun request t => J t ∧ ∃ u, J u ∧ request.outboxAcks = u.agent.outboxAcks.take 8)
      (fun _ => J) J s := by
  refine wp_seq (wp_chooseAll hJ hs) fun deliveries t ht => ?_
  rw [wp_bind, wp_disk]
  refine wp_seq (wp_each (fun identity _ u hu => wp_mark hu fun value _ => hJ u _ hu) ht)
    fun _ u hu => ?_
  exact wp_pure.mpr ⟨hu, t, ht, rfl⟩

/-- The end of an exchange. -/
theorem Answers.wp_endExchange {senderId : String} {waiting : Waiting}
    (h : Answers spec folder base waiting.agent s) {reply : Reply} {checks : Identity → Checks}
    (hholds : ∀ item ∈ reply.outbox, folder.Holds item.id item)
    (hunused : Unused (reply.outbox.map fun item => (item, checks item.id)) s) :
    wp (endExchange spec senderId waiting reply checks) (fun _ => Recorded spec folder base)
      (fun _ => Recorded spec folder base) (Recorded spec folder base) s := by
  let J (t : Host) : Prop := Answers spec folder base waiting.agent t ∧
    Unused (reply.outbox.map fun item => (item, checks item.id)) t
  have hreceipts : wp (applyReceipts spec waiting reply) (fun _ => J) (fun _ => J) J s :=
    wp_applyReceipts (fun t value ht => ⟨⟨ht.1.1.withDelivery value, ht.1.2⟩, ht.2⟩) ⟨h, hunused⟩
  have hfailed (t : Host) (ht : J t) :
      Recorded spec folder base (Host.withAgent { waiting.agent with state := reply.state } t) := by
    have hnext : Answers spec folder base { waiting.agent with state := reply.state } _ :=
      ht.1.1.withAgent fun identity hidentity => ht.1.2 _ hidentity
    exact hnext.1
  refine Host.wp_endExchange
    (wp_mono hreceipts (fun _ _ h => h) (fun _ _ h => h) fun _ h => h.1.1) hfailed fun t ht => ?_
  have hanswers : Answers spec folder base
      { waiting.agent with state := reply.state, outboxAcks := [] } t := ⟨ht.1.1, nofun⟩
  refine wp_mono (hanswers.wp_collectFrom ?_ ht.2) (fun result u hu => ?_) (fun _ _ h => h)
    fun _ h => h
  · intro entry hentry
    obtain ⟨item, hitem, rfl⟩ := List.mem_map.mp hentry
    exact hholds item hitem
  · exact ⟨hu.1, (hu.1.withAgent fun identity hidentity => hu.2 _ hidentity).1⟩

end Host

namespace System

variable [Hash Item] [Hash Intent] {spec : Spec} {s : System}

/-- What holds of the messages from the agent, wherever they are. -/
structure Exact (spec : Spec) (s : System) : Prop where
  single : s.folder.Single
  recorded : Host.Recorded spec s.folder s.host s.host
  waiting : ∀ {number waiting}, s.waiting = some (number, waiting) →
    ∀ ack ∈ waiting.agent.outboxAcks, Host.Justified spec s.folder s.host.log ack
  requests : ∀ entry ∈ s.requests, ∀ ack ∈ entry.2.outboxAcks,
    Host.Justified spec s.folder s.host.log ack
  replies : ∀ entry ∈ s.replies, ∀ item ∈ entry.2.outbox, s.folder.Holds item.id item
  archived : s.host.run = none → s.folder.archived = true

omit [Hash Intent] in
/-- An action in the directory that is stopped anywhere. -/
theorem Moves.cut_locked {α : Type} {folder : Folder} (h : folder.Single)
    {acks : List Acknowledgement} {action : Folder.Action α}
    (hwp : wp action (fun _ => Folder.Moves acks folder) (fun _ => Folder.Moves acks folder)
      (Folder.Moves acks folder) folder) (stopped : Option ℕ) :
    Folder.Moves acks folder (cut (Folder.locked action) folder stopped) :=
  cut_of_wp (Folder.wp_locked (fun _ => .refl h) fun _ => hwp) (.refl h) stopped

/-- The messages from the agent after an action in the directory. -/
theorem Exact.onNode {α : Type} (h : Exact spec s) {acks : List Acknowledgement}
    {action : Folder.Action α}
    (hwp : wp action (fun _ => Folder.Moves acks s.folder) (fun _ => Folder.Moves acks s.folder)
      (Folder.Moves acks s.folder) s.folder) (stopped : Option ℕ) :
    Exact spec (s.onNode action stopped) := by
  have hmoves := Moves.cut_locked h.single hwp stopped
  have hjustified {ack : Acknowledgement} (hack : Host.Justified spec s.folder s.host.log ack) :
      Host.Justified spec (cut (Folder.locked action) s.folder stopped) s.host.log ack :=
    hack.mono (fun _ hdecision => hdecision) hmoves.holds
  refine ⟨hmoves.single, ⟨h.recorded.toLogged, fun ack hack => hjustified (h.recorded.acks ack hack)⟩,
    fun hwaiting ack hack => hjustified (h.waiting hwaiting ack hack),
    fun entry hentry ack hack => hjustified (h.requests entry hentry ack hack),
    fun entry hentry item hitem => hmoves.holds (h.replies entry hentry item hitem), fun hrun => ?_⟩
  have harchived := h.archived hrun
  show (cut (Folder.locked action) s.folder stopped).archived = true
  rw [cut_locked_of_archived harchived]
  exact harchived

omit [Hash Item] in
/-- The messages from the agent after an action of the controller. -/
theorem Exact.onHost {α : Type} (h : Exact spec s) {action : Host.Action α}
    (hwp : wp action (fun _ => Host.Recorded spec s.folder s.host)
      (fun _ => Host.Recorded spec s.folder s.host) (Host.Recorded spec s.folder s.host) s.host)
    (stopped : Option ℕ) : Exact spec (s.onHost action stopped) := by
  have hnext := cut_of_wp hwp h.recorded stopped
  exact ⟨h.single, hnext.rebase,
    fun hwaiting ack hack => (h.waiting hwaiting ack hack).mono hnext.past id,
    fun entry hentry ack hack => (h.requests entry hentry ack hack).mono hnext.past id, h.replies,
    fun hnone => h.archived (hnext.opened hnone)⟩

omit [Hash Item] in
/-- An exchange that begins keeps the counts. -/
theorem Exact.begun (h : Exact spec s) (choices : List Host.Choice) (receiptIds : List Identity)
    (stopped : Option ℕ) : Exact spec (s.begun spec choices receiptIds stopped) := by
  let J (t : Host) : Prop := Host.Recorded spec s.folder s.host t ∧ t.agent = s.host.agent ∧
    t.log = s.host.log
  have hwp : wp (Host.beginExchange spec choices receiptIds)
      (fun request t => J t ∧ ∃ u, J u ∧ request.outboxAcks = u.agent.outboxAcks.take 8)
      (fun _ => J) J s.host :=
    Host.wp_beginExchange (fun t value ht => ⟨ht.1.withDelivery value, ht.2⟩)
      ⟨h.recorded, rfl, rfl⟩
  have hnext : Exact spec (s.onHost (Host.beginExchange spec choices receiptIds) stopped) :=
    h.onHost (wp_mono hwp (fun _ _ h => h.1.1) (fun _ _ h => h.1) fun _ h => h.1) stopped
  unfold System.begun
  dsimp only
  cases hreturned : returned (Host.beginExchange spec choices receiptIds) s.host stopped with
  | none => exact hnext
  | some request =>
    -- The answers were written before they are sent.
    have hlog : ∀ d ∈ s.host.log,
        d ∈ (s.onHost (Host.beginExchange spec choices receiptIds) stopped).host.log :=
      (cut_of_wp hwp ⟨h.recorded, rfl, rfl⟩ stopped).1.past
    have hacks : ∀ ack ∈ s.host.agent.outboxAcks, Host.Justified spec s.folder
        (s.onHost (Host.beginExchange spec choices receiptIds) stopped).host.log ack :=
      fun ack hack => (h.recorded.acks ack hack).mono hlog id
    have hrequest : request.outboxAcks = s.host.agent.outboxAcks.take 8 := by
      obtain ⟨-, u, ⟨-, hagent, -⟩, hrequest⟩ := result_of_wp hwp (returned_eq_some hreturned).2
      rw [hrequest, hagent]
    refine ⟨hnext.single, hnext.recorded, fun hwaiting ack hack => ?_, fun entry hentry ack hack => ?_,
      hnext.replies, hnext.archived⟩
    · obtain ⟨rfl, rfl⟩ := Prod.mk.inj (Option.some.inj hwaiting)
      exact hacks ack hack
    · obtain rfl | hentry := List.mem_cons.mp hentry
      · rw [hrequest] at hack
        exact hacks ack (List.mem_of_mem_take hack)
      · exact hnext.requests entry hentry ack hack

theorem Exact.exchanged (h : Exact spec s) (number : ℕ) (request : Request) (present : Bool)
    (stopped : Option ℕ) : Exact spec (s.exchanged spec number request present stopped) := by
  have hwp : wp (Folder.exchange spec request present) _ _ _ s.folder := h.single.wp_exchange
  have hnext : Exact spec (s.onNode (Folder.exchange spec request present) stopped) :=
    h.onNode (wp_mono hwp (fun _ _ h => h.1) (fun _ _ h => h) fun _ h => h) stopped
  unfold System.exchanged
  dsimp only
  cases hreturned : returned (Folder.locked (Folder.exchange spec request present)) s.folder stopped with
  | none => exact hnext
  | some reply =>
    refine ⟨hnext.single, hnext.recorded, hnext.waiting, hnext.requests, fun entry hentry item hitem =>
      ?_, hnext.archived⟩
    obtain rfl | hentry := List.mem_cons.mp hentry
    · -- The reply has messages that are pending at its end.
      obtain ⟨rfl, hresult⟩ := returned_eq_some hreturned
      have hlocked : wp (Folder.locked (Folder.exchange spec request present))
          (fun reply t => reply.outbox = t.pending) (fun _ _ => True) (fun _ => True) s.folder :=
        Folder.wp_locked (fun _ => trivial) fun _ => wp_mono hwp (fun _ _ h => h.2.1)
          (fun _ _ _ => trivial) fun _ _ => trivial
      have hpending := result_of_wp hlocked hresult
      rw [hpending] at hitem
      obtain ⟨identity, hlookup⟩ := Folder.lookup_of_mem_sorted (List.mem_of_mem_take hitem)
      have hholds : (s.onNode (Folder.exchange spec request present) none).folder.Holds identity
          item := .inl hlookup
      rw [(hnext.single.keyed hholds).1]
      exact hholds
    · exact hnext.replies entry hentry item hitem

/-- The actions in the directory other than an exchange do not take a message out of the outbox. -/
theorem Exact.onNode_same {α : Type} (h : Exact spec s) (action : Folder.Action α)
    (hwp : ∀ I : Folder → Prop, I s.folder → (∀ t u, I t → Folder.SameOutbox t u → I u) →
      wp action (fun _ => I) (fun _ => I) I s.folder) (stopped : Option ℕ) :
    Exact spec (s.onNode action stopped) ∧
      Folder.Moves [] s.folder (s.onNode action stopped).folder := by
  have hmoves := hwp (Folder.Moves [] s.folder) (.refl h.single) fun t u ht hsame => ht.same hsame
  exact ⟨h.onNode hmoves stopped, Moves.cut_locked h.single hmoves stopped⟩

/-- The answers that a step brings to the directory are justified. -/
def Answered (spec : Spec) (s next : System) : Prop :=
  ∃ acks, (∀ ack ∈ acks, Host.Justified spec s.folder s.host.log ack) ∧
    Folder.Moves acks s.folder next.folder

theorem Exact.answered_refl (h : Exact spec s) {next : System} (hfolder : next.folder = s.folder) :
    Answered spec s next := by
  refine ⟨[], nofun, ?_⟩
  rw [hfolder]
  exact .refl h.single

omit [Hash Item] in
/-- The controller forgets the exchange that it waits for. -/
theorem Exact.forget (h : Exact spec s) : Exact spec { s with waiting := none } :=
  ⟨h.single, h.recorded, nofun, h.requests, h.replies, h.archived⟩

omit [Hash Item] in
/-- The records of an archived run are deleted. Its messages have been stored once. -/
theorem Exact.archive (h : Exact spec s) (hready : Archivable spec s) :
    Exact spec { s with host := System.archived spec s.host } := by
  have hlookup {identity : Identity} {message : Message}
      (hmessage : (System.archived spec s.host).messages.lookup identity = some message) :
      s.host.messages.lookup identity = some message := by
    simp only [System.archived, Table.lookup_discard, Option.filter_eq_some_iff] at hmessage
    exact hmessage.1
  refine ⟨h.single, ⟨⟨fun _ hd => hd, fun hrun => hrun, h.recorded.once, fun _ hrun => ?_,
    fun hmessage => h.recorded.logged (hlookup hmessage),
    fun hfirst hsecond => h.recorded.unique (hlookup hfirst) (hlookup hsecond)⟩, h.recorded.acks⟩,
    h.waiting, h.requests, h.replies, fun _ => hready.2.1⟩
  simp [System.archived] at hrun

omit [Hash Item] [Hash Intent] in
/-- The random identities of an exchange. -/
theorem unused_of_fresh {host : Host} {outbox : List Item} {checks : Identity → Checks}
    (h : Fresh host (outbox.flatMap fun item => drawn (checks item.id))) :
    Host.Unused (outbox.map fun item => (item, checks item.id)) host := by
  have hsublist (outbox : List Item) :
      List.Sublist (outbox.map fun item => (checks item.id).messageId)
        (outbox.flatMap fun item => drawn (checks item.id)) := by
    induction outbox with
    | nil => exact .slnil
    | cons item rest ih =>
      exact List.Sublist.append (List.singleton_sublist.mpr List.mem_cons_self) ih
  constructor
  · rw [List.map_map]
    exact List.Nodup.sublist (hsublist outbox) h.1
  · intro entry hentry
    obtain ⟨item, hitem, rfl⟩ := List.mem_map.mp hentry
    exact (h.2 _ (List.mem_flatMap.mpr ⟨item, hitem, List.mem_cons_self⟩)).1

/-- So does every step. -/
theorem Exact.step (h : Exact spec s) (act : Step) :
    Exact spec (step spec s act) ∧ Answered spec s (step spec s act) := by
  obtain ⟨event, stopped⟩ := act
  have hnode {next : System} (hnext : Exact spec next ∧ Folder.Moves [] s.folder next.folder) :
      Exact spec next ∧ Answered spec s next := ⟨hnext.1, [], nofun, hnext.2⟩
  have hstay : Exact spec s ∧ Answered spec s s := ⟨h, h.answered_refl rfl⟩
  cases event with
  | toolSend request valid =>
    have hwp : wp (Folder.send request valid) _ _ _ s.folder := h.single.wp_send
    exact hnode ⟨h.onNode hwp stopped, Moves.cut_locked h.single hwp stopped⟩
  | toolRead identity =>
    have hnext := h.onNode_same (Folder.read identity) (fun I hs hI => wp_mono
      (Folder.wp_read hs fun _ _ _ _ _ => hI _ _ hs ⟨rfl, rfl, rfl⟩) (fun _ _ h => h.1)
      (fun _ _ h => h) fun _ h => h) stopped
    exact hnode ⟨⟨hnext.1.single, hnext.1.recorded, hnext.1.waiting, hnext.1.requests,
      hnext.1.replies, hnext.1.archived⟩, hnext.2⟩
  | beginExchange choices receiptIds =>
    simp only [System.step]
    split_ifs
    · exact ⟨h.begun choices receiptIds stopped, h.answered_refl (folder_begun ..)⟩
    · exact hstay
  | exchange number present =>
    simp only [System.step]
    cases hlookup : s.requests.lookup number with
    | none => exact hstay
    | some request =>
      refine ⟨h.exchanged number request present stopped, request.outboxAcks, ?_, ?_⟩
      · exact h.requests _ (mem_of_lookup hlookup)
      · rw [folder_exchanged]
        exact Moves.cut_locked h.single (wp_mono h.single.wp_exchange (fun _ _ h => h.1)
          (fun _ _ h => h) fun _ h => h) stopped
  | endExchange checks =>
    simp only [System.step]
    cases hwaiting : s.waiting with
    | none => exact hstay
    | some entry =>
      obtain ⟨number, waiting⟩ := entry
      dsimp only
      cases hreply : s.replies.lookup number with
      | none => exact hstay
      | some reply =>
        dsimp only
        split_ifs with hfresh
        · have hanswers : Host.Answers spec s.folder s.host waiting.agent s.host :=
            ⟨h.recorded, h.waiting hwaiting⟩
          have hwp : wp (Host.endExchange spec spec.agentId.toHex waiting reply checks) _ _ _ s.host :=
            hanswers.wp_endExchange (h.replies _ (mem_of_lookup hreply)) (unused_of_fresh hfresh)
          exact ⟨(h.onHost hwp stopped).forget, h.answered_refl rfl⟩
        · exact hstay
  | abandon =>
    simp only [System.step]
    cases hwaiting : s.waiting with
    | none => exact hstay
    | some entry =>
      have hsaved := (h.recorded.withAgent fun identity hidentity =>
        h.waiting hwaiting _ hidentity).1
      exact ⟨(h.onHost (Host.wp_saveAgent.mpr ⟨hsaved, hsaved⟩) stopped).forget, h.answered_refl rfl⟩
  | restart =>
    simp only [System.step]
    split_ifs
    · have hsaved : Host.Recorded spec s.folder s.host
          (Host.withAgent (restarted s.host.agent) s.host) := by
        refine (h.recorded.withAgent fun identity hidentity => h.recorded.acks _ ?_).1
        unfold restarted at hidentity
        split_ifs at hidentity <;> exact hidentity
      exact ⟨(h.onHost (Host.wp_saveAgent.mpr ⟨hsaved, hsaved⟩) stopped).forget, h.answered_refl rfl⟩
    · exact ⟨h.forget, h.answered_refl rfl⟩
  | launched =>
    simp only [System.step]
    split_ifs
    · have hsaved : Host.Recorded spec s.folder s.host (Host.withAgent
          { s.host.agent with outboxAcks := [], outboxRejections := [] } s.host) :=
        (h.recorded.withAgent fun identity hidentity => by simp at hidentity).1
      exact ⟨h.onHost (Host.wp_saveAgent.mpr ⟨hsaved, hsaved⟩) stopped, h.answered_refl rfl⟩
    · exact hstay
  | next session now =>
    have hnext := h.onNode_same (Folder.next spec session now)
      (fun I hs hI => Folder.wp_next hs fun t value ht => hI t _ ht ⟨rfl, rfl, rfl⟩) stopped
    exact hnode ⟨⟨hnext.1.single, hnext.1.recorded, hnext.1.waiting, hnext.1.requests,
      hnext.1.replies, hnext.1.archived⟩, hnext.2⟩
  | handOver identity =>
    simp only [System.step]
    split_ifs
    · exact ⟨⟨h.single, h.recorded, h.waiting, h.requests, h.replies, h.archived⟩,
        h.answered_refl rfl⟩
    · exact hstay
  | crashAdapter =>
    exact ⟨⟨h.single, h.recorded, h.waiting, h.requests, h.replies, h.archived⟩,
      h.answered_refl rfl⟩
  | adapterReceipt identity session state detail =>
    exact hnode (h.onNode_same (Folder.adapterReceipt identity session state detail)
      (fun I hs hI => Folder.wp_adapterReceipt hs fun _ _ _ _ =>
      hI _ _ hs ⟨rfl, rfl, rfl⟩) stopped)
  | register session =>
    exact hnode (h.onNode_same (Folder.register session) (fun I hs hI => (Folder.wp_runtime hs fun _ =>
      hI _ _ hs ⟨rfl, rfl, rfl⟩).1 session) stopped)
  | suspend session expected =>
    exact hnode (h.onNode_same (Folder.suspend session expected) (fun I hs hI => (Folder.wp_runtime hs fun _ =>
      hI _ _ hs ⟨rfl, rfl, rfl⟩).2.1 session expected) stopped)
  | rebind session =>
    exact hnode (h.onNode_same (Folder.rebind session) (fun I hs hI => (Folder.wp_runtime hs fun _ =>
      hI _ _ hs ⟨rfl, rfl, rfl⟩).2.2.1 session) stopped)
  | stop =>
    exact hnode (h.onNode_same Folder.stop (fun I hs hI => Folder.wp_stop hs
      (fun t _ ht _ _ _ => hI t _ ht ⟨rfl, rfl, rfl⟩)
      fun t _ ht => hI t _ ht ⟨rfl, rfl, rfl⟩) stopped)
  | exited =>
    exact hnode (h.onNode_same Folder.exited (fun I hs hI => (Folder.wp_runtime hs fun _ =>
      hI _ _ hs ⟨rfl, rfl, rfl⟩).2.2.2) stopped)
  | retire present =>
    exact hnode (h.onNode_same (Folder.retire present) (fun I hs hI => Folder.wp_retire hs fun _ =>
      hI _ _ hs ⟨rfl, rfl, rfl⟩) stopped)
  | cancelUnsubmitted =>
    simp only [System.step]
    split_ifs
    · refine ⟨h.onHost (Host.wp_cancelUnsubmitted h.recorded fun t _ value ht _ _ _ => ?_) stopped,
        h.answered_refl rfl⟩
      exact ht.withDelivery _
    · exact hstay
  | send origin senderId intent checks =>
    simp only [System.step]
    split_ifs with hready
    · refine ⟨h.onHost (Host.wp_send h.recorded (fun _ _ _ => h.recorded) ?_) stopped,
        h.answered_refl rfl⟩
      intro hfind hrun message hmessage
      have hnext : Host.Recorded spec s.folder s.host
          (Host.withMessage message checks s.host) := by
        subst hmessage
        exact h.recorded.withMessage (by rw [hrun]; rfl)
          (hready.1.2 checks.messageId List.mem_cons_self).1 hfind
      exact ⟨hnext, hnext⟩
    · exact hstay
  | close checks =>
    refine ⟨h.onHost (Host.wp_close h.recorded fun hrun => ?_) stopped, h.answered_refl rfl⟩
    have hrecorded := h.recorded
    exact ⟨⟨hrecorded.past, nofun, hrecorded.once, fun hstored _ => hrecorded.stored hstored hrun,
      hrecorded.logged, hrecorded.unique⟩, hrecorded.acks⟩
  | archive =>
    simp only [System.step]
    split_ifs with hready
    · exact ⟨h.archive hready, h.answered_refl rfl⟩
    · exact hstay

/-- Nothing happens in the directory of an archived agent. -/
theorem folder_step_of_archived (h : s.folder.archived = true) (act : Step) :
    (step spec s act).folder = s.folder := by
  obtain ⟨event, stopped⟩ := act
  have hnode {α : Type} (action : Folder.Action α) : (s.onNode action stopped).folder = s.folder :=
    cut_locked_of_archived h stopped
  cases event with
  | toolSend request valid => exact hnode _
  | toolRead identity => exact hnode _
  | beginExchange choices receiptIds =>
    simp only [System.step]
    split_ifs
    · exact folder_begun ..
    · rfl
  | exchange number present =>
    simp only [System.step]
    cases s.requests.lookup number with
    | none => rfl
    | some request =>
      dsimp only
      rw [folder_exchanged]
      exact cut_locked_of_archived h stopped
  | endExchange checks =>
    simp only [System.step]
    cases s.waiting with
    | none => rfl
    | some entry =>
      dsimp only
      cases s.replies.lookup entry.1 with
      | none => rfl
      | some reply =>
        dsimp only
        split_ifs <;> rfl
  | abandon =>
    simp only [System.step]
    cases s.waiting <;> rfl
  | restart =>
    simp only [System.step]
    split_ifs <;> rfl
  | launched =>
    simp only [System.step]
    split_ifs <;> rfl
  | next session now => exact hnode _
  | handOver identity =>
    simp only [System.step]
    split_ifs <;> rfl
  | crashAdapter => rfl
  | adapterReceipt identity session state detail => exact hnode _
  | register session => exact hnode _
  | suspend session expected => exact hnode _
  | rebind session => exact hnode _
  | stop => exact hnode _
  | exited => exact hnode _
  | retire present => exact hnode _
  | cancelUnsubmitted =>
    simp only [System.step]
    split_ifs <;> rfl
  | send origin senderId intent checks =>
    simp only [System.step]
    split_ifs <;> rfl
  | close checks => rfl
  | archive =>
    simp only [System.step]
    split_ifs <;> rfl

omit [Hash Item] in
/-- They hold at the launch. -/
theorem exact_launch (spec : Spec) (runtime : Runtime) : Exact spec (launch runtime) := by
  refine ⟨⟨fun hfirst _ => ?_, fun hitem => ?_⟩, ⟨⟨fun _ hd => hd, fun hrun => hrun, fun _ => ?_,
    nofun, fun hlookup => ?_, fun hlookup => ?_⟩, nofun⟩, nofun, nofun, nofun, nofun⟩
  · simp [Folder.Holds, launch] at hfirst
  · simp [Folder.Holds, launch] at hitem
  · simp [launch]
  · simp [launch] at hlookup
  · simp [launch] at hlookup

/-- In every run of the agent, its node and the controller, with any stops, losses and repetitions:
a message of the agent is stored on the bus at most once, also counting the messages that were
archived since. Whenever a message leaves the outbox, the host has stored a message under its
identity with the same content, or has written a refusal with the digest of its content. -/
theorem outbox_exactly_once (spec : Spec) (runtime : Runtime) (acts : List Step) :
    let s := run (step spec) (launch runtime) acts
    (∀ identity, s.host.log.countP (Host.Stores (.agent spec.agentId identity)) ≤ 1) ∧
    (∀ first second message message', s.host.messages.lookup first = some message →
      s.host.messages.lookup second = some message' → message.origin = message'.origin →
        first = second) ∧
    (∀ identity message, s.host.messages.lookup identity = some message →
      .stored message.origin message.digest ∈ s.host.log) ∧
    ∀ act identity item, s.folder.outbox.lookup identity = some item →
      (step spec s act).folder.outbox.lookup identity ≠ some item →
        (∃ stored message, s.host.messages.lookup stored = some message ∧
          message.origin = .agent spec.agentId identity ∧
            message.digest = Hash.digest (Host.intentOf spec item)) ∨
        ∃ rejection : Rejection, rejection.id = identity ∧ rejection.sha256 = Hash.digest item ∧
          .rejected rejection ∈ s.host.log := by
  intro s
  have hexact : Exact spec s :=
    run_invariant (I := Exact spec) (fun s act h => (h.step act).1) (exact_launch spec runtime) acts
  refine ⟨fun identity => hexact.recorded.once _, fun _ _ _ _ => hexact.recorded.unique,
    fun _ _ => hexact.recorded.logged, fun act identity item hlookup hgone => ?_⟩
  obtain ⟨acks, hacks, hmoves⟩ := (hexact.step act).2
  have hreleased := (hmoves.leaves hlookup).resolve_left hgone
  obtain hstored | ⟨rejection, hmem, hid, hdigest⟩ := hreleased
  · obtain ⟨other, hholds, hlogged⟩ := hacks _ hstored
    obtain rfl : other = item := hexact.single.unique hholds (.inl hlookup)
    -- Nothing leaves the directory of an archived agent, so the run is still there.
    have hrun : s.host.run.isSome := by
      rw [Option.isSome_iff_ne_none]
      intro hnone
      rw [folder_step_of_archived (hexact.archived hnone)] at hgone
      exact hgone hlookup
    exact .inl (hexact.recorded.stored hlogged hrun)
  · exact .inr ⟨rejection, hid, hdigest.symm, hacks _ hmem⟩

end System

end Ficc.Agents
