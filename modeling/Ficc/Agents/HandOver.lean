import Ficc.Agents.Actions
import Ficc.Agents.Machine

/-!
# Messages are handed to the runtime once

The adapter gets a message only while its receipt says that it is stored, and the receipt says
something else before the adapter has the message. No action writes that state over another one, so
a message is handed to the runtime at most once, whatever is lost or stopped.
-/

namespace Ficc.Agents

open Execution (Identity Digest Hash)
open Durable

namespace Folder

/-- The message is no longer waiting for the adapter. -/
def Passed (s : Folder) (identity : Identity) : Prop :=
  ∃ value, s.receipts.lookup identity = some value ∧ value.state ≠ .nodeStored

/-- No message waits for the adapter again. -/
def Advances (s t : Folder) : Prop := ∀ identity, s.Passed identity → t.Passed identity

theorem Advances.same {s t u : Folder} (h : Advances s t) (hsame : u.receipts = t.receipts) :
    Advances s u := by
  intro identity hpassed
  obtain ⟨value, hlookup, hstate⟩ := h identity hpassed
  exact ⟨value, by rw [hsame]; exact hlookup, hstate⟩

theorem passed_withReceipt {s : Folder} {value : Receipt} (hstate : value.state ≠ .nodeStored) :
    (withReceipt value s).Passed value.id :=
  ⟨value, AList.lookup_insert s.receipts, hstate⟩

/-- A receipt may say anything else, or it is new. -/
theorem Advances.withReceipt {s t : Folder} (h : Advances s t) {value : Receipt}
    (hvalue : value.state ≠ .nodeStored ∨ t.receipts.lookup value.id = none) :
    Advances s (withReceipt value t) := by
  intro identity hpassed
  obtain ⟨old, hlookup, hstate⟩ := h identity hpassed
  by_cases heq : identity = value.id
  · subst heq
    obtain hvalue | hnone := hvalue
    · exact passed_withReceipt hvalue
    · rw [hnone] at hlookup
      cases hlookup
  · exact ⟨old, (AList.lookup_insert_ne heq).trans hlookup, hstate⟩

variable {s : Folder}

theorem wp_exchange_advances [Hash Item] {spec : Spec} {request : Request} {present : Bool} :
    wp (exchange spec request present) (fun _ => Advances s) (fun _ => Advances s) (Advances s)
      s := by
  have hwp : wp (exchange spec request present)
      (fun reply t => Advances s t ∧ reply.outbox = t.pending ∧ ∀ value ∈ reply.receipts, True)
      (fun _ => Advances s) (Advances s) s := by
    refine wp_exchange (fun t item ht _ _ => ht.same rfl)
      (fun t identity ht hnone => ⟨ht.withReceipt (.inr hnone), trivial⟩) (fun _ _ _ _ _ => trivial)
      (fun _ _ _ _ _ => trivial) (fun t ack ht _ => ?_) fun _ h => h
    exact wp_acknowledge ht (fun u _ _ hu _ _ => hu.same rfl) (fun u _ _ hu _ _ _ => hu.same rfl)
      (fun u _ hu _ => hu.same rfl) fun u _ _ hu _ _ _ => ⟨fun _ => hu.same rfl, fun _ => hu.same rfl⟩
  exact wp_mono hwp (fun _ _ h => h.1) (fun _ _ h => h) fun _ h => h

theorem wp_read_advances {identity : Identity} :
    wp (read identity) (fun _ => Advances s) (fun _ => Advances s) (Advances s) s := by
  have hwp : wp (read identity) (fun value t => Advances s t ∧ s.inbox.lookup identity = some value)
      (fun _ => Advances s) (Advances s) s :=
    wp_read (fun _ h => h) fun value current _ _ _ =>
      Advances.withReceipt (fun _ h => h) (.inl nofun)
  exact wp_mono hwp (fun _ _ h => h.1) (fun _ _ h => h) fun _ h => h

/-- The adapter gets one message at most, which was waiting for it and waits no longer. -/
theorem wp_next_advances {spec : Spec} {session : Option String} {now : ℚ} :
    wp (next spec session now)
      (fun items t => Advances s t ∧ (items = [] ∨ ∃ item, items = [item] ∧ ¬s.Passed item.id ∧
        t.Passed item.id))
      (fun _ => Advances s) (Advances s) s := by
  simp only [next, wp_bind, wp_disk, wp_ite, wp_pure]
  refine ⟨fun _ => ⟨fun _ h => h, .inl trivial⟩, fun _ => ?_⟩
  refine wp_nextOf ?_ (fun t ht => ⟨ht, .inl rfl⟩) ?_ fun _ h => h
  · rintro t item current ht - - - state detail sessionId (rfl | rfl)
    · exact ht.withReceipt (.inl (by rintro ⟨⟩))
    · exact ht.withReceipt (.inl (by rintro ⟨⟩))
  · intro t item current ht _ hlookup hstored _ detail
    have hnext : Advances s (Folder.withReceipt ⟨item.id, .uncertain, detail, s.runtime.sessionId⟩ t) :=
      ht.withReceipt (.inl (by rintro ⟨⟩))
    refine ⟨hnext, hnext, .inr ⟨item, rfl, fun hpassed => ?_, passed_withReceipt (by rintro ⟨⟩)⟩⟩
    -- The receipt said that the message was stored.
    obtain ⟨value, hvalue, hstate⟩ := ht item.id hpassed
    rw [hlookup, Option.some.injEq] at hvalue
    exact hstate (hvalue ▸ hstored)

end Folder

namespace System

variable {spec : Spec} {s : System}

/-- How often a message is with the adapter or was handed to the runtime. -/
def passes (s : System) (identity : Identity) : ℕ :=
  s.handed.count identity + (s.offered.map Delivery.id).count identity

/-- A message that is with the adapter or with the runtime is there once, and waits no longer. -/
def Once (s : System) : Prop :=
  ∀ identity, s.passes identity ≤ 1 ∧ (0 < s.passes identity → s.folder.Passed identity)

variable [Hash Item] [Hash Intent]

omit [Hash Item] [Hash Intent] in
theorem advances_onNode {α : Type} {action : Folder.Action α}
    (hwp : wp action (fun _ => s.folder.Advances) (fun _ => s.folder.Advances) s.folder.Advances
      s.folder) (stopped : Option ℕ) : s.folder.Advances (s.onNode action stopped).folder :=
  cut_of_wp (Folder.wp_locked (fun _ _ h => h) fun _ => hwp) (fun _ h => h) stopped

/-- No step makes a message wait for the adapter again. -/
theorem advances_step (s : System) (act : Step) :
    s.folder.Advances (step spec s act).folder := by
  obtain ⟨event, stopped⟩ := act
  have hsame : s.folder.Advances s.folder := fun _ h => h
  have hruntime := Folder.wp_runtime hsame fun runtime => hsame.same rfl
  cases event with
  | toolSend request valid =>
    exact advances_onNode (Folder.wp_send hsame fun _ _ _ _ _ => hsame.same rfl) stopped
  | toolRead identity => exact advances_onNode Folder.wp_read_advances stopped
  | beginExchange choices receiptIds =>
    simp only [System.step]
    split_ifs
    · rw [folder_begun]
      exact hsame
    · exact hsame
  | exchange number present =>
    simp only [System.step]
    cases s.requests.lookup number with
    | none => exact hsame
    | some request =>
      dsimp only
      rw [folder_exchanged]
      exact advances_onNode Folder.wp_exchange_advances stopped
  | endExchange checks =>
    simp only [System.step]
    cases s.waiting with
    | none => exact hsame
    | some entry =>
      dsimp only
      cases s.replies.lookup entry.1 with
      | none => exact hsame
      | some reply =>
        dsimp only
        split_ifs <;> exact hsame
  | abandon =>
    simp only [System.step]
    cases s.waiting <;> exact hsame
  | restart =>
    simp only [System.step]
    split_ifs <;> exact hsame
  | launched =>
    simp only [System.step]
    split_ifs <;> exact hsame
  | next session now =>
    exact advances_onNode (wp_mono Folder.wp_next_advances (fun _ _ h => h.1) (fun _ _ h => h)
      fun _ h => h) stopped
  | handOver identity =>
    simp only [System.step]
    split_ifs <;> exact hsame
  | crashAdapter => exact hsame
  | adapterReceipt identity session state detail =>
    refine advances_onNode (Folder.wp_adapterReceipt hsame fun current _ hstate _ => ?_) stopped
    refine hsame.withReceipt (.inl ?_)
    rintro rfl
    simp [Folder.adapterStates] at hstate
  | register session => exact advances_onNode (hruntime.1 session) stopped
  | suspend session expected => exact advances_onNode (hruntime.2.1 session expected) stopped
  | rebind session => exact advances_onNode (hruntime.2.2.1 session) stopped
  | stop =>
    exact advances_onNode (Folder.wp_stop hsame
      (fun t value ht _ _ detail => ht.withReceipt (.inl nofun)) fun t runtime ht => ht.same rfl)
      stopped
  | exited => exact advances_onNode hruntime.2.2.2 stopped
  | retire present => exact advances_onNode (Folder.wp_retire hsame fun _ => hsame.same rfl) stopped
  | cancelUnsubmitted =>
    simp only [System.step]
    split_ifs <;> exact hsame
  | send origin senderId intent checks =>
    simp only [System.step]
    split_ifs <;> exact hsame
  | close checks => exact hsame
  | archive =>
    simp only [System.step]
    split_ifs <;> exact hsame

/-- The messages that a step gives to the adapter. -/
def offers (spec : Spec) (s : System) (act : Step) : List Delivery :=
  match act.event with
  | .next session now =>
    (returned (Folder.locked (Folder.next spec session now)) s.folder act.stopped).getD []
  | _ => []

omit [Hash Item] [Hash Intent] in
theorem passes_handOver {identity : Identity}
    (h : s.offered.any fun item => item.id = identity) (other : Identity) :
    (s.handed ++ [identity]).count other +
      ((s.offered.eraseP fun item => item.id = identity).map Delivery.id).count other =
        s.passes other := by
  have herase : (s.offered.eraseP fun item => item.id = identity).map Delivery.id =
      (s.offered.map Delivery.id).erase identity := by
    rw [List.erase_eq_eraseP', List.eraseP_map]
    rfl
  have hmem : identity ∈ s.offered.map Delivery.id := by
    obtain ⟨item, hitem, heq⟩ := List.any_eq_true.mp h
    exact List.mem_map.mpr ⟨item, hitem, of_decide_eq_true heq⟩
  rw [herase, passes, List.count_append]
  by_cases heq : other = identity
  · subst heq
    have hpos := List.count_pos_iff.mpr hmem
    rw [List.count_erase_self, List.count_singleton_self]
    omega
  · rw [List.count_erase_of_ne heq, List.count_singleton]
    simp [Ne.symm heq]

/-- Messages come to the adapter and to the runtime only when the node gives them to the adapter. -/
theorem passes_step (s : System) (act : Step) (identity : Identity) :
    (step spec s act).passes identity ≤
      s.passes identity + ((offers spec s act).map Delivery.id).count identity := by
  obtain ⟨event, stopped⟩ := act
  have hsame : s.passes identity ≤ s.passes identity := le_refl _
  cases event with
  | next session now =>
    simp only [System.step, passes, offers, onNode, List.map_append, List.count_append]
    omega
  | handOver other =>
    simp only [System.step]
    split_ifs with hoffered
    · simp only [passes]
      rw [passes_handOver hoffered]
      exact Nat.le_add_right _ _
    · exact Nat.le_add_right _ _
  | crashAdapter =>
    simp only [System.step, passes, List.map_nil, List.count_nil]
    omega
  | beginExchange choices receiptIds =>
    simp only [System.step]
    split_ifs
    · unfold System.begun
      dsimp only
      split <;> exact Nat.le_add_right _ _
    · exact Nat.le_add_right _ _
  | exchange number present =>
    simp only [System.step]
    cases s.requests.lookup number with
    | none => exact Nat.le_add_right _ _
    | some request =>
      unfold System.exchanged
      dsimp only
      split <;> exact Nat.le_add_right _ _
  | endExchange checks =>
    simp only [System.step]
    cases s.waiting with
    | none => exact Nat.le_add_right _ _
    | some entry =>
      dsimp only
      cases s.replies.lookup entry.1 with
      | none => exact Nat.le_add_right _ _
      | some reply =>
        dsimp only
        split_ifs <;> exact Nat.le_add_right _ _
  | abandon =>
    simp only [System.step]
    cases s.waiting <;> exact Nat.le_add_right _ _
  | restart | launched | cancelUnsubmitted | send | archive =>
    simp only [System.step]
    split_ifs <;> exact Nat.le_add_right _ _
  | _ => exact Nat.le_add_right _ _

/-- A step keeps it that a message is passed on once. -/
theorem Once.step (h : s.Once) (act : Step) : (step spec s act).Once := by
  intro identity
  have hpasses : (System.step spec s act).passes identity ≤ _ := passes_step s act identity
  have hadvances : _ → (System.step spec s act).folder.Passed identity := advances_step s act identity
  obtain ⟨hle, hpassed⟩ := h identity
  by_cases hoffer : ((offers spec s act).map Delivery.id).count identity = 0
  · exact ⟨by omega, fun hpos => hadvances (hpassed (by omega))⟩
  -- The node gives the message to the adapter now, so nobody had it before.
  obtain ⟨event, stopped⟩ := act
  cases event with
  | next session now =>
    have hwp : wp (Folder.locked (Folder.next spec session now)) (fun items t => items = [] ∨
        ∃ item, items = [item] ∧ ¬s.folder.Passed item.id ∧ t.Passed item.id) (fun _ _ => True)
        (fun _ => True) s.folder :=
      Folder.wp_locked (fun _ => trivial) fun _ => wp_mono Folder.wp_next_advances
        (fun _ _ h => h.2) (fun _ _ _ => trivial) fun _ _ => trivial
    simp only [offers] at hoffer hpasses
    cases hreturned : returned (Folder.locked (Folder.next spec session now)) s.folder stopped with
    | none => simp [hreturned] at hoffer
    | some items =>
      rw [hreturned, Option.getD_some] at hoffer hpasses
      obtain ⟨rfl, hresult⟩ := returned_eq_some hreturned
      obtain rfl | ⟨item, rfl, hbefore, hafter⟩ := result_of_wp hwp hresult
      · simp at hoffer
      obtain rfl : item.id = identity := by
        by_contra hne
        simp [hne] at hoffer
      have hzero : s.passes item.id = 0 := by
        by_contra hne
        exact hbefore (hpassed (Nat.pos_of_ne_zero hne))
      rw [hzero, List.map_singleton, List.count_singleton_self] at hpasses
      exact ⟨hpasses, fun _ => hafter⟩
  | _ => simp [offers] at hoffer

/-- In every run, with any stops, losses and repetitions, a message is handed to the runtime at most
once. -/
theorem handed_at_most_once (spec : Spec) (runtime : Runtime) (acts : List Step)
    (identity : Identity) : (run (step spec) (launch runtime) acts).handed.count identity ≤ 1 := by
  have hlaunch : (launch runtime).Once := by
    intro identity
    simp [passes, launch]
  have honce : (run (step spec) (launch runtime) acts).Once :=
    run_invariant (I := Once) (fun s act h => h.step act) hlaunch acts
  have hle := (honce identity).1
  rw [passes] at hle
  omega

end System

end Ficc.Agents
