import Ficc.Terminals.Machine

/-!
# Sessions do not escape

A session is made at most once for each terminal, in every run. A terminal that is recorded as
stopped or exited has no session any more, and gets none later, in every run in which no status
or stop request overtakes the request that makes the session: the answer of a machine that has
seen no creation leaves no receipt behind, so a creation that arrives later is carried out.

* `Final` is what a closed record has to mean: no session, and no request that could make one.
* `Contained` is what holds in every state. Its last two clauses, about replies and closed
  records, hold in the runs described above.
* `sessions_contained` is the result for runs.
-/

namespace Ficc.Terminals

variable {settled : Prop} {finals : String → Prop} {s : System} {id : String}

/-- The terminal is recorded, and belongs to the machine. -/
def At (s : System) (id nodeId : String) : Prop :=
  ∃ value, s.terminals.lookup id = some value ∧ value.nodeId = nodeId

/-- There is no session of the terminal, and there will be none. -/
structure Final (s : System) (id : String) : Prop where
  known : (s.terminals.lookup id).isSome
  requests : ∀ r ∈ s.requests, r.action = .create → r.terminalId ≠ id
  sessions : ∀ nodeId, id ∉ (s.nodes nodeId).sessions

/-- The record says that there is no session. -/
def Record.Closed (value : Record) : Prop :=
  value.mode = .tmux ∧ (value.state = .stopped ∨ value.state = .exited)

/-- What holds in every state. `settled` says whether the run meets the condition, and `finals`
are terminals that were final before. -/
structure Contained (settled : Prop) (finals : String → Prop) (s : System) : Prop where
  hosts : ∀ nodeId, (s.nodes nodeId).Sound
  requests : ∀ r ∈ s.requests, At s r.terminalId r.nodeId
  replies : ∀ r ∈ s.replies, At s r.request.terminalId r.request.nodeId
  receipts : ∀ nodeId id, (s.nodes nodeId).receipts.lookup id ≠ none → At s id nodeId
  holder : ∀ pending, s.holder = some pending →
    At s pending.request.terminalId pending.value.nodeId
  active : ∀ id attachment, s.active.lookup id = some attachment →
    At s id attachment.value.nodeId
  /-- A creation is requested once. -/
  single : ∀ id, (s.requests.filter fun r => r.action = .create ∧ r.terminalId = id).length ≤ 1
  /-- A creation that is on its way has left no receipt. -/
  first : ∀ r ∈ s.requests, r.action = .create →
    ∀ nodeId, (s.nodes nodeId).receipts.lookup r.terminalId = none
  /-- A machine that stopped a terminal does not answer that it is there. -/
  stopped : ∀ r ∈ s.replies, r.request.action = .stop → r.answer ≠ .ok .detached
  answered : settled → ∀ r ∈ s.replies, Answer.closed r.answer → Final s r.request.terminalId
  recorded : settled → ∀ id value, s.terminals.lookup id = some value → value.Closed →
    Final s id
  final : ∀ id, finals id → Final s id

theorem contained_initial : Contained settled (fun _ => False) .initial where
  hosts _ := Host.sound_fresh
  requests _ h := absurd h List.not_mem_nil
  replies _ h := absurd h List.not_mem_nil
  receipts _ _ h := absurd rfl h
  holder _ h := by cases h
  active _ _ h := by cases h
  single _ := Nat.zero_le _
  first _ h := absurd h List.not_mem_nil
  stopped _ h := absurd h List.not_mem_nil
  answered _ _ h := absurd h List.not_mem_nil
  recorded _ _ _ h := by cases h
  final _ h := h.elim

/-- What is final stays final when no session and no creation is added. -/
theorem Final.mono {s' : System} (h : Final s id)
    (hknown : ∀ id, (s.terminals.lookup id).isSome → (s'.terminals.lookup id).isSome)
    (hrequests : ∀ r ∈ s'.requests, r.action = .create → r ∈ s.requests)
    (hsessions : ∀ nodeId id, id ∈ (s'.nodes nodeId).sessions →
      id ∈ (s.nodes nodeId).sessions) : Final s' id where
  known := hknown id h.known
  requests r hr haction := h.requests r (hrequests r hr haction) haction
  sessions nodeId hid := h.sessions nodeId (hsessions nodeId id hid)

variable {value : Record} {nodeId : String} {request : Request} {pending : Pending}
  {result : Except Error Answer}

theorem Contained.save (h : Contained settled finals s)
    (hat : ∀ old, s.terminals.lookup id = some old → old.nodeId = value.nodeId)
    (hclosed : settled → value.Closed → Final s id) :
    Contained settled finals (s.save id value) := by
  have hlookup (id' : String) : (s.save id value).terminals.lookup id' =
      if id' = id then some value else s.terminals.lookup id' :=
    Table.lookup_insert_eq _ _ _ _
  have hstays {id' nodeId : String} (hold : At s id' nodeId) :
      At (s.save id value) id' nodeId := by
    obtain ⟨old, hold, hnode⟩ := hold
    by_cases heq : id' = id
    · subst heq
      exact ⟨value, by rw [hlookup, if_pos rfl], (hat old hold).symm.trans hnode⟩
    · exact ⟨old, by rw [hlookup, if_neg heq, hold], hnode⟩
  have hfinal {id' : String} (hold : Final s id') : Final (s.save id value) id' := by
    refine hold.mono (fun id' hknown => ?_) (fun _ hr _ => hr) fun _ _ hid => hid
    rw [hlookup]
    split_ifs
    · rfl
    · exact hknown
  exact {
    hosts := h.hosts
    requests := fun r hr => hstays (h.requests r hr)
    replies := fun r hr => hstays (h.replies r hr)
    receipts := fun nodeId id' hid => hstays (h.receipts nodeId id' hid)
    holder := fun pending hp => hstays (h.holder pending hp)
    active := fun id' attachment ha => hstays (h.active id' attachment ha)
    single := h.single
    first := h.first
    stopped := h.stopped
    final := fun id hid => hfinal (h.final id hid)
    answered := fun hs r hr hc => hfinal (h.answered hs r hr hc)
    recorded := by
      intro hs id' found hfound hc
      rw [hlookup] at hfound
      split_ifs at hfound with heq
      · obtain rfl := Option.some.inj hfound
        rw [heq]
        exact hfinal (hclosed hs hc)
      · exact hfinal (h.recorded hs id' found hfound hc) }

theorem At.eq (h : At s id nodeId) (hvalue : s.terminals.lookup id = some value) :
    value.nodeId = nodeId := by
  obtain ⟨found, hfound, hnode⟩ := h
  obtain rfl := Option.some.inj (hfound.symm.trans hvalue)
  exact hnode

/-- A record that names the same machine and is not closed is saved. -/
theorem Contained.save_open (h : Contained settled finals s) (hat : At s id value.nodeId)
    (hopen : ¬value.Closed) :
    Contained settled finals (s.save id value) :=
  h.save (fun _ hold => hat.eq hold) fun _ hc => absurd hc hopen

/-- A terminal stays at its node. -/
theorem At.save (_ : At s id nodeId) (hnode : value.nodeId = nodeId) :
    At (s.save id value) id nodeId :=
  ⟨value, by simp [System.save], hnode⟩

/-- A request that creates nothing leaves. -/
theorem Contained.send (h : Contained settled finals s)
    (hat : At s request.terminalId request.nodeId) (haction : request.action ≠ .create) :
    Contained settled finals (s.send request) := by
  have hold {r : Request} (hr : r ∈ (s.send request).requests) (hc : r.action = .create) :
      r ∈ s.requests := by
    obtain rfl | hr := List.mem_cons.mp hr
    · exact absurd hc haction
    · exact hr
  have hfinal {id : String} (h : Final s id) : Final (s.send request) id :=
    h.mono (fun _ h => h) (fun _ hr hc => hold hr hc) fun _ _ h => h
  exact {
    h with
    requests := by
      intro r hr
      obtain rfl | hr := List.mem_cons.mp hr
      · exact hat
      · exact h.requests r hr
    single := by
      intro id
      have hfilter : (s.send request).requests.filter
          (fun r => r.action = .create ∧ r.terminalId = id) =
          s.requests.filter fun r => r.action = .create ∧ r.terminalId = id :=
        List.filter_cons_of_neg (by simp [haction])
      rw [hfilter]
      exact h.single id
    first := fun r hr hc => h.first r (hold hr hc) hc
    final := fun id hid => hfinal (h.final id hid)
    answered := fun hs r hr hc => hfinal (h.answered hs r hr hc)
    recorded := fun hs id value hvalue hc => hfinal (h.recorded hs id value hvalue hc) }

/-- Only what awaits a machine changes, and the replies and requests that are on their way do
not become more. -/
theorem Contained.waits (h : Contained settled finals s) {holder : Option Pending}
    {active : Table String Attachment} {requests : List Request} {replies : List Reply}
    (hholder : ∀ pending, holder = some pending →
      At s pending.request.terminalId pending.value.nodeId)
    (hactive : ∀ id attachment, active.lookup id = some attachment →
      At s id attachment.value.nodeId)
    (hrequests : requests.Sublist s.requests) (hreplies : replies.Sublist s.replies) :
    Contained settled finals { s with holder, active, requests, replies } := by
  have hfinal {id : String} (h : Final s id) :
      Final { s with holder, active, requests, replies } id :=
    h.mono (fun _ h => h) (fun r hr _ => hrequests.subset hr) fun _ _ h => h
  exact {
    hosts := h.hosts
    requests := fun r hr => h.requests r (hrequests.subset hr)
    replies := fun r hr => h.replies r (hreplies.subset hr)
    receipts := h.receipts
    holder := hholder
    active := hactive
    single := fun id => (hrequests.filter _).length_le.trans (h.single id)
    first := fun r hr => h.first r (hrequests.subset hr)
    stopped := fun r hr => h.stopped r (hreplies.subset hr)
    final := fun id hid => hfinal (h.final id hid)
    answered := fun hs r hr hc => hfinal (h.answered hs r (hreplies.subset hr) hc)
    recorded := fun hs id value hvalue hc => hfinal (h.recorded hs id value hvalue hc) }

/-- `cleanup` closes no record of a tmux terminal. -/
theorem Contained.cleanup (h : Contained settled finals s) (id : String) (outcome : Outcome) :
    Contained settled finals (s.cleanup id outcome) := by
  have herased : Contained settled finals { s with active := s.active.erase id } := by
    refine h.waits h.holder (fun id' attachment ha => ?_) (List.Sublist.refl _)
      (List.Sublist.refl _)
    rw [Table.lookup_erase_eq] at ha
    split_ifs at ha
    exact h.active id' attachment ha
  unfold System.cleanup
  dsimp only
  split
  · exact herased
  · rename_i value hvalue
    split
    · refine herased.save_open ⟨value, hvalue, rfl⟩ fun hc => ?_
      obtain ⟨hmode, hstate⟩ := hc
      dsimp only at hmode hstate
      rw [hmode] at hstate
      simp [Outcome.state] at hstate
    · exact herased

theorem Contained.detach (h : Contained settled finals s) (id : String) (outcome : Outcome) :
    Contained settled finals (s.detach id outcome) := by
  unfold System.detach
  split
  · exact h.cleanup id outcome
  · exact h

theorem Contained.hold (h : Contained settled finals s)
    (hat : At s pending.request.terminalId pending.value.nodeId) :
    Contained settled finals { s with holder := some pending } :=
  h.waits (fun _ hp => Option.some.inj hp ▸ hat) h.active (List.Sublist.refl _)
    (List.Sublist.refl _)

theorem Contained.release (h : Contained settled finals s) :
    Contained settled finals { s with holder := none } :=
  h.waits (fun _ hp => nomatch hp) h.active (List.Sublist.refl _) (List.Sublist.refl _)

theorem Contained.activate (h : Contained settled finals s) {attachment : Attachment}
    (hat : At s id attachment.value.nodeId) :
    Contained settled finals { s with active := s.active.insert id attachment } := by
  refine h.waits h.holder (fun id' found hfound => ?_) (List.Sublist.refl _) (List.Sublist.refl _)
  rw [Table.lookup_insert_eq] at hfound
  split_ifs at hfound with heq
  · obtain rfl := Option.some.inj hfound
    exact heq ▸ hat
  · exact h.active id' found hfound

/-- The creation of a new terminal leaves: nothing is known of it anywhere. -/
theorem Contained.send_create (h : Contained settled finals s)
    (hnew : s.terminals.lookup request.terminalId = none) (hnode : value.nodeId = request.nodeId)
    (hopen : ¬value.Closed) :
    Contained settled finals ((s.save request.terminalId value).send request) := by
  have hsaved : Contained settled finals (s.save request.terminalId value) :=
    h.save (fun old hold => absurd (hnew.symm.trans hold) (by simp)) fun _ hc => absurd hc hopen
  have hunknown {nodeId : String} : ¬At s request.terminalId nodeId := by
    rintro ⟨found, hfound, -⟩
    exact absurd (hnew.symm.trans hfound) (by simp)
  have hother {r : Request} (hr : r ∈ s.requests) : r.terminalId ≠ request.terminalId :=
    fun heq => hunknown (heq ▸ h.requests r hr)
  have hreceipts (nodeId : String) :
      (s.nodes nodeId).receipts.lookup request.terminalId = none :=
    not_not.mp fun hsome => hunknown (h.receipts nodeId _ hsome)
  have hfinal {id : String} (hne : id ≠ request.terminalId)
      (h : Final (s.save request.terminalId value) id) :
      Final ((s.save request.terminalId value).send request) id := by
    refine ⟨h.known, fun r hr hc => ?_, h.sessions⟩
    obtain rfl | hr := List.mem_cons.mp hr
    · exact hne.symm
    · exact h.requests r hr hc
  exact {
    hsaved with
    requests := by
      intro r hr
      obtain rfl | hr := List.mem_cons.mp hr
      · exact ⟨value, by simp [System.send, System.save], hnode⟩
      · exact hsaved.requests r hr
    single := by
      intro id
      change ((request :: s.requests).filter _).length ≤ 1
      rw [List.filter_cons]
      split_ifs with hself
      · -- No other request is about the new terminal.
        have hempty : s.requests.filter
            (fun r => r.action = .create ∧ r.terminalId = id) = [] := by
          refine List.filter_eq_nil_iff.mpr fun r hr hboth => ?_
          have hboth := of_decide_eq_true hboth
          exact hother hr (hboth.2.trans (of_decide_eq_true hself).2.symm)
        rw [hempty]
        exact Nat.le_refl 1
      · exact h.single id
    first := by
      intro r hr hc nodeId
      obtain rfl | hr := List.mem_cons.mp hr
      · exact hreceipts nodeId
      · exact h.first r hr hc nodeId
    final := by
      intro id hid
      have hknown := (h.final id hid).known
      refine hfinal ?_ (hsaved.final id hid)
      rintro rfl
      rw [hnew] at hknown
      cases hknown
    answered := by
      intro hs r hr hc
      refine hfinal (fun heq => hunknown (heq ▸ h.replies r hr)) ?_
      exact hsaved.answered hs r hr hc
    recorded := by
      intro hs id found hfound hc
      refine hfinal ?_ (hsaved.recorded hs id found hfound hc)
      rintro rfl
      have heq : value = found := by simpa [System.send, System.save] using hfound
      exact hopen (heq ▸ hc) }

/-- A request is carried out. The creation of its terminal is not still on its way when the
machine answers that there is no session. -/
theorem Contained.execute (h : Contained settled finals s) {tmux : Tmux}
    (hmem : request ∈ s.requests)
    (hcond : settled → tmux.installed = true → tmux.looks = true → request.action ≠ .create → ∀ r ∈ s.requests, r.action = .create → r.terminalId ≠ request.terminalId)
    :
    Contained settled finals (s.execute request tmux) := by
  have hp := dispatch_performed (h.hosts request.nodeId) request tmux
  have hrest {r : Request} (hr : r ∈ s.requests.erase request) : r ∈ s.requests :=
    List.mem_of_mem_erase hr
  -- A second creation of the terminal would have been requested twice.
  have hpair {r : Request} (hr : r ∈ s.requests.erase request) (hc : r.action = .create)
      (haction : request.action = .create) : r.terminalId ≠ request.terminalId := by
    intro heq
    have hone := h.single request.terminalId
    rw [((List.perm_cons_erase hmem).filter _).length_eq, List.filter_cons_of_pos
      (by simp [haction]), List.length_cons] at hone
    have hin : r ∈ (s.requests.erase request).filter
        (fun r => r.action = .create ∧ r.terminalId = request.terminalId) :=
      List.mem_filter.mpr ⟨hr, by simp [hc, heq]⟩
    have hpos := List.length_pos_of_mem hin
    omega
  -- What changes on the machines.
  set nodes' := Function.update s.nodes request.nodeId
    (dispatch (s.nodes request.nodeId) request tmux).1 with hnodes'
  have hreceipt {nodeId id : String} (hid : (nodes' nodeId).receipts.lookup id ≠ none) :
      (s.nodes nodeId).receipts.lookup id ≠ none ∨
        request.action = .create ∧ id = request.terminalId ∧ nodeId = request.nodeId := by
    by_cases hn : nodeId = request.nodeId
    · subst hn
      rw [hnodes', Function.update_self] at hid
      exact (hp.receipt id hid).imp_right fun h => ⟨h.1, h.2, rfl⟩
    · rw [hnodes', Function.update_of_ne hn] at hid
      exact .inl hid
  have hsession {nodeId id : String} (hid : id ∈ (nodes' nodeId).sessions) :
      id ∈ (s.nodes nodeId).sessions ∨
        request.action = .create ∧ id = request.terminalId := by
    by_cases hn : nodeId = request.nodeId
    · subst hn
      rw [hnodes', Function.update_self] at hid
      exact (hp.session id hid).imp_right fun h => ⟨h.1, h.2.1⟩
    · rw [hnodes', Function.update_of_ne hn] at hid
      exact .inl hid
  have hexecute : s.execute request tmux = { s with
      requests := s.requests.erase request
      replies :=
        { request, answer := (dispatch (s.nodes request.nodeId) request tmux).2 } :: s.replies
      nodes := nodes' } := if_pos hmem
  have hfinal {id : String} (hold : Final s id) : Final (s.execute request tmux) id := by
    rw [hexecute]
    refine ⟨hold.known, fun r hr => hold.requests r (hrest hr), fun nodeId hid => ?_⟩
    obtain hid | ⟨hc, rfl⟩ := hsession hid
    · exact hold.sessions nodeId hid
    · exact hold.requests request hmem hc rfl
  have hself (hs : settled)
      (hc : Answer.closed (dispatch (s.nodes request.nodeId) request tmux).2) :
      Final (s.execute request tmux) request.terminalId := by
    obtain ⟨found, hfound, hnode⟩ := h.requests request hmem
    obtain ⟨hinstalled, hlooks⟩ := looks_of_closed hc
    rw [hexecute]
    refine ⟨by simp [hfound], fun r hr haction => ?_, fun nodeId hid => ?_⟩
    · by_cases hcreate : request.action = .create
      · exact hpair hr haction hcreate
      · exact hcond hs hinstalled hlooks hcreate r (hrest hr) haction
    · change request.terminalId ∈ (nodes' nodeId).sessions at hid
      by_cases hn : nodeId = request.nodeId
      · subst hn
        rw [hnodes', Function.update_self] at hid
        exact dispatch_closed (h.hosts _) hc hid
      · -- Another machine has no receipt of the terminal, and so no session.
        rw [hnodes', Function.update_of_ne hn] at hid
        have hsome : (s.nodes nodeId).receipts.lookup request.terminalId ≠ none :=
          fun hnone => ((h.hosts nodeId).recorded hnone).1 hid
        exact hn (((h.receipts nodeId _ hsome).eq hfound).symm.trans hnode)
  rw [hexecute] at hfinal hself ⊢
  exact {
    hosts := by
      intro nodeId
      by_cases hn : nodeId = request.nodeId
      · subst hn
        simpa [hnodes'] using hp.sound
      · simpa [hnodes', Function.update_of_ne hn] using h.hosts nodeId
    requests := fun r hr => h.requests r (hrest hr)
    replies := by
      intro r hr
      obtain rfl | hr := List.mem_cons.mp hr
      · exact h.requests request hmem
      · exact h.replies r hr
    receipts := by
      intro nodeId id hid
      obtain hid | ⟨-, rfl, rfl⟩ := hreceipt hid
      · exact h.receipts nodeId id hid
      · exact h.requests request hmem
    holder := h.holder
    active := h.active
    single := fun id => (((List.erase_sublist).filter _).length_le).trans (h.single id)
    first := by
      intro r hr hc nodeId
      by_contra hsome
      obtain hsome | ⟨haction, heq, -⟩ := hreceipt hsome
      · exact hsome (h.first r (hrest hr) hc nodeId)
      · exact hpair hr hc haction heq
    stopped := by
      intro r hr hstop
      obtain rfl | hr := List.mem_cons.mp hr
      · exact dispatch_stop tmux hstop
      · exact h.stopped r hr hstop
    final := fun id hid => hfinal (h.final id hid)
    answered := by
      intro hs r hr hc
      obtain rfl | hr := List.mem_cons.mp hr
      · exact hself hs hc
      · exact hfinal (h.answered hs r hr hc)
    recorded := fun hs id value hvalue hc => hfinal (h.recorded hs id value hvalue hc) }

/-- A machine loses sessions. -/
theorem Contained.loses (h : Contained settled finals s) {host : Host} (hsound : host.Sound)
    (hreceipts : host.receipts = (s.nodes nodeId).receipts)
    (hsessions : ∀ id, id ∈ host.sessions → id ∈ (s.nodes nodeId).sessions) :
    Contained settled finals { s with nodes := Function.update s.nodes nodeId host } := by
  have hsame (n : String) :
      (Function.update s.nodes nodeId host n).receipts = (s.nodes n).receipts := by
    by_cases hn : n = nodeId
    · subst hn
      rw [Function.update_self, hreceipts]
    · rw [Function.update_of_ne hn]
  have hfinal {id : String} (hold : Final s id) :
      Final { s with nodes := Function.update s.nodes nodeId host } id := by
    refine hold.mono (fun _ h => h) (fun _ hr _ => hr) fun n id' hid => ?_
    dsimp only at hid
    by_cases hn : n = nodeId
    · subst hn
      rw [Function.update_self] at hid
      exact hsessions id' hid
    · rwa [Function.update_of_ne hn] at hid
  exact {
    h with
    hosts := by
      intro n
      by_cases hn : n = nodeId
      · subst hn
        simpa using hsound
      · simpa [Function.update_of_ne hn] using h.hosts n
    receipts := fun n id hid => h.receipts n id (hsame n ▸ hid)
    first := by
      intro r hr hc n
      dsimp only
      rw [hsame]
      exact h.first r hr hc n
    final := fun id hid => hfinal (h.final id hid)
    answered := fun hs r hr hc => hfinal (h.answered hs r hr hc)
    recorded := fun hs id value hvalue hc => hfinal (h.recorded hs id value hvalue hc) }

theorem not_closed (h : value.state ≠ .stopped ∧ value.state ≠ .exited) :
    ¬value.Closed :=
  fun hc => hc.2.elim h.1 h.2

theorem Contained.create (h : Contained settled finals s) (id : String) (asked : Asked)
    (checks : Checks) : Contained settled finals (s.create id asked checks) := by
  unfold System.create
  split
  · exact h
  · rename_i hguard
    have hnew : s.terminals.lookup id = none := by
      cases hfound : s.terminals.lookup id with
      | none => rfl
      | some _ => exact absurd (.inr (by simp [hfound])) hguard
    have hopen : ¬asked.record.Closed := not_closed ⟨by nofun, by nofun⟩
    have hsaved : Contained settled finals (s.save id asked.record) :=
      h.save (fun old hold => absurd (hnew.symm.trans hold) (by simp))
        fun _ hc => absurd hc hopen
    have hat : At (s.save id asked.record) id asked.record.nodeId :=
      ⟨_, by simp [System.save], rfl⟩
    split
    · dsimp only
      split
      · exact hsaved
      · exact hsaved.save_open hat (not_closed ⟨by nofun, by nofun⟩)
      · -- The request, and the lock that awaits it.
        have hsent : Contained settled finals ((s.save id asked.record).send
            ((s.save id asked.record).request id asked.record .create)) := by
          have hnone : s.terminals.lookup ((s.save id asked.record).request id asked.record
            .create).terminalId = none := hnew
          exact h.send_create hnone rfl hopen
        exact hsent.hold hat
    · exact h

theorem Contained.attach (h : Contained settled finals s) (id : String) (checks : Checks) :
    Contained settled finals (s.attach id checks) := by
  unfold System.attach
  split
  · exact h
  · split
    · rename_i value hvalue _
      have hat : At s id value.nodeId := ⟨value, hvalue, rfl⟩
      split
      · exact h
      · have hsaved : Contained settled finals (s.save id { value with state := .connecting }) :=
          h.save_open hat (not_closed ⟨by nofun, by nofun⟩)
        have hat' : At (s.save id { value with state := .connecting }) id value.nodeId :=
          hat.save rfl
        dsimp only
        split
        · exact hsaved.activate hat'
        · exact hsaved.cleanup id .interrupted
        · exact (hsaved.send hat' (by nofun)).activate hat'
    · exact h

/-- An attachment that is told of no session is told the truth. -/
theorem Contained.told (h : Contained settled finals s) {attachment : Attachment}
    (hat : At s id attachment.value.nodeId)
    (hfinal : settled → ∀ answer, result = .ok answer → answer ≠ .detached → Final s id) :
    Contained settled finals (s.told id attachment result) := by
  unfold System.told
  split
  · exact h.activate hat
  · rename_i answer hne
    have hgone (hs : settled) : Final s id := by
      refine hfinal hs answer rfl ?_
      rintro rfl
      exact hne rfl
    have hsaved : Contained settled finals (s.save id { attachment.value with state := .exited }) :=
      h.save (fun _ hold => hat.eq hold) fun hs _ => hgone hs
    exact hsaved.cleanup id .interrupted
  · exact h.cleanup id .interrupted

theorem Contained.opened (h : Contained settled finals s) (id : String) :
    Contained settled finals (s.opened id) := by
  unfold System.opened
  split
  · rename_i value hactive
    have hat : At s id value.nodeId := h.active id _ hactive
    have hsaved : Contained settled finals (s.save id { value with state := .attached }) :=
      h.save_open hat (not_closed ⟨by nofun, by nofun⟩)
    exact hsaved.activate (hat.save rfl)
  · exact h

theorem Contained.stop (h : Contained settled finals s) (id : String) (checks : Checks) :
    Contained settled finals (s.stop id checks) := by
  unfold System.stop
  split
  · exact h
  · split
    · rename_i value hvalue _
      have hat : At s id value.nodeId := ⟨value, hvalue, rfl⟩
      split
      · exact h
      · -- The record is unknown, and the attachment has ended.
        have hmarked : Contained settled finals (s.save id { value with state := .unknown }) :=
          h.save_open hat (not_closed ⟨by nofun, by nofun⟩)
        have hsaved := hmarked.detach id .detached
        have hat' : At ((s.save id { value with state := .unknown }).detach id .detached) id
            value.nodeId := by
          refine ⟨{ value with state := .unknown }, ?_, rfl⟩
          unfold System.detach System.cleanup
          split <;> simp [System.save]
        dsimp only
        split
        · rename_i hmode
          exact hsaved.save_open hat' fun hc => by simp [Record.Closed, hmode] at hc
        · exact hsaved.save_open hat' (not_closed ⟨by nofun, by nofun⟩)
        · exact (hsaved.send hat' (by nofun)).hold hat'
    · exact h

theorem Contained.reconcile (h : Contained settled finals s) (id : String) (checks : Checks) :
    Contained settled finals (s.reconcile id checks) := by
  unfold System.reconcile
  split
  · exact h
  · split
    · rename_i value hvalue _ _
      have hat : At s id value.nodeId := ⟨value, hvalue, rfl⟩
      split
      · exact h
      · exact (h.send hat (by nofun)).hold hat
    · exact h

/-- The operation that has the lock goes on with what its machine has answered. -/
theorem Contained.concluded (h : Contained settled finals s)
    (hat : At s pending.request.terminalId pending.value.nodeId)
    (hstop : pending.request.action = .stop → result ≠ .ok .detached)
    (hfinal : settled → ∀ answer, result = .ok answer → answer ≠ .detached → Final s pending.request.terminalId)
    :
    Contained settled finals (s.concluded pending result) := by
  have hreleased := h.release
  unfold System.concluded
  dsimp only
  split
  · refine hreleased.save_open hat (not_closed ?_)
    dsimp only
    split <;> exact ⟨by nofun, by nofun⟩
  · exact hreleased.save_open hat (not_closed ⟨by nofun, by nofun⟩)
  · rename_i answer haction
    have hgone (hs : settled) : Final s pending.request.terminalId := by
      refine hfinal hs answer rfl ?_
      rintro rfl
      exact hstop haction rfl
    exact hreleased.save (fun _ hold => hat.eq hold) fun hs _ =>
      ⟨(hgone hs).known, (hgone hs).requests, (hgone hs).sessions⟩
  · exact hreleased.save_open hat (not_closed ⟨by nofun, by nofun⟩)
  · rename_i answer _
    refine hreleased.save (fun _ hold => hat.eq hold) fun hs hc => ?_
    have hne : answer ≠ .detached := by
      rintro rfl
      exact hc.2.elim (by nofun) (by nofun)
    have hgone := hfinal hs answer rfl hne
    exact ⟨hgone.known, hgone.requests, hgone.sessions⟩
  · exact hreleased

theorem Contained.cancelled (h : Contained settled finals s)
    (hat : At s pending.request.terminalId pending.value.nodeId) :
    Contained settled finals (s.cancelled pending) := by
  unfold System.cancelled
  dsimp only
  split
  · exact h.release.save_open hat (not_closed ⟨by nofun, by nofun⟩)
  · exact h.release

theorem Contained.resumeAttachment (h : Contained settled finals s)
    (hfinal : settled → ∀ answer, result = .ok answer → answer ≠ .detached → Final s request.terminalId)
    :
    Contained settled finals (s.resumeAttachment request result) := by
  unfold System.resumeAttachment
  split
  · rename_i attachment hactive
    split
    · exact h.told (h.active _ _ hactive) hfinal
    · exact h
  · exact h

/-- An answer keeps the terminals contained. -/
theorem Contained.resume (h : Contained settled finals s)
    (hstop : request.action = .stop → result ≠ .ok .detached)
    (hfinal : settled → ∀ answer, result = .ok answer → answer ≠ .detached → Final s request.terminalId)
    :
    Contained settled finals (s.resume request result) := by
  unfold System.resume
  split
  · rename_i pending hholder
    split
    · rename_i heq
      subst heq
      exact h.concluded (h.holder pending hholder) hstop hfinal
    · exact h.resumeAttachment hfinal
  · exact h.resumeAttachment hfinal

/-- So does a restart. -/
theorem Contained.restart (h : Contained settled finals s) : Contained settled finals s.restart := by
  have hlookup (id : String) :
      s.restart.terminals.lookup id = (s.terminals.lookup id).map Record.restarted :=
    Table.lookup_mapRows s.terminals Record.restarted id
  have hstays {id nodeId : String} (hold : At s id nodeId) : At s.restart id nodeId := by
    obtain ⟨value, hvalue, rfl⟩ := hold
    refine ⟨value.restarted, by rw [hlookup, hvalue, Option.map_some], ?_⟩
    unfold Record.restarted
    split <;> rfl
  have hfinal {id : String} (hold : Final s id) : Final s.restart id := by
    refine hold.mono (fun id hknown => ?_) (fun _ hr _ => hr) fun _ _ hid => hid
    rwa [hlookup, Option.isSome_map]
  exact {
    hosts := h.hosts
    requests := fun r hr => hstays (h.requests r hr)
    replies := fun _ hr => absurd hr List.not_mem_nil
    receipts := fun nodeId id hid => hstays (h.receipts nodeId id hid)
    holder := fun _ hp => nomatch hp
    active := fun _ _ ha => nomatch ha
    single := h.single
    first := h.first
    stopped := fun _ hr => absurd hr List.not_mem_nil
    answered := fun _ _ hr => absurd hr List.not_mem_nil
    final := fun id hid => hfinal (h.final id hid)
    recorded := by
      intro hs id found hfound hc
      obtain ⟨value, hvalue, rfl⟩ := Option.map_eq_some_iff.mp ((hlookup id).symm.trans hfound)
      refine hfinal (h.recorded hs id value hvalue ?_)
      unfold Record.restarted at hc
      split at hc
      · -- A record that the restart changes is not closed after it.
        obtain ⟨hmode, hstate⟩ := hc
        dsimp only at hmode hstate
        rw [hmode] at hstate
        simp at hstate
      · exact hc }

/-- No status or stop request is answered by a machine while the request that creates the
terminal is still on its way to it. -/
def Settled (s : System) : Action → Prop
  | .execute request tmux =>
    request ∈ s.requests → tmux.installed = true → tmux.looks = true →
      request.action ≠ .create →
      ∀ r ∈ s.requests, r.action = .create → r.terminalId ≠ request.terminalId
  | _ => True

instance (s : System) : DecidablePred (Settled s)
  | .execute request tmux =>
    inferInstanceAs (Decidable (request ∈ s.requests → tmux.installed = true →
      tmux.looks = true → request.action ≠ .create →
      ∀ r ∈ s.requests, r.action = .create → r.terminalId ≠ request.terminalId))
  | .create .. | .attach .. | .opened .. | .detach .. | .stop .. | .reconcile .. | .answer ..
  | .fail .. | .cancel | .drop .. | .exit .. | .reboot .. | .restart => .isTrue trivial

/-- What one event keeps. -/
theorem Contained.step (h : Contained settled finals s) (action : Action)
    (hcond : settled → Settled s action) : Contained settled finals (step s action) := by
  cases action with
  | create id asked checks => exact h.create id asked checks
  | attach id checks => exact h.attach id checks
  | opened id => exact h.opened id
  | detach id outcome => exact h.detach id outcome
  | stop id checks => exact h.stop id checks
  | reconcile id checks => exact h.reconcile id checks
  | answer reply =>
    by_cases hmem : reply ∈ s.replies
    · have hreceived : Contained settled finals { s with replies := s.replies.erase reply } :=
        h.waits h.holder h.active (List.Sublist.refl _) List.erase_sublist
      simp only [Terminals.step, if_pos hmem]
      refine hreceived.resume (fun hstop heq => ?_) fun hs answer heq hne => ?_
      · -- What `remote` returns is what the machine answered.
        refine h.stopped reply hmem hstop ?_
        unfold remote at heq
        split at heq
        · rename_i answer hanswer
          rw [hanswer]
          exact congrArg _ (Except.ok.inj heq)
        · cases heq
      · have hclosed : Answer.closed reply.answer := by
          unfold remote at heq
          split at heq
          · rename_i found hanswer
            rw [hanswer, Except.ok.inj heq]
            cases answer with
            | detached => exact hne rfl
            | missing => trivial
            | stopped => trivial
          · cases heq
        obtain ⟨hknown, hrequests, hsessions⟩ := h.answered hs reply hmem hclosed
        exact ⟨hknown, hrequests, hsessions⟩
    · simpa only [Terminals.step, if_neg hmem] using h
  | fail request e => exact h.resume (fun _ => by nofun) fun _ _ heq => nomatch heq
  | cancel =>
    cases hholder : s.holder with
    | none => simpa only [Terminals.step, hholder] using h
    | some pending =>
      simpa only [Terminals.step, hholder] using h.cancelled (h.holder pending hholder)
  | execute request tmux =>
    by_cases hmem : request ∈ s.requests
    · exact h.execute hmem fun hs => hcond hs hmem
    · simpa only [Terminals.step, System.execute, if_neg hmem] using h
  | drop request => exact h.waits h.holder h.active List.erase_sublist (List.Sublist.refl _)
  | exit nodeId id =>
    exact h.loses ((h.hosts nodeId).endSession id) rfl
      fun _ hid => (Host.mem_endSession.mp hid).1
  | reboot nodeId bootId =>
    exact h.loses ((h.hosts nodeId).reboot bootId) rfl fun _ hid => absurd hid List.not_mem_nil
  | restart => exact h.restart

/-- What holds after every run, and after every run in which no creation is overtaken. -/
theorem contained_run (h : Contained settled finals s) {actions : List Action}
    (hrun : settled → Along step Settled s actions) :
    Contained settled finals (run step s actions) := by
  by_cases hs : settled
  · refine Along.run_invariant (fun s action h hcond => ?_) h (hrun hs)
    exact h.step action fun _ => hcond
  · exact run_invariant (fun s action h => h.step action fun hs' => absurd hs' hs) h actions

/-- What is final is final for ever. -/
theorem Contained.mark (h : Contained settled finals s) (hfinal : Final s id) :
    Contained settled (· = id) s :=
  { h with final := fun _ heq => heq ▸ hfinal }

/-- A machine makes the session of a terminal at most once, and only one machine does. A terminal
that is recorded as stopped or exited has no session then or later, in every run in which no
status or stop request overtakes the request that creates its terminal. -/
theorem sessions_contained (first later : List Action) :
    (∀ nodeId, ((run step .initial (first ++ later)).nodes nodeId).made.Nodup ∧
      ∀ id ∈ ((run step .initial (first ++ later)).nodes nodeId).made, ∀ nodeId',
        id ∈ ((run step .initial (first ++ later)).nodes nodeId').made → nodeId' = nodeId) ∧
    (Along step Settled .initial (first ++ later) →
      ∀ id value, (run step .initial first).terminals.lookup id = some value →
        value.mode = .tmux → value.state = .stopped ∨ value.state = .exited →
        ∀ nodeId, id ∉ ((run step .initial (first ++ later)).nodes nodeId).sessions) := by
  constructor
  · intro nodeId
    have h : Contained False _ (run step .initial (first ++ later)) :=
      contained_run contained_initial False.elim
    refine ⟨(h.hosts nodeId).once, fun id hid nodeId' hid' => ?_⟩
    -- Both machines have a receipt, and the record names one machine.
    have hat {n : String} (hmade : id ∈ ((run step .initial (first ++ later)).nodes n).made) :
        At (run step .initial (first ++ later)) id n :=
      h.receipts n id fun hnone => ((h.hosts n).recorded hnone).2 hmade
    obtain ⟨value, hvalue, rfl⟩ := hat hid
    exact ((hat hid').eq hvalue).symm
  · intro hrun id value hvalue hmode hstate
    obtain ⟨hfirst, hlater⟩ := along_append.mp hrun
    have h : Contained True _ (run step .initial first) :=
      contained_run contained_initial fun _ => hfirst
    have hfinal := h.recorded trivial id value hvalue ⟨hmode, hstate⟩
    rw [run_append]
    exact ((contained_run (h.mark hfinal) fun _ => hlater).final id rfl).sessions

/-- A request for a persistent terminal. -/
def asked : Asked :=
  { nodeId := "n", mode := .tmux, cols := 80, rows := 24, actor := "a", key := "k", digest := "d" }

/-- The requests for the terminal that it creates, in the order of their numbers. -/
def requestOf (number : ℕ) (action : Verb) : Request :=
  { number, action, nodeId := "n", terminalId := "t"
    cols := if action = .create then some 80 else none
    rows := if action = .create then some 24 else none }

/-- The replies to a creation and to a stop are lost. The creation is carried out late, the terminal
is found again, and it is stopped. -/
def orderly : List Action :=
  [.create "t" asked .pass, .fail (requestOf 0 .create) (.failure "unreachable" "" 502),
    .stop "t" .pass, .fail (requestOf 1 .stop) (.failure "unreachable" "" 502),
    .execute (requestOf 0 .create) .well, .reconcile "t" .pass,
    .execute (requestOf 2 .status) .well, .answer ⟨requestOf 2 .status, .ok .detached⟩,
    .stop "t" .pass, .execute (requestOf 3 .stop) .well, .answer ⟨requestOf 3 .stop, .ok .stopped⟩]

/-- The first stop is carried out late, and the client repeats its creation. -/
def repeated : List Action := [.execute (requestOf 1 .stop) .well, .create "u" asked .pass]

/-- The stopped terminal has no session, and the machine has made one once. -/
theorem sessions_contained_orderly :
    "t" ∈ ((run step .initial (orderly.take 8)).nodes "n").sessions ∧
    "t" ∉ ((run step .initial (orderly ++ repeated)).nodes "n").sessions ∧
    ((run step .initial (orderly ++ repeated)).nodes "n").made.Nodup := by
  obtain ⟨hmade, hcontained⟩ := sessions_contained orderly repeated
  refine ⟨by decide +kernel, ?_, (hmade "n").1⟩
  exact hcontained (by decide +kernel) "t" { asked.record with state := .stopped }
    (by decide +kernel) rfl (.inl rfl) "n"

/-- The reply of a creation is lost while the request is still on its way. The machine answers
the question after it that there is no session, and carries the creation out later. -/
theorem sessions_escape :
    ¬∀ first later id value, (run step .initial first).terminals.lookup id = some value →
      value.mode = .tmux → value.state = .stopped ∨ value.state = .exited →
      ∀ nodeId, id ∉ ((run step .initial (first ++ later)).nodes nodeId).sessions := by
  intro h
  refine h [.create "t" asked .pass, .fail (requestOf 0 .create) (.failure "unreachable" "" 502),
      .reconcile "t" .pass, .execute (requestOf 1 .status) .well,
      .answer ⟨requestOf 1 .status, .ok .missing⟩]
    [.execute (requestOf 0 .create) .well] "t" { asked.record with state := .exited }
    (by decide +kernel) rfl (.inr rfl) "n" (by decide +kernel)

end Ficc.Terminals
