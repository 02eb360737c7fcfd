import Ficc.Foundations.Table
import Ficc.Foundations.Raising

/-!
# Terminal sessions on a machine

The node helper's side of persistent terminals. For each terminal identity of a controller the
folder holds one receipt, which is written before the session is made and never removed. The
request is carried out under a file lock, so the requests of a controller follow each other.

* `dispatch` is one request, with the commands of tmux that it runs.
* `Host.Sound` is what every request keeps: a session and its making are recorded by a receipt,
  no session is made twice, and a stopped receipt has no session.
* `Performed` says what one request can do.
-/

namespace Ficc.Terminals

/-- The `state` of a receipt. -/
inductive ReceiptState
  | creating | unknown | detached | stopped
deriving DecidableEq, Repr

/-- A receipt, saved under the identity of its terminal. -/
structure Receipt where
  bootId : ℕ
  state : ReceiptState
  cols : ℕ
  rows : ℕ
deriving DecidableEq, Repr

/-- A machine: its boot, the folder of receipts, and the sessions of the controller's tmux
namespace. -/
structure Host where
  bootId : ℕ
  receipts : Table String Receipt
  sessions : List String
  /-- The sessions that `new-session` has made, in order. -/
  made : List String

/-- A machine on which nothing has been done. -/
def Host.fresh : Host := { bootId := 0, receipts := ∅, sessions := [], made := [] }

/-- The three requests, without their common prefix. -/
inductive Verb
  | create | status | stop
deriving DecidableEq, Repr

/-- A request for one terminal. The number distinguishes a request from every other one. -/
structure Request where
  number : ℕ
  action : Verb
  nodeId : String
  terminalId : String
  cols : Option ℕ
  rows : Option ℕ
deriving DecidableEq, Repr

/-- The `state` that the helper answers. -/
inductive Answer
  | detached | missing | stopped
deriving DecidableEq, Repr

/-- How a command of tmux goes: whether it has its effect, and whether it succeeds. There is no
result when its time runs out, or the helper dies, before it returns. -/
structure Call where
  acts : Bool
  succeeds : Option Bool
deriving DecidableEq, Repr

/-- The commands of tmux during one request. `has-session` tells the truth when it returns. -/
structure Tmux where
  installed : Bool
  /-- The first `has-session` returns. -/
  looks : Bool
  newSession : Call
  /-- The `has-session` after `new-session` returns. -/
  looksAgain : Bool
  killSession : Call
deriving DecidableEq, Repr

/-- Every command returns and does what it is for. -/
def Tmux.well : Tmux :=
  { installed := true, looks := true, newSession := ⟨true, some true⟩, looksAgain := true
    killSession := ⟨true, some true⟩ }

/-- The result of a helper's work that raised. A time that runs out raises as well. -/
def timedOut : String := "Command timed out after 5 seconds."

/-- `write(path, value)`: the receipt is durable before the helper goes on. -/
def Host.write (host : Host) (terminal : String) (value : Receipt) : Host :=
  { host with receipts := host.receipts.insert terminal value }

/-- `new-session` makes the session. -/
def Host.newSession (host : Host) (terminal : String) : Host :=
  { host with sessions := terminal :: host.sessions, made := host.made ++ [terminal] }

/-- The session goes: it was killed, or it ended. -/
def Host.endSession (host : Host) (terminal : String) : Host :=
  { host with sessions := host.sessions.filter (· ≠ terminal) }

/-- The machine reboots: the receipts stay. -/
def Host.reboot (host : Host) (bootId : ℕ) : Host := { host with bootId, sessions := [] }

/-- The dimensions of a request when they are valid. -/
def dimensions (request : Request) : Option (ℕ × ℕ) :=
  match request.cols, request.rows with
  | some cols, some rows =>
    if 2 ≤ cols ∧ cols ≤ 300 ∧ 2 ≤ rows ∧ rows ≤ 120 then some (cols, rows) else none
  | _, _ => none

/-- The session of a new receipt is made, and the receipt tells how it went. -/
def launch (host : Host) (terminal : String) (value : Receipt) (tmux : Tmux) :
    Host × Except String (Receipt × Bool) :=
  -- The intent remains if creation has an uncertain outcome; it is never made again.
  let host := host.write terminal value
  let host := if tmux.newSession.acts then host.newSession terminal else host
  match tmux.newSession.succeeds with
  | none => (host, .error timedOut)
  | some success =>
    if !tmux.looksAgain then (host, .error timedOut) else
    let present := decide (terminal ∈ host.sessions)
    let value := { value with state := if !success || !present then .unknown else .detached }
    (host.write terminal value, .ok (value, present))

/-- The part of a request that only a creation has. -/
def intend (host : Host) (request : Request) (tmux : Tmux) (value : Option Receipt)
    (present : Bool) : Host × Except String (Option Receipt × Bool) :=
  if request.action ≠ .create then (host, .ok (value, present)) else
  match dimensions request with
  | none => (host, .error "Invalid terminal dimensions.")
  | some (cols, rows) =>
    match value with
    | none =>
      if present ∨ 512 ≤ host.receipts.entries.length then
        (host, .error "The terminal namespace is full or has an unrecorded session.")
      else
        let started := launch host request.terminalId
          { bootId := host.bootId, state := .creating, cols, rows } tmux
        (started.1, started.2.map fun (value, present) => (some value, present))
    | some value =>
      if (value.cols, value.rows) ≠ (cols, rows) then
        (host, .error "The terminal request conflicts with its saved identity.")
      else (host, .ok (some value, present))

/-- The part that every request has. -/
def conclude (host : Host) (request : Request) (tmux : Tmux) (value : Option Receipt)
    (present : Bool) : Host × Except String Answer :=
  match value with
  | none =>
    if present then
      (host, .error "An unrecorded terminal session requires manual recovery.")
    else (host, .ok .missing)
  | some value =>
    if request.action = .stop then
      let stopped := { value with state := .stopped }
      if !present then (host.write request.terminalId stopped, .ok .stopped) else
      match tmux.killSession.succeeds with
      | some true =>
        ((host.endSession request.terminalId).write request.terminalId stopped, .ok .stopped)
      | failed =>
        (if tmux.killSession.acts then host.endSession request.terminalId else host,
          .error (if failed = none then timedOut
            else "The terminal stop could not be confirmed."))
    else if value.state = .stopped then (host, .ok .stopped)
    else (host, .ok (if present then .detached else .missing))

/-- `dispatch(request)`, under the lock of the folder. -/
def dispatch (host : Host) (request : Request) (tmux : Tmux) : Host × Except String Answer :=
  if !tmux.installed then (host, .error "Tmux is unavailable on this machine.") else
  if !tmux.looks then (host, .error timedOut) else
  let value := host.receipts.lookup request.terminalId
  let present := decide (request.terminalId ∈ host.sessions)
  match intend host request tmux value present with
  | (host, .error text) => (host, .error text)
  | (host, .ok (value, present)) => conclude host request tmux value present

/-- `attach(controller, terminal)`: the session is attached only when it is there. -/
def attach (host : Host) (terminal : String) : Except String Unit := do
  let value ← orRaise (host.receipts.lookup terminal) "No such file or directory."
  raiseIf (value.state = .stopped ∨ terminal ∉ host.sessions)
    "The terminal session is no longer available."

/-- What holds of a machine on which only the helper makes sessions. -/
structure Host.Sound (host : Host) : Prop where
  /-- A session, and the making of one, is recorded. -/
  recorded : ∀ {id}, host.receipts.lookup id = none → id ∉ host.sessions ∧ id ∉ host.made
  once : host.made.Nodup
  gone : ∀ {id value}, host.receipts.lookup id = some value → value.state = .stopped →
    id ∉ host.sessions

theorem Host.sound_fresh : Host.fresh.Sound where
  recorded _ := by simp [Host.fresh]
  once := List.nodup_nil
  gone _ _ := by simp [Host.fresh]

variable {host : Host} {terminal : String} {request : Request} {tmux : Tmux}

theorem Host.Sound.write (h : host.Sound) {value : Receipt}
    (hgone : value.state = .stopped → terminal ∉ host.sessions) :
    (host.write terminal value).Sound := by
  refine ⟨fun {id} hnone => ?_, h.once, fun {id found} hfound hstopped => ?_⟩
  · rw [Host.write, Table.lookup_insert_eq] at hnone
    split_ifs at hnone
    exact h.recorded hnone
  · rw [Host.write, Table.lookup_insert_eq] at hfound
    split_ifs at hfound with hid
    · obtain rfl := Option.some.inj hfound
      rw [hid]
      exact hgone hstopped
    · exact h.gone hfound hstopped

theorem Host.Sound.newSession (h : host.Sound) {value : Receipt}
    (hvalue : host.receipts.lookup terminal = some value) (hstate : value.state ≠ .stopped)
    (hmade : terminal ∉ host.made) :
    (host.newSession terminal).Sound := by
  refine ⟨fun {id} hnone => ?_, ?_, fun {id found} hfound hstopped => ?_⟩
  · have hne : id ≠ terminal := by
      rintro rfl
      exact absurd (hvalue.symm.trans hnone) (by simp)
    obtain ⟨hsession, hold⟩ := h.recorded hnone
    exact ⟨by simp [Host.newSession, hne, hsession], by simp [Host.newSession, hne, hold]⟩
  · exact List.Nodup.append h.once (List.nodup_singleton _) (by simpa using hmade)
  · have hne : id ≠ terminal := by
      rintro rfl
      obtain rfl := Option.some.inj (hvalue.symm.trans hfound)
      exact hstate hstopped
    have hold := h.gone hfound hstopped
    simp [Host.newSession, hne, hold]

theorem Host.mem_endSession {id : String} :
    id ∈ (host.endSession terminal).sessions ↔ id ∈ host.sessions ∧ id ≠ terminal := by
  simp [Host.endSession]

theorem Host.Sound.endSession (h : host.Sound) (terminal : String) :
    (host.endSession terminal).Sound where
  recorded hnone :=
    have hold := h.recorded hnone
    ⟨fun hmem => hold.1 (Host.mem_endSession.mp hmem).1, hold.2⟩
  once := h.once
  gone hfound hstopped := fun hmem => h.gone hfound hstopped (Host.mem_endSession.mp hmem).1

theorem Host.Sound.reboot (h : host.Sound) (bootId : ℕ) :
    (host.reboot bootId).Sound where
  recorded hnone := ⟨by simp [Host.reboot], (h.recorded hnone).2⟩
  once := h.once
  gone _ _ := by simp [Host.reboot]

/-- What the machine can have become by one request. -/
structure Performed (request : Request) (host host' : Host) : Prop where
  sound : host'.Sound
  kept : ∀ id, host.receipts.lookup id ≠ none → host'.receipts.lookup id ≠ none
  /-- A receipt comes from a creation. -/
  receipt : ∀ id, host'.receipts.lookup id ≠ none → host.receipts.lookup id ≠ none ∨
    request.action = .create ∧ id = request.terminalId
  /-- A session comes from a creation that found no receipt. -/
  session : ∀ id, id ∈ host'.sessions → id ∈ host.sessions ∨
    request.action = .create ∧ id = request.terminalId ∧ host.receipts.lookup id = none

theorem Performed.refl (h : host.Sound) (request : Request) :
    Performed request host host :=
  ⟨h, fun _ h => h, fun _ h => .inl h, fun _ h => .inl h⟩

/-- A machine that only lost sessions and saved the receipt of a recorded terminal anew. -/
theorem Performed.of_recorded {host' : Host} (hsound : host'.Sound)
    (hreceipts : ∀ id, host'.receipts.lookup id = none ↔ host.receipts.lookup id = none)
    (hsessions : ∀ id, id ∈ host'.sessions → id ∈ host.sessions) :
    Performed request host host' :=
  ⟨hsound, fun id hid h => hid ((hreceipts id).mp h),
    fun id hid => .inl fun h => hid ((hreceipts id).mpr h), fun id h => .inl (hsessions id h)⟩

theorem Host.lookup_write_eq_none {value : Receipt} (h : host.receipts.lookup terminal ≠ none)
    (id : String) :
    (host.write terminal value).receipts.lookup id = none ↔ host.receipts.lookup id = none := by
  rw [Host.write, Table.lookup_insert_eq]
  split_ifs with hid
  · rw [hid]
    exact ⟨nofun, fun hnone => absurd hnone h⟩
  · rfl

/-- A launch is what one request can do. -/
theorem launch_performed (h : host.Sound) (haction : request.action = .create)
    (hnone : host.receipts.lookup request.terminalId = none) {value : Receipt}
    (hstate : value.state ≠ .stopped) (tmux : Tmux) :
    Performed request host (launch host request.terminalId value tmux).1 := by
  set terminal := request.terminalId with hterminal
  have hwritten : (host.write terminal value).Sound := h.write fun hs => absurd hs hstate
  have hself : (host.write terminal value).receipts.lookup terminal = some value := by
    simp [Host.write]
  -- The machine after the session was made, or was not.
  obtain ⟨started, hstarted, hsound, hreceipts, hsessions⟩ : ∃ started : Host,
      (if tmux.newSession.acts then (host.write terminal value).newSession terminal
        else host.write terminal value) = started ∧ started.Sound ∧
      started.receipts = (host.write terminal value).receipts ∧
      ∀ id, id ∈ started.sessions → id ∈ host.sessions ∨ id = terminal := by
    refine ⟨_, rfl, ?_⟩
    split_ifs with hacts
    · refine ⟨hwritten.newSession hself hstate (h.recorded hnone).2, rfl, fun id hid => ?_⟩
      obtain rfl | hid := List.mem_cons.mp hid
      · exact .inr rfl
      · exact .inl hid
    · exact ⟨hwritten, rfl, fun id hid => .inl hid⟩
  have hlookup (id : String) :
      started.receipts.lookup id = if id = terminal then some value
        else host.receipts.lookup id := by
    rw [hreceipts, Host.write, Table.lookup_insert_eq]
  -- Whatever is saved under the identity of the terminal later, the request was a creation.
  have hall {host' : Host} (hsound' : host'.Sound) (hsame : host'.sessions = started.sessions)
      (hlookup' : ∀ id, host'.receipts.lookup id = none ↔ started.receipts.lookup id = none) :
      Performed request host host' := by
    refine ⟨hsound', fun id hid hnone' => ?_, fun id hid => ?_, fun id hid => ?_⟩
    · have hnext := (hlookup' id).mp hnone'
      rw [hlookup] at hnext
      split_ifs at hnext
      exact hid hnext
    · rw [Ne, hlookup', hlookup] at hid
      split_ifs at hid with heq
      · exact .inr ⟨haction, heq⟩
      · exact .inl hid
    · rw [hsame] at hid
      obtain hid | heq := hsessions id hid
      · exact .inl hid
      · exact .inr ⟨haction, heq, heq ▸ hnone⟩
  unfold launch
  simp only [hstarted]
  cases tmux.newSession.succeeds with
  | none => exact hall hsound rfl fun _ => Iff.rfl
  | some success =>
    dsimp only
    split
    · exact hall hsound rfl fun _ => Iff.rfl
    · refine hall (hsound.write ?_) rfl (Host.lookup_write_eq_none ?_)
      · dsimp only
        split <;> nofun
      · rw [hlookup, if_pos rfl]
        nofun

/-- A request keeps what holds of a machine. -/
theorem intend_performed (h : host.Sound) (request : Request) (tmux : Tmux) :
    Performed request host (intend host request tmux (host.receipts.lookup request.terminalId)
      (decide (request.terminalId ∈ host.sessions))).1 := by
  by_cases haction : request.action = .create
  · rw [intend, if_neg (not_not.mpr haction)]
    split
    · exact .refl h request
    · split
      · rename_i hnone
        split
        · exact .refl h request
        · exact launch_performed h haction hnone (by nofun) tmux
      · split <;> exact .refl h request
  · rw [intend, if_pos haction]
    exact .refl h request

/-- What a request that creates nothing reads is what the machine has. -/
theorem intend_of_ne_create (h : request.action ≠ .create) (tmux : Tmux) (value : Option Receipt)
    (present : Bool) :
    intend host request tmux value present = (host, .ok (value, present)) :=
  if_pos h

/-- What a creation goes on with is what the machine has then. -/
theorem intend_ok {host' : Host} {value : Option Receipt} {present : Bool}
    (h : intend host request tmux (host.receipts.lookup request.terminalId) (decide (request.terminalId ∈ host.sessions)) = (host', .ok (value, present)))
    :
    value = host'.receipts.lookup request.terminalId ∧
      present = decide (request.terminalId ∈ host'.sessions) := by
  by_cases haction : request.action = .create
  · rw [intend, if_neg (not_not.mpr haction)] at h
    split at h
    · cases h
    · split at h
      · split at h
        · cases h
        · -- A new receipt has been saved with what was seen of its session.
          unfold launch at h
          dsimp only at h
          split at h
          · cases h
          · split at h
            · cases h
            · cases h
              exact ⟨by simp [Host.write], rfl⟩
      · rename_i hsome
        split at h
        · cases h
        · cases h
          exact ⟨hsome.symm, rfl⟩
  · rw [intend, if_pos haction] at h
    cases h
    exact ⟨rfl, rfl⟩

/-- What a request answers about a session that is not there. -/
def Answer.closed : Except String Answer → Prop
  | .ok .detached => False
  | .ok _ => True
  | .error _ => False

/-- So is a conclusion. -/
theorem conclude_performed (h : host.Sound) (request : Request) (tmux : Tmux) :
    Performed request host (conclude host request tmux (host.receipts.lookup request.terminalId)
      (decide (request.terminalId ∈ host.sessions))).1 := by
  unfold conclude
  split
  · split <;> exact .refl h request
  · rename_i value hvalue
    have hsome : host.receipts.lookup request.terminalId ≠ none := by
      rw [hvalue]
      nofun
    split
    · split
      · rename_i habsent
        have hgone : request.terminalId ∉ host.sessions := by simpa using habsent
        exact .of_recorded (h.write fun _ => hgone) (Host.lookup_write_eq_none hsome)
          fun _ hid => hid
      · split
        · have hended : (host.endSession request.terminalId).receipts.lookup
              request.terminalId ≠ none := hsome
          refine .of_recorded ((h.endSession _).write fun _ hmem => ?_)
            (Host.lookup_write_eq_none hended) fun id hid => (Host.mem_endSession.mp hid).1
          exact (Host.mem_endSession.mp hmem).2 rfl
        · dsimp only
          split
          · exact .of_recorded (h.endSession _) (fun _ => Iff.rfl)
              fun id hid => (Host.mem_endSession.mp hid).1
          · exact .refl h request
    · split <;> exact .refl h request

/-- A request that answers that there is no session has left none. -/
theorem conclude_closed (h : host.Sound)
    (hclosed : Answer.closed (conclude host request tmux (host.receipts.lookup request.terminalId) (decide (request.terminalId ∈ host.sessions))).2)
    :
    request.terminalId ∉ (conclude host request tmux
      (host.receipts.lookup request.terminalId)
      (decide (request.terminalId ∈ host.sessions))).1.sessions := by
  unfold conclude at hclosed ⊢
  split at hclosed
  · rename_i hvalue
    split <;> exact (h.recorded hvalue).1
  · rename_i value hvalue
    by_cases hstop : request.action = .stop
    · rw [if_pos hstop] at hclosed ⊢
      by_cases hpresent : request.terminalId ∈ host.sessions
      · simp only [hpresent, decide_true, Bool.not_true, Bool.false_eq_true, if_false]
          at hclosed ⊢
        split at hclosed
        · exact fun hmem => (Host.mem_endSession.mp hmem).2 rfl
        · exact hclosed.elim
      · rw [if_pos (by simpa using hpresent)]
        exact hpresent
    · rw [if_neg hstop] at hclosed ⊢
      by_cases hstopped : value.state = .stopped
      · rw [if_pos hstopped]
        exact h.gone hvalue hstopped
      · rw [if_neg hstopped] at hclosed ⊢
        by_cases hpresent : request.terminalId ∈ host.sessions
        · simp [hpresent, Answer.closed] at hclosed
        · exact hpresent

theorem Performed.trans {first second third : Host} (h : Performed request first second)
    (h' : Performed request second third)
    (hsession : ∀ id, id ∈ third.sessions → id ∈ second.sessions) :
    Performed request first third where
  sound := h'.sound
  kept id hid := h'.kept id (h.kept id hid)
  receipt id hid := (h'.receipt id hid).elim (h.receipt id) .inr
  session id hid := h.session id (hsession id hid)

theorem conclude_sessions (host : Host) (request : Request) (tmux : Tmux)
    (value : Option Receipt) (present : Bool) (id : String)
    (hid : id ∈ (conclude host request tmux value present).1.sessions) :
    id ∈ host.sessions := by
  unfold conclude at hid
  split at hid
  · split at hid <;> exact hid
  · split at hid
    · split at hid
      · exact hid
      · split at hid
        · exact (Host.mem_endSession.mp hid).1
        · dsimp only at hid
          split at hid
          · exact (Host.mem_endSession.mp hid).1
          · exact hid
    · split at hid <;> exact hid

/-- What one request can do to a machine. -/
theorem dispatch_performed (h : host.Sound) (request : Request) (tmux : Tmux) :
    Performed request host (dispatch host request tmux).1 := by
  unfold dispatch
  split
  · exact .refl h request
  · split
    · exact .refl h request
    · have hintend := intend_performed h request tmux
      dsimp only
      split
      · rename_i host' text heq
        rw [heq] at hintend
        exact hintend
      · rename_i host' value present heq
        rw [heq] at hintend
        obtain ⟨rfl, rfl⟩ := intend_ok heq
        exact hintend.trans (conclude_performed hintend.sound request tmux)
          (conclude_sessions host' request tmux _ _)

/-- A request that answers that there is no session has left none. -/
theorem dispatch_closed (h : host.Sound) (hclosed : Answer.closed (dispatch host request tmux).2) :
    request.terminalId ∉ (dispatch host request tmux).1.sessions := by
  have hintend := intend_performed h request tmux
  unfold dispatch at hclosed ⊢
  split at hclosed
  · exact hclosed.elim
  · split at hclosed
    · exact hclosed.elim
    · rename_i hinstalled hlooks
      rw [if_neg hinstalled, if_neg hlooks]
      dsimp only at hclosed ⊢
      split at hclosed
      · exact hclosed.elim
      · rename_i host' value present heq
        rw [heq] at hintend
        obtain ⟨rfl, rfl⟩ := intend_ok heq
        exact conclude_closed hintend.sound hclosed

/-- Only a helper that finds tmux and sees its sessions answers that there is none. -/
theorem looks_of_closed (hclosed : Answer.closed (dispatch host request tmux).2) :
    tmux.installed = true ∧ tmux.looks = true := by
  unfold dispatch at hclosed
  split at hclosed
  · exact hclosed.elim
  · split at hclosed
    · exact hclosed.elim
    · rename_i hinstalled hlooks
      exact ⟨by simpa using hinstalled, by simpa using hlooks⟩

/-- A machine that stops a terminal does not answer that it is there. -/
theorem dispatch_stop (tmux : Tmux) (hstop : request.action = .stop) :
    (dispatch host request tmux).2 ≠ .ok .detached := by
  have hne : request.action ≠ .create := by
    rw [hstop]
    nofun
  unfold dispatch
  split
  · nofun
  · split
    · nofun
    · dsimp only
      rw [intend_of_ne_create hne]
      dsimp only
      unfold conclude
      split
      · split <;> nofun
      · rw [if_pos hstop]
        split
        · nofun
        · split <;> nofun

end Ficc.Terminals
