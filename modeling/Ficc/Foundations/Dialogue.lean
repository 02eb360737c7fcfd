import Ficc.Foundations.Durable

/-!
# Dialogues under authority

A host answers the calls of a peer that it does not trust. While it waits for the peer or for an
answer, its authority may change, so it checks the authority again after every wait. A `Protocol`
says which messages the host takes, a `Peer` is everything else: it sees what has happened and chooses
the messages, the answers, and whether the authority still stands. What it raises stands for every
exception, a cancellation as well.

## Main results

* `wp_exchange`: whatever the peer does, a dialogue keeps `Contained`, ends after one round more than
  there may be calls, and returns only after a last check.
-/

namespace Ficc.Dialogue

open Durable

/-- What happens in a dialogue. -/
inductive Event (Call : Type)
  /-- The host has waited. -/
  | waited
  /-- The authority has been checked, with success. -/
  | checked
  /-- A call has been handed on. -/
  | called (call : Call)
deriving DecidableEq

/-- A dialogue so far. The last event comes first. -/
structure Talk (Id Call : Type) where
  seen : List Id
  trace : List (Event Call)

/-- The messages that the host takes, and what it makes of them. -/
structure Protocol (Id Message Call Answer Result Output Reply ε : Type) where
  hello : Message → Except ε Unit
  /-- The message claims to be the last one. -/
  final : Message → Bool
  result : Message → Except ε Result
  output : Message → Result → Except ε Output
  /-- The call of a message, with the calls that have been seen. -/
  call : List Id → Message → Except ε Call
  identity : Call → Id
  /-- There is somebody to hand calls on to. -/
  authority : Except ε Unit
  /-- What is done with an answer before and after the authority is checked. -/
  copy : Answer → Except ε Answer
  reply : Call → Answer → Except ε Reply

/-- Everything that the host waits for, and the authority. -/
structure Peer (Message Call Answer Reply ε : Type) where
  receive : List (Event Call) → Except ε Message
  check : List (Event Call) → Except ε Unit
  dispatch : Call → List (Event Call) → Except ε Answer
  send : Reply → List (Event Call) → Except ε Unit
  complete : List (Event Call) → Except ε Unit

section Exchange

variable {Id Message Call Answer Result Output Reply ε : Type}

def Talk.push (talk : Talk Id Call) (event : Event Call) : Talk Id Call :=
  { talk with trace := event :: talk.trace }

@[simp]
theorem Talk.push_seen (talk : Talk Id Call) (event : Event Call) :
    (talk.push event).seen = talk.seen := rfl

@[simp]
theorem Talk.push_trace (talk : Talk Id Call) (event : Event Call) :
    (talk.push event).trace = event :: talk.trace := rfl

/-- Waits for something that depends on what has happened. -/
def wait {α : Type} (answer : List (Event Call) → Except ε α) : Durable (Talk Id Call) ε α := do
  perform fun talk => talk.push .waited
  let talk ← disk
  check (answer talk.trace)

variable (protocol : Protocol Id Message Call Answer Result Output Reply ε)
variable (peer : Peer Message Call Answer Reply ε)

/-- Checks the authority. -/
def checkAuthority : Durable (Talk Id Call) ε Unit := do
  let talk ← disk
  check (peer.check talk.trace)
  perform fun talk => talk.push .checked

/-- A round of the dialogue, which may be the last one. -/
def round (hello : Message) : Durable (Talk Id Call) ε (Option Output) := do
  let message ← wait peer.receive
  checkAuthority peer
  if protocol.final message then do
    let result ← check (protocol.result message)
    wait peer.complete
    checkAuthority peer
    let output ← check (protocol.output hello result)
    return some output
  else do
    let talk ← disk
    let call ← check (protocol.call talk.seen message)
    perform fun talk => { talk with seen := protocol.identity call :: talk.seen }
    check protocol.authority
    checkAuthority peer
    perform fun talk => talk.push (.called call)
    let answer ← wait (peer.dispatch call)
    let copied ← check (protocol.copy answer)
    checkAuthority peer
    let reply ← check (protocol.reply call copied)
    wait (peer.send reply)
    return none

/-- The rounds of a dialogue, at most as many as given. -/
def rounds (hello : Message) : ℕ → Durable (Talk Id Call) ε (Option Output)
  | 0 => pure none
  | count + 1 => do
    match ← round protocol peer hello with
    | some output => return some output
    | none => rounds hello count

/-- A dialogue of at most so many rounds. It returns nothing when these are not enough. -/
def exchange (count : ℕ) : Durable (Talk Id Call) ε (Option Output) := do
  let hello ← wait peer.receive
  check (protocol.hello hello)
  rounds protocol peer hello count

end Exchange

/-! ### Containment -/

section Containment

variable {Id Message Call Answer Result Output Reply ε : Type}

/-- The calls that have been handed on. -/
def calls (trace : List (Event Call)) : List Call :=
  trace.filterMap fun event =>
    match event with
    | .called call => some call
    | _ => none

/-- The calls are few and different, they stay within their scope, and each of them follows on a check,
with nothing between the two. -/
structure Contained (maximum : ℕ) (identity : Call → Id) (scope : Call → Prop)
    (trace : List (Event Call)) : Prop where
  few : (calls trace).length ≤ maximum
  different : ((calls trace).map identity).Nodup
  within : ∀ call ∈ calls trace, scope call
  guarded : ∀ later call earlier, trace = later ++ .called call :: earlier →
    earlier.head? = some .checked

/-- Every call follows on a check. -/
def Guarded : List (Event Call) → Prop
  | [] => True
  | .called _ :: earlier => earlier.head? = some .checked ∧ Guarded earlier
  | _ :: earlier => Guarded earlier

theorem Guarded.head {later : List (Event Call)} {call : Call} {earlier : List (Event Call)}
    (h : Guarded (later ++ .called call :: earlier)) : earlier.head? = some .checked := by
  induction later with
  | nil => exact h.1
  | cons event later ih =>
    cases event with
    | waited => exact ih h
    | checked => exact ih h
    | called other => exact ih h.2

variable {protocol : Protocol Id Message Call Answer Result Output Reply ε}
variable {peer : Peer Message Call Answer Reply ε} {maximum : ℕ} {scope : Call → Prop}

/-- The protocol takes few calls, none twice and none out of scope. -/
def Protocol.Admits (protocol : Protocol Id Message Call Answer Result Output Reply ε) (maximum : ℕ)
    (scope : Call → Prop) : Prop :=
  ∀ seen message call, protocol.call seen message = .ok call →
    protocol.identity call ∉ seen ∧ seen.length < maximum ∧ scope call

/-- What a dialogue keeps. A call has been seen before it is handed on. -/
structure Inv (maximum : ℕ) (identity : Call → Id) (scope : Call → Prop) (talk : Talk Id Call) :
    Prop where
  few : talk.seen.length ≤ maximum
  different : talk.seen.Nodup
  seen : ((calls talk.trace).map identity).Sublist talk.seen
  within : ∀ call ∈ calls talk.trace, scope call
  guarded : Guarded talk.trace

variable {identity : Call → Id} {talk : Talk Id Call}

theorem Inv.contained (h : Inv maximum identity scope talk) :
    Contained maximum identity scope talk.trace := by
  refine ⟨?_, h.seen.nodup h.different, h.within, ?_⟩
  · have hlength := h.seen.length_le
    rw [List.length_map] at hlength
    exact Nat.le_trans hlength h.few
  · intro later call earlier htrace
    have hguarded := h.guarded
    rw [htrace] at hguarded
    exact hguarded.head

theorem Inv.waited (h : Inv maximum identity scope talk) :
    Inv maximum identity scope (talk.push .waited) :=
  ⟨h.few, h.different, h.seen, h.within, h.guarded⟩

theorem Inv.checked (h : Inv maximum identity scope talk) :
    Inv maximum identity scope (talk.push .checked) :=
  ⟨h.few, h.different, h.seen, h.within, h.guarded⟩

theorem Inv.admitted (h : Inv maximum identity scope talk) {call : Call}
    (hnew : identity call ∉ talk.seen) (hfew : talk.seen.length < maximum) :
    Inv maximum identity scope { talk with seen := identity call :: talk.seen } :=
  ⟨hfew, List.nodup_cons.mpr ⟨hnew, h.different⟩, h.seen.cons _, h.within, h.guarded⟩

/-- A call is handed on right after a check, when it is the last one that has been seen. -/
theorem Inv.called {earlier : Talk Id Call} (h : Inv maximum identity scope earlier) {call : Call}
    (hnew : identity call ∉ earlier.seen) (hfew : earlier.seen.length < maximum)
    (hscope : scope call) :
    Inv maximum identity scope
      ((({ earlier with seen := identity call :: earlier.seen } : Talk Id Call).push
        .checked).push (.called call)) := by
  refine ⟨hfew, List.nodup_cons.mpr ⟨hnew, h.different⟩, h.seen.cons_cons _, ?_, rfl, h.guarded⟩
  exact List.forall_mem_cons.mpr ⟨hscope, h.within⟩

theorem wp_wait {α : Type} {answer : List (Event Call) → Except ε α}
    {ok : α → Talk Id Call → Prop} {raised : ε → Talk Id Call → Prop}
    {during : Talk Id Call → Prop} (hduring : during (talk.push .waited))
    (hok : ∀ a, ok a (talk.push .waited)) (hraised : ∀ e, raised e (talk.push .waited)) :
    wp (wait answer) ok raised during talk := by
  rw [wait, wp_bind, wp_perform, wp_bind, wp_disk, wp_check]
  exact ⟨hduring, fun a _ => hok a, fun e _ => hraised e⟩

theorem wp_checkAuthority {ok : Unit → Talk Id Call → Prop} {raised : ε → Talk Id Call → Prop}
    {during : Talk Id Call → Prop} (hraised : ∀ e, raised e talk)
    (hduring : during (talk.push .checked)) (hok : ok () (talk.push .checked)) :
    wp (checkAuthority peer) ok raised during talk := by
  rw [checkAuthority, wp_bind, wp_disk, wp_bind, wp_check]
  refine ⟨fun _ _ => ?_, fun e _ => hraised e⟩
  rw [wp_perform]
  exact ⟨hduring, hok⟩

/-- The authority has been checked after the last wait, and nothing has happened since. -/
def Settled (talk : Talk Id Call) : Prop := ∃ earlier, talk.trace = .checked :: .waited :: earlier

/-- A round that does not end the dialogue has taken one more call. -/
theorem wp_round (hadmits : protocol.Admits maximum scope) {hello : Message}
    (h : Inv maximum protocol.identity scope talk) :
    wp (round protocol peer hello)
      (fun output later => Inv maximum protocol.identity scope later ∧
        (output = none → later.seen.length = talk.seen.length + 1) ∧
        (output ≠ none → Settled later))
      (fun _ => Inv maximum protocol.identity scope) (Inv maximum protocol.identity scope) talk := by
  rw [round, wp_bind]
  refine wp_wait h.waited (fun message => ?_) fun _ => h.waited
  rw [wp_bind]
  refine wp_checkAuthority (fun _ => h.waited) h.waited.checked ?_
  have hstart := h.waited.checked
  rw [wp_ite]
  refine ⟨fun _ => ?_, fun _ => ?_⟩
  · -- The last message.
    rw [wp_bind, wp_check]
    refine ⟨fun result _ => ?_, fun _ _ => hstart⟩
    rw [wp_bind]
    refine wp_wait hstart.waited (fun _ => ?_) fun _ => hstart.waited
    rw [wp_bind]
    refine wp_checkAuthority (fun _ => hstart.waited) hstart.waited.checked ?_
    rw [wp_bind, wp_check]
    refine ⟨fun output _ => ?_, fun _ _ => hstart.waited.checked⟩
    rw [wp_pure]
    exact ⟨hstart.waited.checked, fun hnone => absurd hnone (Option.some_ne_none _), fun _ => ⟨_, rfl⟩⟩
  · -- A call.
    rw [wp_bind, wp_disk, wp_bind, wp_check]
    refine ⟨fun call hcall => ?_, fun _ _ => hstart⟩
    obtain ⟨hnew, hfew, hscope⟩ := hadmits _ _ _ hcall
    have hadmitted := hstart.admitted hnew hfew
    have hcalled := hstart.called hnew hfew hscope
    rw [wp_bind, wp_perform]
    refine ⟨hadmitted, ?_⟩
    rw [wp_bind, wp_check]
    refine ⟨fun _ _ => ?_, fun _ _ => hadmitted⟩
    rw [wp_bind]
    refine wp_checkAuthority (fun _ => hadmitted) hadmitted.checked ?_
    rw [wp_bind, wp_perform]
    refine ⟨hcalled, ?_⟩
    rw [wp_bind]
    refine wp_wait hcalled.waited (fun answer => ?_) fun _ => hcalled.waited
    rw [wp_bind, wp_check]
    refine ⟨fun copied _ => ?_, fun _ _ => hcalled.waited⟩
    rw [wp_bind]
    refine wp_checkAuthority (fun _ => hcalled.waited) hcalled.waited.checked ?_
    rw [wp_bind, wp_check]
    refine ⟨fun reply _ => ?_, fun _ _ => hcalled.waited.checked⟩
    rw [wp_bind]
    refine wp_wait hcalled.waited.checked.waited (fun _ => ?_) fun _ => hcalled.waited.checked.waited
    rw [wp_pure]
    exact ⟨hcalled.waited.checked.waited, fun _ => rfl, fun hsome => absurd rfl hsome⟩

/-- Rounds that do not end the dialogue have taken a call each. -/
theorem wp_rounds (hadmits : protocol.Admits maximum scope) {hello : Message} (count : ℕ)
    (h : Inv maximum protocol.identity scope talk) :
    wp (rounds protocol peer hello count)
      (fun output later => Inv maximum protocol.identity scope later ∧
        (output = none → talk.seen.length + count ≤ later.seen.length) ∧
        (output ≠ none → Settled later))
      (fun _ => Inv maximum protocol.identity scope) (Inv maximum protocol.identity scope) talk := by
  induction count generalizing talk with
  | zero =>
    rw [rounds, wp_pure]
    exact ⟨h, fun _ => Nat.le_refl _, fun hsome => absurd rfl hsome⟩
  | succ count ih =>
    rw [rounds]
    refine wp_seq (wp_round hadmits h) ?_
    rintro (_ | output) later ⟨hlater, hcount, hsettled⟩
    · refine wp_mono (ih hlater) ?_ (fun _ _ hinv => hinv) fun _ hinv => hinv
      rintro output last ⟨hlast, htaken, hend⟩
      refine ⟨hlast, fun hnone => ?_, hend⟩
      have htaken := htaken hnone
      have hcount := hcount rfl
      omega
    · rw [wp_pure]
      exact ⟨hlater, fun hnone => absurd hnone (Option.some_ne_none _), hsettled⟩

/-- A dialogue stays contained, ends when it has one round more than there may be calls, and returns
only after a last check. -/
theorem wp_exchange (hadmits : protocol.Admits maximum scope) {count : ℕ} (hcount : maximum < count) :
    wp (exchange protocol peer count)
      (fun output talk => Contained maximum protocol.identity scope talk.trace ∧ output ≠ none ∧
        Settled talk)
      (fun _ talk => Contained maximum protocol.identity scope talk.trace)
      (fun talk => Contained maximum protocol.identity scope talk.trace) ⟨[], []⟩ := by
  have hstart : Inv maximum protocol.identity scope ⟨[], []⟩ :=
    ⟨Nat.zero_le _, List.nodup_nil, List.nil_sublist _, fun _ hmem => (nomatch hmem), trivial⟩
  rw [exchange, wp_bind]
  refine wp_wait hstart.waited.contained (fun hello => ?_) fun _ => hstart.waited.contained
  rw [wp_bind, wp_check]
  refine ⟨fun _ _ => ?_, fun _ _ => hstart.waited.contained⟩
  refine wp_mono (wp_rounds hadmits count hstart.waited) ?_ (fun _ _ hinv => hinv.contained)
    fun _ hinv => hinv.contained
  rintro output talk ⟨hinv, htaken, hsettled⟩
  have hsome : output ≠ none := by
    intro hnone
    have hlength := htaken hnone
    have hfew := hinv.few
    simp only [Talk.push_seen, List.length_nil] at hlength
    omega
  exact ⟨hinv.contained, hsome, hsettled hsome⟩

theorem contained_nil : Contained maximum identity scope [] where
  few := Nat.zero_le _
  different := List.nodup_nil
  within _ hmem := nomatch hmem
  guarded later call earlier htrace := by cases later <;> cases htrace

/-- A dialogue is contained wherever it stops. When it returns, it has ended with a last check. -/
theorem contained_of_admits (hadmits : protocol.Admits maximum scope)
    (peer : Peer Message Call Answer Reply ε) (stop : Option ℕ) :
    Contained maximum protocol.identity scope
        (cut (exchange protocol peer (maximum + 1)) ⟨[], []⟩ stop).trace ∧
      ∀ output, (exchange protocol peer (maximum + 1) ⟨[], []⟩).result = .ok output →
        output ≠ none ∧ Settled (cut (exchange protocol peer (maximum + 1)) ⟨[], []⟩ none) := by
  have hwp : wp (exchange protocol peer (maximum + 1)) _ _ _ ⟨[], []⟩ :=
    wp_exchange hadmits (Nat.lt_succ_self maximum)
  refine ⟨cut_of_wp hwp contained_nil stop, fun output houtput => ?_⟩
  have hend := hwp.2
  rw [houtput] at hend
  exact ⟨hend.2.1, hend.2.2⟩

end Containment

end Ficc.Dialogue
