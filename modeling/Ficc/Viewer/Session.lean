import Ficc.Foundations.Transition
import Ficc.Viewer.Chunks

/-!
# Display sessions

A session forwards the output of the native viewer to a browser, and the input of the browser to the
native viewer. Two tasks do so: one accepts the instructions of a chunk one after the other, and the
other can answer a frame between any two of them. What either of them raises ends the session.

An image is accepted when its layer exists, and completed later. `Careful` says of an action that it
does not complete an image whose layer has been disposed of in between.

## Main results

* `Session.kept_iff`: in every run the session raises only `ValueError`s, keeps its bounds, and
  gives every frame a stamp of its own that is acknowledged at most once, if and only if all actions
  of the run are `Careful`.
* `Session.not_always_kept`: a run that raises a `KeyError`.
-/

namespace Ficc.Viewer

open Utf8 JsonText Durable

/-- Input of a browser is checked and answered. -/
def forward (data : List UInt8) : Durable Screen Fault (List UInt8) := do
  let data ← check (permittedInput data)
  acknowledge data

/-- A session. A chunk is `busy` while its instructions are accepted. `issued` are the stamps that
the browser has received, each with the stamp of the native viewer for the frame, and `acknowledged`
the stamps that the browser has sent, each with the stamp that the native viewer received. -/
structure Session where
  output : Output
  busy : Bool
  fault : Option Fault
  issued : List (ℕ × ℕ)
  acknowledged : List (ℕ × ℕ)

/-- A session begins. -/
def Session.start (now : ℚ) : Session where
  output := .new now
  busy := false
  fault := none
  issued := []
  acknowledged := []

/-- What the tasks of a session do. -/
inductive Act
  /-- A chunk of the native viewer arrives. -/
  | receive (now : ℚ) (data : List UInt8)
  /-- The next instruction of the chunk is accepted. -/
  | advance
  /-- An instruction of the browser arrives. -/
  | browse (data : List UInt8)

/-- The elements of the next instruction, if it is complete. -/
def upcoming (output : Output) : Option (List Text) :=
  match scan 17 output.buffer 0 0 with
  | .complete position => (parse (output.buffer.take position) 65536).toOption
  | _ => none

/-- The stamps of frames among instructions for the browser. -/
def framesOf (values : List Text) (packets : List (List UInt8)) : List (ℕ × ℕ) :=
  packets.filterMap fun packet =>
    (stampOf packet).map fun stamp => (stamp, natural (values.getD 1 []))

/-- The stamp of an acknowledgement. -/
def answersOf (data reply : List UInt8) : List (ℕ × ℕ) :=
  ((stampOf data).map fun stamp => (stamp, (stampOf reply).getD 0)).toList

namespace Session

/-- An action of a session. A chunk waits until the one before it has been forwarded, and after an
error nothing happens. -/
def step (s : Session) (act : Act) : Session :=
  if s.fault ≠ none then s
  else match act with
    | .receive now data =>
      if s.busy then s
      else
        let course := Viewer.receive now data s.output
        let output := last s.output course.states
        match course.result with
        | .error fault => { s with output, fault := some fault }
        | .ok _ => { s with output, busy := true }
    | .advance =>
      if s.busy then
        let course := next s.output
        let output := last s.output course.states
        match course.result with
        | .error fault => { s with output, fault := some fault }
        | .ok none => { s with output, busy := false }
        | .ok (some packets) =>
          let values := (upcoming s.output).getD []
          { s with output, issued := s.issued ++ framesOf values packets }
      else s
    | .browse data =>
      let course := forward data s.output.screen
      let output := { s.output with screen := last s.output.screen course.states }
      match course.result with
      | .error fault => { s with output, fault := some fault }
      | .ok reply => { s with output, acknowledged := s.acknowledged ++ answersOf data reply }

/-- The accounts that an action leads through. -/
def through (s : Session) : Act → List Screen
  | .receive now data => (Viewer.receive now data s.output).states.map Output.screen
  | .advance => (next s.output).states.map Output.screen
  | .browse data => (forward data s.output.screen).states

/-- What is promised about a session at any time. -/
structure Kept (s : Session) : Prop where
  /-- Only `ValueError`s are raised. -/
  refused : ∀ fault, s.fault = some fault → fault.IsValueError
  bounded : s.output.screen.Bounded
  through : ∀ act, ∀ screen ∈ s.through act, s.fault = none → screen.Bounded
  pixels : s.fault = none → s.output.screen.pixels ≤ 20 * 1024 * 1024
  /-- Each stamp is larger than all earlier ones. -/
  increasing : (s.issued.map Prod.fst).Pairwise (· < ·)
  /-- An acknowledgement has the stamp of the native viewer for the frame. -/
  issued : ∀ entry ∈ s.acknowledged, entry ∈ s.issued
  once : (s.acknowledged.map Prod.fst).Nodup

/-- The next instruction completes an image whose layer has been disposed of, and the number of
instructions stays within its limit. -/
def Fatal (output : Output) : Prop :=
  ∃ values, upcoming output = some values ∧ Orphaned output.screen values ∧
    output.usage.count < 8192 ∧ output.usage.frameCount < 32768

/-- An action does not complete an image whose layer has been disposed of. -/
def Careful (s : Session) (act : Act) : Prop :=
  ¬(act = .advance ∧ s.fault = none ∧ s.busy = true ∧ Fatal s.output)

/-! ### Acknowledgements -/

/-- What the native viewer receives for the input of a browser. -/
inductive Answers (screen screen' : Screen) (data reply : List UInt8) : Prop
  | frame {stamp native : ℕ} (sent : stampOf data = some stamp)
    (lookup : screen.syncs.lookup stamp = some native) (received : stampOf reply = some native)
    (same : screen' = { screen with syncs := screen.syncs.erase stamp })
  | other (sent : stampOf data = none) (same : screen' = screen)

variable {text : Text} {e : Fault} {found : ℕ} {output : Output} {s : Session}

/-- Input in ASCII is read as UTF-8. -/
theorem decode_ascii {data : List UInt8} (h : ascii data = .ok text) :
    decode data = some text := by
  simp only [ascii, bind_eq_ok, raiseIf_eq_ok, exists_const, Except.ok.injEq, not_exists, not_and,
    not_le] at h
  obtain ⟨hascii, rfl⟩ := h
  have hall : decodeFrom none data =
      some (none, data.map fun byte => Fin.ofNat _ byte.toNat) := by
    induction data with
    | nil => rfl
    | cons byte rest ih =>
      have hbyte : push none byte = some (none, [Fin.ofNat _ byte.toNat]) :=
        if_pos (hascii byte List.mem_cons_self)
      rw [decodeFrom, hbyte, Option.bind_some,
        ih fun other hother => hascii other (List.mem_cons_of_mem byte hother)]
      rfl
  rw [decode, hall]

theorem readPacket_of_permitted {data : List UInt8} {values : List Text}
    (htext : ascii data = .ok text) (hvalues : parse text 4096 = .ok values) :
    readPacket data = some values := by
  obtain ⟨hinstruction, -, hcount⟩ := parse_eq_ok.mp hvalues
  have hparse : parse text text.length = .ok values :=
    parse_eq_ok.mpr ⟨hinstruction, le_refl _, hcount⟩
  rw [readPacket, decode_ascii htext, Option.bind_some, hparse]
  rfl

theorem ascii_isValueError {data : List UInt8} (h : ascii data = .error e) :
    e.IsValueError := by
  simp only [ascii, bind_eq_error, raiseIf_eq_error, reduceCtorEq, and_false, exists_false,
    or_false] at h
  rw [← h.2]
  trivial

theorem lengthPrefix_isValueError (h : lengthPrefix text = .error e) :
    e.IsValueError := by
  simp only [lengthPrefix, bind_eq_error, orRaise_eq_error, raiseIf_eq_error, reduceCtorEq,
    and_false, exists_false, or_false] at h
  obtain ⟨-, rfl⟩ | ⟨-, -, -, rfl⟩ := h <;> trivial

theorem element_isValueError (h : element text found = .error e) : e.IsValueError := by
  rw [element, bind_eq_error] at h
  obtain h | ⟨⟨size, body⟩, -, h⟩ := h
  · exact lengthPrefix_isValueError h
  · simp only at h
    split at h
    · simp only [bind_eq_error, raiseIf_eq_error, reduceCtorEq, and_false, exists_false,
        or_false] at h
      rw [← h.2]
      trivial
    · obtain rfl := Except.error.inj h
      trivial

theorem elements_isValueError {rounds : ℕ} (h : elements rounds text found = .error e) :
    e.IsValueError := by
  induction rounds generalizing text found with
  | zero =>
    obtain rfl := Except.error.inj h
    trivial
  | succ rounds ih =>
    simp only [elements, bind_eq_error, raiseIf_eq_error] at h
    obtain ⟨-, rfl⟩ | ⟨-, -, h | ⟨⟨value, separator, rest⟩, -, h⟩⟩ := h
    · trivial
    · exact element_isValueError h
    · simp only at h
      split_ifs at h
      simp only [bind_eq_error, raiseIf_eq_error, reduceCtorEq, and_false, exists_false,
        or_false] at h
      obtain ⟨-, rfl⟩ | ⟨-, -, h⟩ := h
      · trivial
      · exact ih h

theorem parse_isValueError {data : Text} {maximum : ℕ} (h : parse data maximum = .error e) :
    e.IsValueError := by
  rw [parse, bind_eq_error, raiseIf_eq_error] at h
  obtain ⟨-, rfl⟩ | ⟨-, -, h⟩ := h
  · trivial
  · exact elements_isValueError h

theorem checkInput_isValueError {opcode : Text} {args : List Text}
    (h : checkInput opcode args = .error e) : e.IsValueError := by
  have hnumber {value : Text} {maximum : ℕ} {next : ℕ → Except Fault Unit}
      (hnext : ∀ n, next n = .error e → e.IsValueError)
      (hboth : (number value maximum >>= next) = .error e) : e.IsValueError := by
    obtain hfirst | ⟨n, -, hlater⟩ := bind_eq_error.mp hboth
    · exact number_isValueError hfirst
    · exact hnext n hlater
  have hraise {condition : Prop} [Decidable condition] {text : String}
      (hraised : raiseIf condition (.value text) = .error e) : e.IsValueError := by
    rw [← (raiseIf_eq_error.mp hraised).2]
    trivial
  have hdone (hok : (.ok () : Except Fault Unit) = .error e) : e.IsValueError := nomatch hok
  rw [checkInput] at h
  split_ifs at h
  · exact hnumber (fun _ => hnumber fun _ => hdone) h
  · exact hnumber (fun _ => hnumber fun _ => hnumber fun _ => hnumber fun _ => hdone) h
  · exact hnumber (fun _ => hnumber fun _ => hnumber fun _ => hdone) h
  · refine hnumber (fun width hlater => ?_) h
    obtain hwide | ⟨-, -, hlater⟩ := bind_eq_error.mp hlater
    · exact hraise hwide
    · exact hnumber (fun _ => hraise) hlater
  · obtain ⟨arg, -, harg⟩ := exists_of_forM_eq_error h
    exact hnumber (fun _ => hdone) harg
  · exact hnumber (fun _ => hnumber fun _ => hraise) h
  · exact hraise h

theorem permittedInput_isValueError {data : List UInt8} (h : permittedInput data = .error e) :
    e.IsValueError := by
  simp only [permittedInput, bind_eq_error, reduceCtorEq, and_false, exists_false, or_false] at h
  obtain h | ⟨text, -, h | ⟨values, -, h⟩⟩ := h
  · exact ascii_isValueError h
  · exact parse_isValueError h
  · exact checkInput_isValueError h

/-- The stamp of a frame that a browser may acknowledge, with what stands after it. -/
theorem sync_args {args : List Text} (h : Permitted (points "sync") args) :
    ∃ stamp rest, args = stamp :: rest ∧ Numeric stamp (2 ^ 53 - 1) ∧ Short rest ∧
      rest.length ≤ 1 := by
  obtain ⟨hcount, hnumeric⟩ : (args.length = 1 ∨ args.length = 2) ∧
      ∀ value ∈ args, Numeric value (2 ^ 53 - 1) := by
    generalize hop : points "sync" = op at h
    cases h with
    | sync count stamps_le => exact ⟨count, stamps_le⟩
    | _ => exact absurd (points_inj.mp hop) (by decide)
  match args, hcount, hnumeric with
  | stamp :: rest, hcount, hnumeric =>
    refine ⟨stamp, rest, rfl, hnumeric stamp List.mem_cons_self, fun value hvalue =>
      (hnumeric value (List.mem_cons_of_mem stamp hvalue)).2.1, ?_⟩
    rw [List.length_cons] at hcount
    omega

/-- Input is refused with a `ValueError`, or answered. -/
theorem wp_forward {screen : Screen} (h : screen.Sound)
    (hnatives : ∀ stamp native, screen.syncs.lookup stamp = some native → native ≤ 2 ^ 53 - 1)
    (data : List UInt8) :
    wp (forward data)
      (fun reply screen' => screen'.Sound ∧ Answers screen screen' data reply)
      (fun e screen' => screen'.Bounded ∧ e.IsValueError) Screen.Bounded screen := by
  have hb := h.toBounded
  rw [forward, wp_bind, wp_check]
  refine ⟨fun result hpermitted => ?_, fun e he => ⟨hb, permittedInput_isValueError he⟩⟩
  obtain ⟨rfl, hlength, text, opcode, args, htext, hinstruction, hargs⟩ :=
    permittedInput_eq_ok.mp hpermitted
  have hcount : (opcode :: args).length ≤ 5 := by
    rw [List.length_cons]
    cases hargs with
    | mouse x_le y_le buttons_le one stamp_le =>
      simp only [List.length_append, List.length_cons, List.length_nil]
      omega
    | sync count stamps_le => omega
    | _ => simp
  have hvalues : parse text 4096 = .ok (opcode :: args) :=
    parse_eq_ok.mpr ⟨hinstruction, (ascii_eq_ok htext).trans_le hlength, by omega⟩
  have hread := readPacket_of_permitted htext hvalues
  simp only [acknowledge, wp_bind, wp_check, htext, hvalues, Except.ok.injEq, reduceCtorEq,
    false_imp_iff, implies_true, and_true, forall_eq', wp_ite, List.getD_cons_zero]
  refine ⟨fun hsync => ?_, fun hother => wp_pure.mpr ⟨h, .other ?_ rfl⟩⟩
  · -- The stamp of a frame, which is exchanged for the stamp of the native viewer.
    subst hsync
    obtain ⟨stamp, rest, rfl, hstamp, hshort, hrest⟩ : ∃ stamp rest, args = stamp :: rest ∧
        Numeric stamp (2 ^ 53 - 1) ∧ Short rest ∧ rest.length ≤ 1 :=
      sync_args hargs
    have hsent : stampOf result = some (natural stamp) := by
      rw [stampOf, hread, Option.bind_some, List.getD_cons_zero, if_pos rfl, List.getD_cons_succ,
        List.getD_cons_zero]
    have hnumber : number stamp (2 ^ 53 - 1) = .ok (natural stamp) :=
      number_eq_ok.mpr ⟨hstamp, rfl⟩
    have herased : Screen.Sound { screen with syncs := screen.syncs.erase (natural stamp) } :=
      ⟨⟨h.layers, h.streams, (Table.length_erase_le screen.syncs _).trans h.syncs, h.args⟩,
        h.pixels⟩
    simp only [wp_bind, wp_demand, wp_disk, wp_refuseIf, wp_perform, wp_check, hnumber,
      List.getElem?_cons_succ, List.getElem?_cons_zero, reduceCtorEq, false_imp_iff, true_and,
      Option.some.injEq, forall_eq', Except.ok.injEq, implies_true, and_true]
    refine ⟨fun _ => ⟨hb, trivial⟩, fun hfound => ⟨fun hnone => absurd hnone hfound,
      fun native hnative => ⟨herased.toBounded, fun reply hreply => ⟨herased, ?_⟩,
        fun e he => ⟨herased.toBounded, instruction_isValueError he⟩⟩⟩⟩
    have hbrief : Brief (points "sync" :: decimal native :: rest) := by
      have hle := hnatives _ _ hnative
      have hdigits : (decimal native).length ≤ 16 := length_decimal_le (by decide) (by omega)
      refine Short.brief (fun arg harg => ?_) (by decide) ?_
      · obtain rfl | harg := List.mem_cons.mp harg
        · exact hdigits
        · exact hshort arg harg
      · rw [List.length_cons]
        omega
    refine .frame hsent hnative ?_ rfl
    rw [hbrief.stampOf_eq hreply, if_pos (by rfl)]
    exact congrArg some (natural_decimal native)
  · rw [stampOf, hread, Option.bind_some, List.getD_cons_zero, if_neg hother]

/-! ### The next instruction -/

theorem scan_isValueError {rounds : ℕ} {rest : Text} {position : ℕ}
    (h : scan rounds rest position found = .refused e) : e.IsValueError := by
  induction rounds generalizing rest position found with
  | zero =>
    obtain rfl := Scan.refused.inj h
    trivial
  | succ rounds ih =>
    rw [scan] at h
    cases hpoint : findPoint rest with
    | none =>
      simp only [hpoint] at h
      split_ifs at h
      obtain rfl := Scan.refused.inj h
      trivial
    | some point =>
      simp only [hpoint] at h
      cases hnumber : number (rest.take point) 65536 with
      | error fault =>
        simp only [hnumber] at h
        obtain rfl := Scan.refused.inj h
        exact number_isValueError hnumber
      | ok size =>
        simp only [hnumber] at h
        cases hdrop : rest.drop (point + size + 1) with
        | nil => simp only [hdrop, reduceCtorEq] at h
        | cons delimiter after =>
          simp only [hdrop] at h
          split_ifs at h
          · obtain rfl := Scan.refused.inj h
            trivial
          · exact ih h

/-- The next instruction, with what it means for the account. -/
theorem wp_advance (h : output.screen.Sound) :
    wp next
      (fun result after => ¬Fatal output ∧ match result with
        | none => after.screen = output.screen
        | some packets => ∃ values, upcoming output = some values ∧ after.screen.Sound ∧
          Emits output.screen after.screen values packets)
      (fun fault after => after.screen.Bounded ∧ (¬fault.IsValueError ↔ Fatal output))
      (fun after => after.screen.Bounded) output := by
  have hb := h.toBounded
  have hnone (hupcoming : upcoming output = none) : ¬Fatal output := by
    rintro ⟨values, hvalues, -⟩
    cases hupcoming.symm.trans hvalues
  rw [next, wp_bind, wp_disk]
  by_cases hempty : output.buffer = []
  · rw [if_pos hempty, wp_pure]
    refine ⟨hnone ?_, rfl⟩
    rw [upcoming, hempty]
    rfl
  · rw [if_neg hempty]
    cases hscan : scan 17 output.buffer 0 0 with
    | waiting =>
      have hupcoming : upcoming output = none := by rw [upcoming, hscan]
      exact wp_pure.mpr ⟨hnone hupcoming, rfl⟩
    | refused fault =>
      have hupcoming : upcoming output = none := by rw [upcoming, hscan]
      refine wp_check.mpr ⟨fun _ h => (by cases h), fun fault' h => ⟨hb, ?_⟩⟩
      obtain rfl := Except.error.inj h
      exact ⟨fun hnot => absurd (scan_isValueError hscan) hnot,
        fun hfatal => absurd hfatal (hnone hupcoming)⟩
    | complete position =>
      obtain ⟨values, hparse, -⟩ := scan_complete hscan
      have hupcoming : upcoming output = some values := by
        simp only [upcoming, hscan, hparse]
        rfl
      have hfatal : Fatal output ↔ Orphaned output.screen values ∧
          output.usage.count < 8192 ∧ output.usage.frameCount < 32768 := by
        constructor
        · rintro ⟨other, hother, hrest⟩
          obtain rfl := Option.some.inj (hupcoming.symm.trans hother)
          exact hrest
        · exact fun hrest => ⟨values, hupcoming, hrest⟩
      simp only [wp_bind, wp_check, wp_perform, wp_disk, wp_refuseIf, hparse, Except.ok.injEq,
        reduceCtorEq, false_imp_iff, implies_true, and_true]
      rintro _ rfl
      refine ⟨hb, hb, fun hmany => ⟨hb, fun hnot => absurd trivial hnot, fun hboth => ?_⟩,
        fun hfew => ?_⟩
      · obtain ⟨-, hcount, hframe⟩ := hfatal.mp hboth
        omega
      · have hcounts : output.usage.count < 8192 ∧ output.usage.frameCount < 32768 := by omega
        rw [wp_onPart (by rfl)]
        refine wp_mono (wp_accept h values) ?_ ?_ fun _ hscreen => hscreen
        · rintro packets screen ⟨hsound, hemits, hnot⟩
          simp only [wp_bind, wp_perform, wp_pure]
          have hresult : ¬Fatal output := fun hboth => hnot (hfatal.mp hboth).1
          split_ifs <;>
            exact ⟨hsound.toBounded, hresult, values, hupcoming, hsound, hemits⟩
        · rintro fault screen ⟨hbounded, hkey⟩
          exact ⟨hbounded, hkey.trans
            ⟨fun horphan => hfatal.mpr ⟨horphan, hcounts⟩, fun hboth => (hfatal.mp hboth).1⟩⟩

/-! ### Runs -/

/-- What every action keeps. While the session lives, the frames that wait are among those issued,
and none of them has been acknowledged. -/
structure Inv (s : Session) : Prop where
  bounded : s.output.screen.Bounded
  sound : s.fault = none → s.output.screen.Sound
  waiting : s.fault = none → ∀ stamp native,
    s.output.screen.syncs.lookup stamp = some native → (stamp, native) ∈ s.issued
  last : s.fault = none → ∀ entry ∈ s.issued, entry.1 ≤ s.output.screen.lastStamp
  answered : s.fault = none → ∀ entry ∈ s.acknowledged,
    s.output.screen.syncs.lookup entry.1 = none
  natives : ∀ entry ∈ s.issued, entry.2 ≤ 2 ^ 53 - 1
  increasing : (s.issued.map Prod.fst).Pairwise (· < ·)
  issued : ∀ entry ∈ s.acknowledged, entry ∈ s.issued
  once : (s.acknowledged.map Prod.fst).Nodup

/-- Only `ValueError`s have been raised. -/
def Refused (s : Session) : Prop := ∀ fault, s.fault = some fault → fault.IsValueError

theorem inv_start (now : ℚ) : Inv (start now) where
  bounded := Screen.sound_new.toBounded
  sound _ := Screen.sound_new
  waiting _ stamp native h := by
    rw [start, Output.new, Screen.new, AList.lookup_empty] at h
    cases h
  last _ entry h := absurd h List.not_mem_nil
  answered _ entry h := absurd h List.not_mem_nil
  natives entry h := absurd h List.not_mem_nil
  increasing := List.Pairwise.nil
  issued entry h := absurd h List.not_mem_nil
  once := List.nodup_nil

/-- What is raised ends the session, and what has been promised about stamps remains. -/
theorem Inv.raise (h : s.Inv) (hbounded : output.screen.Bounded) (fault : Fault) :
    Inv { s with output, fault := some fault } :=
  { h with
    bounded := hbounded
    sound := fun hnone => (nomatch hnone)
    waiting := fun hnone => (nomatch hnone)
    last := fun hnone => (nomatch hnone)
    answered := fun hnone => (nomatch hnone) }

/-- A step that changes neither the account nor the frames. -/
theorem Inv.same (h : s.Inv) (hscreen : output.screen = s.output.screen) (busy : Bool) :
    Inv { s with output, busy } :=
  { h with
    bounded := hscreen ▸ h.bounded
    sound := fun hnone => hscreen ▸ h.sound hnone
    waiting := fun hnone => hscreen ▸ h.waiting hnone
    last := fun hnone => hscreen ▸ h.last hnone
    answered := fun hnone => hscreen ▸ h.answered hnone }

/-- The browser receives what an instruction emits. -/
theorem Inv.emit (h : s.Inv) (hfault : s.fault = none) {values : List Text}
    {packets : List (List UInt8)} (hsound : output.screen.Sound)
    (hemits : Emits s.output.screen output.screen values packets) :
    Inv { s with output, issued := s.issued ++ framesOf values packets } := by
  cases hemits with
  | @frame packet op packet_le stamp later native_le syncs =>
    have hframes : framesOf values [packet] =
        [(output.screen.lastStamp, natural (values.getD 1 []))] := by
      simp only [framesOf, List.filterMap_cons, List.filterMap_nil, stamp, Option.map_some]
    rw [hframes]
    have hlast := h.last hfault
    refine ⟨hsound.toBounded, fun _ => hsound, fun _ stamp' native' hlookup => ?_,
      fun _ entry hentry => ?_, fun _ entry hentry => ?_, fun entry hentry => ?_, ?_,
      fun entry hentry => List.mem_append_left _ (h.issued entry hentry), h.once⟩
    · rw [syncs, Table.lookup_insert_eq] at hlookup
      split_ifs at hlookup with hsame
      · obtain rfl := Option.some.inj hlookup
        rw [hsame]
        exact List.mem_append_right _ List.mem_cons_self
      · exact List.mem_append_left _ (h.waiting hfault stamp' native' hlookup)
    · obtain hentry | hentry := List.mem_append.mp hentry
      · exact (hlast entry hentry).trans later.le
      · obtain rfl := List.mem_singleton.mp hentry
        exact le_refl _
    · -- The new stamp is larger than those that have been acknowledged.
      have hle := hlast entry (h.issued entry hentry)
      rw [syncs, Table.lookup_insert_eq, if_neg (by omega)]
      exact h.answered hfault entry hentry
    · obtain hentry | hentry := List.mem_append.mp hentry
      · exact h.natives entry hentry
      · obtain rfl := List.mem_singleton.mp hentry
        exact native_le
    · rw [List.map_append, List.pairwise_append]
      refine ⟨h.increasing, List.pairwise_singleton _ _, fun old hold new hnew => ?_⟩
      obtain ⟨entry, hentry, rfl⟩ := List.mem_map.mp hold
      obtain rfl := List.mem_singleton.mp hnew
      exact (hlast entry hentry).trans_lt later
  | other op syncs lastStamp plain =>
    have hframes : framesOf values packets = [] := by
      rw [framesOf, List.filterMap_eq_nil_iff]
      intro packet hpacket
      rw [(plain packet hpacket).2, Option.map_none]
    rw [hframes, List.append_nil]
    exact ⟨hsound.toBounded, fun _ => hsound, fun hnone => syncs ▸ h.waiting hnone,
      fun hnone => lastStamp ▸ h.last hnone, fun hnone => syncs ▸ h.answered hnone, h.natives,
      h.increasing, h.issued, h.once⟩

/-- The native viewer receives the answer of the browser. -/
theorem Inv.answer (h : s.Inv) (hfault : s.fault = none) {screen : Screen} {data reply : List UInt8}
    (hsound : screen.Sound) (hanswers : Answers s.output.screen screen data reply) :
    Inv { s with
      output := { s.output with screen }
      acknowledged := s.acknowledged ++ answersOf data reply } := by
  cases hanswers with
  | @frame stamp native sent lookup received same =>
    have hanswer : answersOf data reply = [(stamp, native)] := by
      simp only [answersOf, sent, received, Option.map_some, Option.getD_some, Option.toList_some]
    rw [hanswer]
    have hwaiting := h.waiting hfault
    have hanswered := h.answered hfault
    refine ⟨hsound.toBounded, fun _ => hsound, fun _ stamp' native' hlookup => ?_, fun hnone => ?_,
      fun _ entry hentry => ?_, h.natives, h.increasing, fun entry hentry => ?_, ?_⟩
    · simp only [same, Table.lookup_erase_eq] at hlookup
      split_ifs at hlookup
      exact hwaiting stamp' native' hlookup
    · simp only [same]
      exact h.last hnone
    · simp only [same, Table.lookup_erase_eq]
      split_ifs with hsame
      · rfl
      · obtain hentry | hentry := List.mem_append.mp hentry
        · exact hanswered entry hentry
        · obtain rfl := List.mem_singleton.mp hentry
          exact absurd rfl hsame
    · obtain hentry | hentry := List.mem_append.mp hentry
      · exact h.issued entry hentry
      · obtain rfl := List.mem_singleton.mp hentry
        exact hwaiting stamp native lookup
    · rw [List.map_append, List.nodup_append]
      refine ⟨h.once, List.nodup_singleton _, fun old hold new hnew hsame => ?_⟩
      obtain ⟨entry, hentry, rfl⟩ := List.mem_map.mp hold
      obtain rfl := List.mem_singleton.mp hnew
      have hnone := hanswered entry hentry
      rw [hsame, lookup] at hnone
      cases hnone
  | other sent same =>
    have hanswer : answersOf data reply = [] := by
      rw [answersOf, sent, Option.map_none, Option.toList_none]
    rw [hanswer, List.append_nil, same]
    exact h

/-- An action keeps the invariant, and raises something other than a `ValueError` exactly if it is
not careful. -/
theorem Inv.step (h : s.Inv) (hrefused : s.Refused) (act : Act) :
    Inv (s.step act) ∧ (Refused (s.step act) ↔ s.Careful act) := by
  unfold Session.step
  by_cases hlive : s.fault = none
  swap
  · rw [if_pos hlive]
    exact ⟨h, fun _ hnot => absurd hnot.2.1 hlive, fun _ => hrefused⟩
  rw [if_neg (not_not.mpr hlive)]
  have hsound := h.sound hlive
  have hquiet {s' : Session} (hnone : s'.fault = none) : s'.Refused := by
    intro fault hsome
    cases hnone.symm.trans hsome
  have hraised {output : Output} {fault : Fault} :
      Refused { s with output, fault := some fault } ↔ fault.IsValueError :=
    ⟨fun hall => hall fault rfl, fun hvalue other hsome => Option.some.inj hsome ▸ hvalue⟩
  cases act with
  | receive now data =>
    have hcareful : s.Careful (.receive now data) := fun hnot => Act.noConfusion hnot.1
    by_cases hbusy : s.busy = true
    · simp only [if_pos hbusy]
      exact ⟨h, fun _ => hcareful, fun _ => hrefused⟩
    · simp only [if_neg hbusy]
      have hend := (wp_receive now data s.output).2
      cases hresult : (Viewer.receive now data s.output).result with
      | error fault =>
        simp only [hresult] at hend ⊢
        obtain ⟨hvalue, hscreen⟩ := hend
        refine ⟨h.raise (hscreen ▸ h.bounded) fault, fun _ => hcareful, fun _ => hraised.mpr ?_⟩
        obtain ⟨text, rfl⟩ | ⟨text, rfl, -⟩ := hvalue <;> trivial
      | ok received =>
        simp only [hresult] at hend ⊢
        obtain ⟨-, -, -, -, -, hscreen⟩ := hend
        exact ⟨h.same hscreen true, fun _ => hcareful, fun _ => hquiet hlive⟩
  | advance =>
    by_cases hbusy : s.busy = true
    · simp only [if_pos hbusy]
      have hend := (wp_advance hsound).2
      have hcareful : s.Careful .advance ↔ ¬Fatal s.output :=
        not_congr ⟨fun hall => hall.2.2.2, fun hfatal => ⟨rfl, hlive, hbusy, hfatal⟩⟩
      cases hresult : (next s.output).result with
      | error fault =>
        simp only [hresult] at hend ⊢
        exact ⟨h.raise hend.1 fault, hraised.trans
          ((not_iff_comm.mp hend.2).symm.trans hcareful.symm)⟩
      | ok result =>
        simp only [hresult] at hend ⊢
        cases result with
        | none =>
          obtain ⟨hnot, hscreen⟩ := hend
          exact ⟨h.same hscreen false, fun _ => hcareful.mpr hnot, fun _ => hquiet hlive⟩
        | some packets =>
          obtain ⟨hnot, values, hvalues, hnext, hemits⟩ := hend
          simp only [hvalues, Option.getD_some]
          exact ⟨h.emit hlive hnext hemits, fun _ => hcareful.mpr hnot, fun _ => hquiet hlive⟩
    · simp only [if_neg hbusy]
      exact ⟨h, fun _ hnot => hbusy hnot.2.2.1, fun _ => hrefused⟩
  | browse data =>
    have hcareful : s.Careful (.browse data) := fun hnot => Act.noConfusion hnot.1
    have hnatives : ∀ stamp native, s.output.screen.syncs.lookup stamp = some native →
        native ≤ 2 ^ 53 - 1 := fun stamp native hlookup =>
      h.natives _ (h.waiting hlive stamp native hlookup)
    have hend := (wp_forward hsound hnatives data).2
    simp only
    cases hresult : (forward data s.output.screen).result with
    | error fault =>
      simp only [hresult] at hend ⊢
      exact ⟨h.raise hend.1 fault, fun _ => hcareful, fun _ => hraised.mpr hend.2⟩
    | ok reply =>
      simp only [hresult] at hend ⊢
      exact ⟨h.answer hlive hend.1 hend.2, fun _ => hcareful, fun _ => hquiet hlive⟩

/-- The accounts that an action leads through are bounded. -/
theorem Inv.through (h : s.Inv) (hlive : s.fault = none) (act : Act) :
    ∀ screen ∈ s.through act, screen.Bounded := by
  have hsound := h.sound hlive
  intro screen hscreen
  cases act with
  | receive now data =>
    obtain ⟨output, houtput, rfl⟩ := List.mem_map.mp hscreen
    rw [(wp_receive now data s.output).1 output houtput]
    exact h.bounded
  | advance =>
    obtain ⟨output, houtput, rfl⟩ := List.mem_map.mp hscreen
    exact (wp_advance hsound).1 output houtput
  | browse data =>
    have hnatives : ∀ stamp native, s.output.screen.syncs.lookup stamp = some native →
        native ≤ 2 ^ 53 - 1 := fun stamp native hlookup =>
      h.natives _ (h.waiting hlive stamp native hlookup)
    exact (wp_forward hsound hnatives data).1 screen hscreen

theorem Inv.kept (h : s.Inv) (hrefused : s.Refused) : s.Kept :=
  { h with
    refused := hrefused
    through := fun act screen hscreen hlive => h.through hlive act screen hscreen
    pixels := fun hlive => (h.sound hlive).pixels }

/-- In every run the session raises only `ValueError`s, keeps the bounds on layers, images and
frames at every step and the bound on pixels after every accepted instruction, and gives every frame
a stamp that is larger than those before it and is acknowledged at most once, with the stamp of the
native viewer: exactly if no action of the run completes an image whose layer has been disposed
of. -/
theorem kept_iff (now : ℚ) (actions : List Act) :
    (∀ first, first <+: actions → (run step (start now) first).Kept) ↔
      Along step Careful (start now) actions := by
  have hall {s : Session} (h : s.Inv) (hrefused : s.Refused) :
      (∀ first, first <+: actions → (run step s first).Kept) ↔ Along step Careful s actions := by
    induction actions generalizing s with
    | nil =>
      refine ⟨fun _ => trivial, fun _ first hfirst => ?_⟩
      rw [List.prefix_nil.mp hfirst]
      exact h.kept hrefused
    | cons act actions ih =>
      obtain ⟨hnext, hcareful⟩ := h.step hrefused act
      constructor
      · intro hkept
        have hone : Refused (s.step act) :=
          (hkept [act] (List.cons_prefix_cons.mpr ⟨rfl, List.nil_prefix⟩)).refused
        refine ⟨hcareful.mp hone, (ih hnext hone).mp fun first hfirst => ?_⟩
        exact hkept (act :: first) (List.cons_prefix_cons.mpr ⟨rfl, hfirst⟩)
      · rintro ⟨hact, hrest⟩ first hfirst
        cases first with
        | nil => exact h.kept hrefused
        | cons other first =>
          obtain ⟨rfl, hrest'⟩ := List.cons_prefix_cons.mp hfirst
          exact (ih hnext (hcareful.mpr hact)).mpr hrest first hrest'
  exact hall (inv_start now) fun fault hsome => (nomatch hsome)

/-- The shortest image that is completed: a header for one pixel, and nothing that is read before it
is drawn. -/
def smallImage : List UInt8 :=
  pngHeader ++ [0, 0, 0, 1, 0, 0, 0, 1] ++ List.replicate 21 0

/-- An image begins on a layer, the layer is disposed of, and the image is completed. -/
def disposedRun : List Act :=
  [.receive 0 (bytesOf "3.img,1.1,2.15,1.3,9.image/png,1.0,1.0;7.dispose,1.3;4.blob,1.1,60." ++
      (b64encode smallImage).map (fun c => UInt8.ofNat c.val) ++ bytesOf ";3.end,1.1;"),
    .advance, .advance, .advance, .advance]

/-- The session raises a `KeyError`. -/
theorem not_always_kept : (run step (start 0) disposedRun).fault = some .key := by
  decide +kernel

end Session

end Ficc.Viewer
