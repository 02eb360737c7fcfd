import Ficc.Viewer.Output

/-!
# Chunks of display output

How the output of the native viewer is cut into chunks does not matter, unless it is not UTF-8.

`Displays` says what a text shows, with no mention of chunks. It is deterministic, and what one text
shows and then another is what they show together. `feeds_displays` connects it to the chunks.

## Main results

* `scan_complete`: the instruction that the scanner finds is accepted by `parse`.
* `chunks_irrelevant`: two ways to cut a stream into chunks, none of which reaches a limit, emit the
  same instructions, and the deliveries of a chunk are what is emitted for it.
* `chunks_matter`: what is emitted in front of a byte that is not UTF-8 depends on the chunks.
-/

namespace Ficc.Viewer

open Utf8 JsonText Durable

/-! ### The scanner -/

variable {text rest : Text} {position rounds : ℕ} {after screen : Screen} {fault : Option Fault}
  {packets : List (List UInt8)} {output : Output}

theorem findPoint_more {point : ℕ} (h : findPoint text = some point) (more : Text) :
    findPoint (text ++ more) = some point := by
  rw [findPoint, List.take_append, List.findIdx?_append]
  rw [findPoint] at h
  rw [h]
  rfl

theorem findPoint_none_more (h : findPoint text = none) (hlength : 7 ≤ text.length) (more : Text) :
    findPoint (text ++ more) = none := by
  rwa [findPoint, List.take_append_of_le_length hlength]

/-- What the scanner finds does not change when more text arrives. -/
theorem scan_more {found : ℕ} (h : scan rounds rest position found ≠ .waiting) (more : Text) :
    scan rounds (rest ++ more) position found = scan rounds rest position found := by
  induction rounds generalizing rest position found with
  | zero => rfl
  | succ rounds ih =>
    rw [scan] at h ⊢
    rw [scan]
    cases hpoint : findPoint rest with
    | none =>
      simp only [hpoint] at h ⊢
      by_cases hlength : 7 ≤ rest.length
      · have hlonger : 7 ≤ (rest ++ more).length := by
          rw [List.length_append]
          omega
        simp only [findPoint_none_more hpoint hlength more, if_pos hlength, if_pos hlonger]
      · exact absurd (if_neg hlength) h
    | some point =>
      obtain ⟨-, hlength, -⟩ := findPoint_eq_some hpoint
      have hle : point ≤ rest.length := by
        rw [← hlength]
        exact List.length_take_le' _ _
      simp only [hpoint, findPoint_more hpoint more, List.take_append_of_le_length hle] at h ⊢
      cases hnumber : number (rest.take point) 65536 with
      | error fault => rfl
      | ok size =>
        simp only [hnumber] at h ⊢
        cases hdrop : rest.drop (point + size + 1) with
        | nil =>
          simp only [hdrop] at h
          exact absurd rfl h
        | cons delimiter after =>
          have hmore : (rest ++ more).drop (point + size + 1) = delimiter :: (after ++ more) := by
            have hlt : point + size + 1 ≤ rest.length := by
              by_contra hgt
              rw [List.drop_of_length_le (by omega)] at hdrop
              cases hdrop
            rw [List.drop_append_of_le_length hlt, hdrop, List.cons_append]
          simp only [hdrop, hmore] at h ⊢
          split_ifs at h ⊢ with hbad hend
          · rfl
          · rfl
          · exact ih h

/-- The text up to the end that the scanner finds is an instruction. -/
theorem scan_instruction {found stop : ℕ} (h : scan rounds rest position found = .complete stop) :
    ∃ first after values, rest = first ++ after ∧ stop = position + first.length ∧
      Instruction first values ∧ found + values.length ≤ 16 ∧ stop ≤ 65536 := by
  induction rounds generalizing rest position found with
  | zero => cases h
  | succ rounds ih =>
    rw [scan] at h
    cases hpoint : findPoint rest with
    | none =>
      simp only [hpoint] at h
      split_ifs at h
    | some point =>
      obtain ⟨hle, hlength, hrest⟩ := findPoint_eq_some hpoint
      simp only [hpoint] at h
      cases hnumber : number (rest.take point) 65536 with
      | error fault => simp only [hnumber, reduceCtorEq] at h
      | ok size =>
        simp only [hnumber] at h
        obtain ⟨⟨hne, -, hdigits, -⟩, hsize⟩ := number_eq_ok.mp hnumber
        cases hdrop : rest.drop (point + size + 1) with
        | nil => simp only [hdrop, reduceCtorEq] at h
        | cons delimiter after =>
          simp only [hdrop] at h
          -- The element is the digits, the point and as many characters as the digits say.
          have hbody : (rest.drop (point + 1)).drop size = delimiter :: after := by
            rw [List.drop_drop, ← hdrop]
            congr 1
            omega
          have hvalue : ((rest.drop (point + 1)).take size).length = size := by
            rw [List.length_take, Nat.min_eq_left]
            by_contra hgt
            rw [List.drop_of_length_le (by omega)] at hbody
            cases hbody
          have hsplit : rest = (rest.take point ++ 46 :: (rest.drop (point + 1)).take size) ++
              delimiter :: after := by
            rw [List.append_assoc, List.cons_append, ← hbody, List.take_append_drop]
            exact hrest
          have helement : Element (rest.take point ++ 46 :: (rest.drop (point + 1)).take size)
              ((rest.drop (point + 1)).take size) :=
            ⟨rest.take point, hne, hlength.trans_le hle, hdigits, hsize.trans hvalue.symm, rfl⟩
          have hcount : (rest.take point ++ 46 :: (rest.drop (point + 1)).take size).length =
              point + size + 1 := by
            rw [List.length_append, List.length_cons, hlength, hvalue]
            omega
          generalize rest.take point ++ 46 :: (rest.drop (point + 1)).take size = first at *
          split_ifs at h with hbad hend
          · obtain rfl := Scan.complete.inj h
            simp only [not_or, not_lt] at hbad
            refine ⟨first ++ [59], after, _, ?_, ?_, .last helement, ?_, hbad.2.1⟩
            · rw [hsplit, hend, List.append_assoc, List.singleton_append]
            · rw [List.length_append, hcount, List.length_singleton]
            · exact hbad.1
          · simp only [not_or, not_lt] at hbad
            obtain ⟨later, after', values, hafter, hstop, hlater, hfound, hlimit⟩ := ih h
            have hcomma : delimiter = 44 := by
              by_contra hother
              exact hbad.2.2 ⟨hother, hend⟩
            refine ⟨first ++ 44 :: later, after', _ :: values, ?_, ?_, .more helement hlater, ?_,
              hlimit⟩
            · rw [hsplit, hcomma, hafter, List.append_assoc, List.cons_append]
            · rw [hstop, List.length_append, List.length_cons, hcount]
              omega
            · rw [List.length_cons]
              omega

/-- The instruction that the scanner finds is accepted by the parser. -/
theorem scan_complete (h : scan 17 text 0 0 = .complete position) :
    ∃ values, parse (text.take position) 65536 = .ok values ∧ 0 < position ∧
      position ≤ text.length := by
  obtain ⟨first, after, values, rfl, rfl, hinstruction, hcount, hlimit⟩ := scan_instruction h
  rw [Nat.zero_add] at hlimit ⊢
  rw [List.take_left]
  refine ⟨values, parse_eq_ok.mpr ⟨hinstruction, hlimit, by omega⟩,
    List.length_pos_iff.mpr hinstruction.ne_nil, ?_⟩
  rw [List.length_append]
  exact Nat.le_add_right _ _

/-! ### What a text shows -/

/-- A text is shown on a screen, as far as its instructions are complete: what is emitted, the text
that is left, the screen afterwards, and what is raised. -/
inductive Displays :
    Text → Screen → List (List UInt8) → Text → Screen → Option Fault → Prop
  | waiting {text : Text} {screen : Screen} (scanned : scan 17 text 0 0 = .waiting) :
    Displays text screen [] text screen none
  | refused {text : Text} {screen : Screen} {fault : Fault}
    (scanned : scan 17 text 0 0 = .refused fault) : Displays text screen [] text screen (some fault)
  | raised {text : Text} {screen : Screen} {position : ℕ} {values : List Text} {fault : Fault}
    (scanned : scan 17 text 0 0 = .complete position)
    (parsed : parse (text.take position) 65536 = .ok values)
    (result : (accept values screen).result = .error fault) :
    Displays text screen [] (text.drop position)
      (last screen (accept values screen).states) (some fault)
  | shown {text rest : Text} {screen screen' : Screen} {position : ℕ} {values : List Text}
    {packets later : List (List UInt8)} {fault : Option Fault}
    (scanned : scan 17 text 0 0 = .complete position)
    (parsed : parse (text.take position) 65536 = .ok values)
    (result : (accept values screen).result = .ok packets)
    (displays : Displays (text.drop position) (last screen (accept values screen).states) later
      rest screen' fault) :
    Displays text screen (packets ++ later) rest screen' fault

/-- What a text shows is determined. -/
theorem Displays.unique {rest' : Text} {after' : Screen} {packets' : List (List UInt8)}
    {fault' : Option Fault} (h : Displays text screen packets rest after fault)
    (h' : Displays text screen packets' rest' after' fault') :
    packets = packets' ∧ rest = rest' ∧ after = after' ∧ fault = fault' := by
  induction h generalizing packets' rest' after' fault' with
  | waiting scanned =>
    cases h' with
    | waiting _ => exact ⟨rfl, rfl, rfl, rfl⟩
    | refused scanned' => cases scanned.symm.trans scanned'
    | raised scanned' _ _ => cases scanned.symm.trans scanned'
    | shown scanned' _ _ _ => cases scanned.symm.trans scanned'
  | refused scanned =>
    cases h' with
    | waiting scanned' => cases scanned.symm.trans scanned'
    | refused scanned' =>
      obtain rfl := Scan.refused.inj (scanned.symm.trans scanned')
      exact ⟨rfl, rfl, rfl, rfl⟩
    | raised scanned' _ _ => cases scanned.symm.trans scanned'
    | shown scanned' _ _ _ => cases scanned.symm.trans scanned'
  | raised scanned parsed result =>
    cases h' with
    | waiting scanned' => cases scanned.symm.trans scanned'
    | refused scanned' => cases scanned.symm.trans scanned'
    | raised scanned' parsed' result' =>
      obtain rfl := Scan.complete.inj (scanned.symm.trans scanned')
      obtain rfl := Except.ok.inj (parsed.symm.trans parsed')
      obtain rfl := Except.error.inj (result.symm.trans result')
      exact ⟨rfl, rfl, rfl, rfl⟩
    | shown scanned' parsed' result' _ =>
      obtain rfl := Scan.complete.inj (scanned.symm.trans scanned')
      obtain rfl := Except.ok.inj (parsed.symm.trans parsed')
      cases result.symm.trans result'
  | shown scanned parsed result _ ih =>
    cases h' with
    | waiting scanned' => cases scanned.symm.trans scanned'
    | refused scanned' => cases scanned.symm.trans scanned'
    | raised scanned' parsed' result' =>
      obtain rfl := Scan.complete.inj (scanned.symm.trans scanned')
      obtain rfl := Except.ok.inj (parsed.symm.trans parsed')
      cases result.symm.trans result'
    | shown scanned' parsed' result' displays' =>
      obtain rfl := Scan.complete.inj (scanned.symm.trans scanned')
      obtain rfl := Except.ok.inj (parsed.symm.trans parsed')
      obtain rfl := Except.ok.inj (result.symm.trans result')
      obtain ⟨rfl, rfl, rfl, rfl⟩ := ih displays'
      exact ⟨rfl, rfl, rfl, rfl⟩

/-- What is left when nothing has been raised is not complete. -/
theorem Displays.rest_waiting (h : Displays text screen packets rest after fault)
    (hfault : fault = none) :
    scan 17 rest 0 0 = .waiting := by
  induction h with
  | waiting scanned => exact scanned
  | refused _ => cases hfault
  | raised _ _ _ => cases hfault
  | shown _ _ _ _ ih => exact ih hfault

theorem scan_complete_more (h : scan 17 text 0 0 = .complete position) (more : Text) :
    scan 17 (text ++ more) 0 0 = .complete position ∧
      (text ++ more).take position = text.take position ∧
      (text ++ more).drop position = text.drop position ++ more := by
  obtain ⟨-, -, -, hle⟩ := scan_complete h
  have hne : scan 17 text 0 0 ≠ .waiting := by
    rw [h]
    exact Scan.noConfusion
  exact ⟨(scan_more hne more).trans h, List.take_append_of_le_length hle,
    List.drop_append_of_le_length hle⟩

/-- What is raised for a text is raised for a longer one. -/
theorem Displays.more (h : Displays text screen packets rest after fault) (hfault : fault ≠ none)
    (more : Text) :
    Displays (text ++ more) screen packets (rest ++ more) after fault := by
  induction h with
  | waiting _ => exact absurd rfl hfault
  | refused scanned =>
    refine .refused ((scan_more ?_ more).trans scanned)
    rw [scanned]
    exact Scan.noConfusion
  | raised scanned parsed result =>
    obtain ⟨hscan, htake, hdrop⟩ := scan_complete_more scanned more
    rw [← hdrop]
    exact .raised hscan (htake ▸ parsed) result
  | shown scanned parsed result _ ih =>
    obtain ⟨hscan, htake, hdrop⟩ := scan_complete_more scanned more
    exact .shown hscan (htake ▸ parsed) result (hdrop ▸ ih hfault)

/-- What one text shows, and then another. -/
theorem Displays.append {more rest' : Text} {middle : Screen} {later : List (List UInt8)}
    {first : Option Fault} (h : Displays text screen packets rest middle first)
    (hfirst : first = none) (h' : Displays (rest ++ more) middle later rest' after fault) :
    Displays (text ++ more) screen (packets ++ later) rest' after fault := by
  induction h with
  | waiting _ => exact h'
  | refused _ => cases hfirst
  | raised _ _ _ => cases hfirst
  | shown scanned parsed result _ ih =>
    obtain ⟨hscan, htake, hdrop⟩ := scan_complete_more scanned more
    rw [List.append_assoc]
    exact .shown hscan (htake ▸ parsed) result (hdrop ▸ ih hfirst h')

/-! ### Chunks -/

/-- The next instruction is the one that the scanner finds. -/
theorem wp_next (output : Output) :
    wp next
      (fun result after => match result with
        | none => scan 17 output.buffer 0 0 = .waiting ∧ after = output
        | some packets => ∃ position values,
          scan 17 output.buffer 0 0 = .complete position ∧
            parse (output.buffer.take position) 65536 = .ok values ∧
            (accept values output.screen).result = .ok packets ∧
            after.screen = last output.screen (accept values output.screen).states ∧
            after.buffer = output.buffer.drop position ∧ after.decoder = output.decoder)
      (fun fault after => (∃ text, fault = .limit text) ∨
        Displays output.buffer output.screen [] after.buffer after.screen (some fault))
      (fun _ => True) output := by
  rw [next, wp_bind, wp_disk]
  by_cases hempty : output.buffer = []
  · rw [if_pos hempty, wp_pure, hempty]
    exact ⟨rfl, rfl⟩
  · rw [if_neg hempty]
    cases hscan : scan 17 output.buffer 0 0 with
    | waiting => exact wp_pure.mpr ⟨rfl, rfl⟩
    | refused fault =>
      refine wp_check.mpr ⟨fun _ h => (nomatch h), fun fault' h => .inr ?_⟩
      obtain rfl := Except.error.inj h
      exact .refused hscan
    | complete position =>
      obtain ⟨values, hparse, -⟩ := scan_complete hscan
      simp only [wp_bind, wp_check, wp_perform, wp_disk, wp_refuseIf, hparse, true_and,
        Except.ok.injEq, reduceCtorEq, false_imp_iff, implies_true, and_true]
      rintro _ rfl
      refine ⟨fun _ => .inl ⟨_, rfl⟩, fun _ => ?_⟩
      rw [wp_onPart (by rfl)]
      refine wp_mono (wp_course (accept values) output.screen) ?_ ?_ fun _ _ => trivial
      · rintro packets screen ⟨hresult, rfl⟩
        simp only [wp_bind, wp_perform, wp_pure, true_and]
        refine ⟨position, values, rfl, hparse, hresult, ?_⟩
        split_ifs <;> exact ⟨rfl, rfl, rfl⟩
      · rintro fault screen ⟨hresult, rfl⟩
        exact .inr (.raised hscan hparse hresult)

/-- A chunk arrives as characters. -/
theorem wp_receive (now : ℚ) (data : List UInt8) (output : Output) :
    wp (receive now data)
      (fun _ after => ∃ decoder text, decodeFrom output.decoder data = some (decoder, text) ∧
        after.decoder = decoder ∧ after.buffer = output.buffer ++ text ∧
        after.screen = output.screen)
      (fun fault after => ((∃ text, fault = .limit text) ∨
        ∃ text, fault = .value text ∧ decodeFrom output.decoder data = none) ∧
        after.screen = output.screen)
      (fun after => after.screen = output.screen) output := by
  simp only [receive, wp_bind, wp_perform, wp_disk, wp_refuseIf, wp_demand]
  have hreset : ∃ usage, (if 1 ≤ now - output.usage.started then
      { output with usage := { output.usage with started := now, bytes := 0, count := 0 } }
      else output) = { output with usage } := by
    split_ifs
    · exact ⟨_, rfl⟩
    · exact ⟨output.usage, rfl⟩
  obtain ⟨usage, hreset⟩ := hreset
  rw [hreset]
  exact ⟨rfl, rfl, fun _ => ⟨.inl ⟨_, rfl⟩, rfl⟩, fun _ => ⟨fun hnone =>
    ⟨.inr ⟨_, rfl, hnone⟩, rfl⟩, fun decoded hdecoded => ⟨rfl, fun _ => ⟨.inl ⟨_, rfl⟩, rfl⟩,
    fun _ => ⟨decoded.1, decoded.2, hdecoded, rfl, rfl, rfl⟩⟩⟩⟩

/-- What is emitted for the text that has arrived is what it shows. -/
theorem drain_displays (hrounds : output.buffer.length ≤ rounds)
    (hlimit : ∀ text, (drain rounds output).fault ≠ some (.limit text)) :
    Displays output.buffer output.screen (drain rounds output).packets
        (drain rounds output).output.buffer (drain rounds output).output.screen
        (drain rounds output).fault ∧
      ((drain rounds output).fault = none →
        (drain rounds output).output.decoder = output.decoder) := by
  induction rounds generalizing output with
  | zero =>
    have hempty : output.buffer = [] := List.eq_nil_of_length_eq_zero (Nat.le_zero.mp hrounds)
    refine ⟨.waiting ?_, fun _ => rfl⟩
    rw [hempty]
    rfl
  | succ rounds ih =>
    have hend := (wp_next output).2
    rw [drain] at hlimit ⊢
    cases hresult : (next output).result with
    | error fault =>
      simp only [hresult] at hend hlimit ⊢
      obtain ⟨text, rfl⟩ | hdisplays := hend
      · exact absurd rfl (hlimit text)
      · exact ⟨hdisplays, fun h => (nomatch h)⟩
    | ok result =>
      simp only [hresult] at hend hlimit ⊢
      cases result with
      | none =>
        obtain ⟨hscan, hafter⟩ := hend
        rw [hafter]
        exact ⟨.waiting hscan, fun _ => rfl⟩
      | some packets =>
        simp only at hend hlimit ⊢
        obtain ⟨position, values, hscan, hparse, haccept, hscreen, hbuffer, hdecoder⟩ := hend
        obtain ⟨-, -, hpos, hle⟩ := scan_complete hscan
        generalize last output (next output).states = after at *
        have hshorter : after.buffer.length ≤ rounds := by
          rw [hbuffer, List.length_drop]
          omega
        obtain ⟨hdisplays, hkept⟩ := ih hshorter hlimit
        rw [hbuffer, hscreen] at hdisplays
        exact ⟨.shown hscan hparse haccept hdisplays,
          fun hnone => (hkept hnone).trans hdecoder⟩

/-- Chunks arrive, with the readings of the clock, until something is raised. -/
def feeds : List (ℚ × List UInt8) → Output → Emitted
  | [], output => ⟨[], output, none⟩
  | chunk :: rest, output =>
    let emitted := iterFeed chunk.1 chunk.2 output
    match emitted.fault with
    | some _ => emitted
    | none =>
      let later := feeds rest emitted.output
      { later with packets := emitted.packets ++ later.packets }

/-- The bytes of chunks. -/
def streamOf (chunks : List (ℚ × List UInt8)) : List UInt8 := chunks.flatMap Prod.snd

/-- What is raised is about a number of bytes, characters or instructions. -/
def Emitted.Limited (emitted : Emitted) : Prop := ∃ text, emitted.fault = some (.limit text)

instance (emitted : Emitted) : Decidable emitted.Limited :=
  match h : emitted.fault with
  | some (.limit text) => .isTrue ⟨text, h⟩
  | some (.value _) | some .key | some .index | none =>
    .isFalse fun ⟨_, hlimit⟩ => by cases h.symm.trans hlimit

/-- One chunk shows what its characters show after those that wait, unless it is refused. -/
theorem iterFeed_displays {now : ℚ} {data : List UInt8}
    (hlimit : ¬(iterFeed now data output).Limited) :
    (decodeFrom output.decoder data = none ∧ (iterFeed now data output).fault ≠ none ∧
        (iterFeed now data output).packets = []) ∨
      ∃ decoder text, decodeFrom output.decoder data = some (decoder, text) ∧
        Displays (output.buffer ++ text) output.screen (iterFeed now data output).packets
          (iterFeed now data output).output.buffer (iterFeed now data output).output.screen
          (iterFeed now data output).fault ∧
        ((iterFeed now data output).fault = none →
          (iterFeed now data output).output.decoder = decoder) := by
  have hend := (wp_receive now data output).2
  rw [iterFeed] at hlimit ⊢
  cases hresult : (receive now data output).result with
  | error fault =>
    simp only [hresult] at hend hlimit ⊢
    obtain ⟨⟨text, rfl⟩ | ⟨-, -, hdecode⟩, -⟩ := hend
    · exact absurd ⟨text, rfl⟩ hlimit
    · exact .inl ⟨hdecode, Option.some_ne_none fault, trivial⟩
  | ok received =>
    simp only [hresult] at hend hlimit ⊢
    obtain ⟨decoder, text, hdecode, hdecoder, hbuffer, hscreen⟩ := hend
    generalize last output (receive now data output).states = after at *
    obtain ⟨hdisplays, hkept⟩ := drain_displays (le_refl after.buffer.length)
      fun text h => hlimit ⟨text, h⟩
    refine .inr ⟨decoder, text, hdecode, ?_, fun hnone => (hkept hnone).trans hdecoder⟩
    rw [← hbuffer, ← hscreen]
    exact hdisplays

/-- Chunks show what their characters show together. -/
theorem feeds_displays {chunks : List (ℚ × List UInt8)} {decoder : Option Owed}
    (hwaiting : scan 17 output.buffer 0 0 = .waiting)
    (hdecode : decodeFrom output.decoder (streamOf chunks) = some (decoder, text))
    (hlimit : ¬(feeds chunks output).Limited) :
    ∃ rest, Displays (output.buffer ++ text) output.screen (feeds chunks output).packets rest
        (feeds chunks output).output.screen (feeds chunks output).fault ∧
      ((feeds chunks output).fault = none →
        (feeds chunks output).output.buffer = rest ∧
          (feeds chunks output).output.decoder = decoder) := by
  induction chunks generalizing output text with
  | nil =>
    obtain ⟨rfl, rfl⟩ := Prod.mk.inj (Option.some.inj hdecode)
    refine ⟨output.buffer, ?_, fun _ => ⟨rfl, rfl⟩⟩
    rw [List.append_nil]
    exact .waiting hwaiting
  | cons chunk rest ih =>
    -- The characters of the chunk, and those of the chunks after it.
    rw [streamOf, List.flatMap_cons, decodeFrom_append] at hdecode
    obtain ⟨before, hbefore, hdecode⟩ := Option.bind_eq_some_iff.mp hdecode
    obtain ⟨after, hafter, hsame⟩ := Option.map_eq_some_iff.mp hdecode
    obtain ⟨rfl, rfl⟩ := Prod.mk.inj hsame
    rw [feeds] at hlimit ⊢
    cases hfault : (iterFeed chunk.1 chunk.2 output).fault with
    | some fault =>
      simp only [hfault] at hlimit ⊢
      obtain ⟨hnone, -⟩ | ⟨decoder, text, hfirst, hdisplays, -⟩ := iterFeed_displays hlimit
      · cases hnone.symm.trans hbefore
      · obtain rfl := Option.some.inj (hfirst.symm.trans hbefore)
        rw [hfault] at hdisplays
        have hmore := hdisplays.more (Option.some_ne_none fault) after.2
        rw [List.append_assoc] at hmore
        exact ⟨_, hmore, fun h => (nomatch h)⟩
    | none =>
      simp only [hfault] at hlimit ⊢
      have hfirst : ¬(iterFeed chunk.1 chunk.2 output).Limited := by
        rintro ⟨text, h⟩
        cases hfault.symm.trans h
      obtain ⟨hnone, -⟩ | ⟨decoder, text, hfirst, hdisplays, hkept⟩ := iterFeed_displays hfirst
      · cases hnone.symm.trans hbefore
      · obtain rfl := Option.some.inj (hfirst.symm.trans hbefore)
        rw [← hkept hfault] at hafter
        obtain ⟨left, hlater, hend⟩ := ih (hdisplays.rest_waiting hfault) hafter hlimit
        refine ⟨left, ?_, hend⟩
        rw [← List.append_assoc]
        exact hdisplays.append hfault hlater

/-- Chunks for which nothing is raised are UTF-8. -/
theorem feeds_decodes {chunks : List (ℚ × List UInt8)} (h : (feeds chunks output).fault = none) :
    (decodeFrom output.decoder (streamOf chunks)).isSome := by
  induction chunks generalizing output with
  | nil => rfl
  | cons chunk rest ih =>
    rw [feeds] at h
    cases hfault : (iterFeed chunk.1 chunk.2 output).fault with
    | some fault =>
      simp only [hfault] at h
      cases h
    | none =>
      simp only [hfault] at h
      have hlimit : ¬(iterFeed chunk.1 chunk.2 output).Limited := by
        rintro ⟨text, hlimit⟩
        cases hfault.symm.trans hlimit
      obtain ⟨-, hraised, -⟩ | ⟨decoder, text, hfirst, -, hkept⟩ := iterFeed_displays hlimit
      · exact absurd hfault hraised
      · have hlater := ih h
        rw [hkept hfault] at hlater
        obtain ⟨after, hafter⟩ := Option.isSome_iff_exists.mp hlater
        rw [streamOf, List.flatMap_cons, decodeFrom_append, hfirst, Option.bind_some]
        rw [streamOf] at hafter
        rw [hafter]
        rfl

/-! ### Deliveries -/

theorem Emits.length_le {screen' : Screen} {values : List Text}
    (h : Emits screen screen' values packets) :
    ∀ packet ∈ packets, packet.length ≤ 65536 := by
  cases h with
  | frame _ packet_le _ _ _ _ =>
    intro packet hpacket
    obtain rfl := List.mem_singleton.mp hpacket
    exact packet_le
  | other _ _ _ plain => exact fun packet hpacket => (plain packet hpacket).1

/-- A text leaves the bounds on a screen, and each instruction fits into a delivery. -/
theorem Displays.sound (h : Displays text screen packets rest after fault) (hsound : screen.Sound) :
    (fault = none → after.Sound) ∧ ∀ packet ∈ packets, packet.length ≤ 65536 := by
  induction h with
  | waiting _ => exact ⟨fun _ => hsound, fun _ h => absurd h List.not_mem_nil⟩
  | refused _ => exact ⟨fun h => (nomatch h), fun _ h => absurd h List.not_mem_nil⟩
  | raised _ _ _ => exact ⟨fun h => (nomatch h), fun _ h => absurd h List.not_mem_nil⟩
  | @shown _ _ _ _ _ values _ _ _ _ _ result _ ih =>
    have hend := (wp_accept hsound values).2
    rw [result] at hend
    obtain ⟨hnext, hemits, -⟩ := hend
    obtain ⟨hafter, hlater⟩ := ih hnext
    refine ⟨hafter, fun packet hpacket => ?_⟩
    obtain hpacket | hpacket := List.mem_append.mp hpacket
    · exact hemits.length_le packet hpacket
    · exact hlater packet hpacket

/-- Deliveries hold what has been grouped, in order. -/
theorem group_flatten (fault : Option Fault) (waiting : List (List UInt8)) (size : ℕ)
    (h : ∀ packet ∈ packets, packet.length ≤ 65536) :
    (group fault packets waiting size).2 = fault ∧
      (fault = none → (group fault packets waiting size).1.flatten =
        waiting.flatten ++ packets.flatten) := by
  induction packets generalizing waiting size with
  | nil =>
    refine ⟨rfl, fun hnone => ?_⟩
    rw [group]
    by_cases hempty : waiting = []
    · simp [hempty]
    · simp [hempty, hnone]
  | cons packet rest ih =>
    have hsmall : ¬65536 < packet.length := not_lt.mpr (h packet List.mem_cons_self)
    have hrest : ∀ packet ∈ rest, packet.length ≤ 65536 := fun other hother =>
      h other (List.mem_cons_of_mem packet hother)
    rw [group, if_neg hsmall]
    -- What waits is delivered before the instruction, or with it.
    generalize decide (waiting ≠ [] ∧ (65536 < size + packet.length ∨ waiting.length = 64)) = full
    split_ifs with hframe
    · obtain ⟨hfault, hflatten⟩ := ih [] 0 hrest
      refine ⟨hfault, fun hnone => ?_⟩
      cases full <;> simp [hflatten hnone]
    · obtain ⟨hfault, hflatten⟩ := ih ((if full then [] else waiting) ++ [packet])
        ((if full then 0 else size) + packet.length) hrest
      refine ⟨hfault, fun hnone => ?_⟩
      rw [List.flatten_append, hflatten hnone]
      cases full <;> simp

/-! ### Runs -/

/-- An acknowledgement keeps the bounds. -/
theorem wp_acknowledge (h : screen.Sound) (data : List UInt8) :
    wp (acknowledge data) (fun _ => Screen.Sound) (fun _ => Screen.Sound) Screen.Sound screen := by
  simp only [acknowledge, wp_bind, wp_check, wp_ite, wp_demand, wp_disk, wp_refuseIf, wp_perform,
    wp_pure]
  have herased (stamp : ℕ) : Screen.Sound { screen with syncs := screen.syncs.erase stamp } :=
    ⟨⟨h.layers, h.streams, (Table.length_erase_le screen.syncs stamp).trans h.syncs, h.args⟩,
      h.pixels⟩
  refine ⟨fun _ _ => ⟨fun values _ => ⟨fun _ => ⟨fun _ => h, fun _ _ => ⟨fun stamp _ =>
    ⟨fun _ => h, fun _ => ⟨fun _ => h, fun _ _ => ?_⟩⟩, fun _ _ => h⟩⟩, fun _ => h⟩,
    fun _ _ => h⟩, fun _ _ => h⟩
  exact ⟨herased stamp, fun _ _ => herased stamp, fun _ _ => herased stamp⟩

/-- The states of a display before something is raised. -/
inductive Reached : Output → Prop
  | new (now : ℚ) : Reached (.new now)
  | fed {output : Output} (reached : Reached output) (now : ℚ) (data : List UInt8)
    (fault : (iterFeed now data output).fault = none) : Reached (iterFeed now data output).output
  | acknowledged {output : Output} (reached : Reached output) (data : List UInt8) :
    Reached { output with
      screen := last output.screen (acknowledge data output.screen).states }

theorem Screen.sound_new : Screen.new.Sound := by
  refine ⟨⟨by decide, by decide, by decide, fun index stream h => ?_⟩, by decide⟩
  rw [Screen.new, AList.lookup_empty] at h
  cases h

theorem not_limited {emitted : Emitted} (h : emitted.fault = none) : ¬emitted.Limited := by
  rintro ⟨text, hlimit⟩
  cases h.symm.trans hlimit

/-- Between two chunks, no complete instruction waits, and the bounds hold. -/
theorem Reached.settled (h : Reached output) :
    scan 17 output.buffer 0 0 = .waiting ∧ output.screen.Sound := by
  induction h with
  | new now => exact ⟨rfl, Screen.sound_new⟩
  | fed _ now data fault ih =>
    obtain ⟨-, hraised, -⟩ | ⟨decoder, text, -, hdisplays, -⟩ := iterFeed_displays (not_limited fault)
    · exact absurd fault hraised
    · exact ⟨hdisplays.rest_waiting fault, (hdisplays.sound ih.2).1 fault⟩
  | @acknowledged output _ data ih =>
    refine ⟨ih.1, ?_⟩
    obtain hsame | hmem := last_mem output.screen (acknowledge data output.screen).states
    · rw [hsame]
      exact ih.2
    · exact (wp_acknowledge ih.2 data).1 _ hmem

/-- However a stream that is UTF-8 is cut into chunks, and unless a limit is reached, the same
instructions are emitted, the same is raised, and the display is the same afterwards; what waits is
the same if nothing is raised. A stream that is not UTF-8 is refused however it is cut. The
instruction that the scanner finds is accepted by the parser. The deliveries of a chunk are what is
emitted for it. -/
theorem chunks_irrelevant :
    (∀ (output : Output) (chunks chunks' : List (ℚ × List UInt8)), Reached output →
      streamOf chunks = streamOf chunks' → ¬(feeds chunks output).Limited →
      ¬(feeds chunks' output).Limited →
      ((decodeFrom output.decoder (streamOf chunks)).isSome →
        (feeds chunks output).packets = (feeds chunks' output).packets ∧
        (feeds chunks output).fault = (feeds chunks' output).fault ∧
        (feeds chunks output).output.screen = (feeds chunks' output).output.screen ∧
        ((feeds chunks output).fault = none →
          (feeds chunks output).output.buffer = (feeds chunks' output).output.buffer ∧
          (feeds chunks output).output.decoder = (feeds chunks' output).output.decoder)) ∧
      (decodeFrom output.decoder (streamOf chunks) = none →
        (feeds chunks output).fault ≠ none ∧ (feeds chunks' output).fault ≠ none)) ∧
    (∀ (text : Text) (position : ℕ), scan 17 text 0 0 = .complete position →
      ∃ values, parse (text.take position) 65536 = .ok values) ∧
    ∀ (output : Output) (now : ℚ) (data : List UInt8), Reached output →
      ¬(iterFeed now data output).Limited →
      (iterBatches now data output).2 = (iterFeed now data output).fault ∧
      ∀ packets, feed now data output = .ok packets →
        (iterBatches now data output).1.flatten = packets.flatten := by
  refine ⟨fun output chunks chunks' hreached hsame hlimit hlimit' => ⟨fun hdecodes => ?_,
    fun hnone => ?_⟩, fun text position h => ?_, fun output now data hreached hlimit => ?_⟩
  · obtain ⟨⟨decoder, text⟩, hdecode⟩ := Option.isSome_iff_exists.mp hdecodes
    obtain ⟨rest, hdisplays, hend⟩ := feeds_displays hreached.settled.1 hdecode hlimit
    obtain ⟨rest', hdisplays', hend'⟩ :=
      feeds_displays hreached.settled.1 (hsame ▸ hdecode) hlimit'
    obtain ⟨hpackets, hrest, hscreen, hfault⟩ := hdisplays.unique hdisplays'
    refine ⟨hpackets, hfault, hscreen, fun hok => ?_⟩
    obtain ⟨hbuffer, hdecoder⟩ := hend hok
    obtain ⟨hbuffer', hdecoder'⟩ := hend' (hfault.symm.trans hok)
    exact ⟨hbuffer.trans (hrest.trans hbuffer'.symm), hdecoder.trans hdecoder'.symm⟩
  · constructor
    · intro hok
      have hdecodes := feeds_decodes hok
      rw [hnone] at hdecodes
      cases hdecodes
    · intro hok
      have hdecodes := feeds_decodes hok
      rw [← hsame, hnone] at hdecodes
      cases hdecodes
  · obtain ⟨values, hparse, -⟩ := scan_complete h
    exact ⟨values, hparse⟩
  · have hsmall : ∀ packet ∈ (iterFeed now data output).packets, packet.length ≤ 65536 := by
      obtain ⟨-, -, hempty⟩ | ⟨decoder, text, -, hdisplays, -⟩ := iterFeed_displays hlimit
      · rw [hempty]
        exact fun _ h => absurd h List.not_mem_nil
      · exact (hdisplays.sound hreached.settled.2).2
    obtain ⟨hfault, hflatten⟩ := group_flatten (iterFeed now data output).fault [] 0 hsmall
    refine ⟨hfault, fun packets hfeed => ?_⟩
    rw [feed] at hfeed
    cases hnone : (iterFeed now data output).fault with
    | some fault =>
      simp only [hnone] at hfeed
      cases hfeed
    | none =>
      simp only [hnone] at hfeed
      obtain rfl := Except.ok.inj hfeed
      exact hflatten hnone

/-- A character and a length that are cut in two. -/
theorem chunks_irrelevant_cut :
    (feeds [(0, bytesOf "4.name,1." ++ [0xC3]), (0, 0xA9 :: bytesOf ";3"), (0, bytesOf ".nop;")]
      (.new 0)).packets = [bytesOf "3.nop;"] := by
  have h := (chunks_irrelevant.1 (.new 0)
    [(0, bytesOf "4.name,1." ++ [0xC3]), (0, 0xA9 :: bytesOf ";3"), (0, bytesOf ".nop;")]
    [(0, bytesOf "4.name,1." ++ [0xC3, 0xA9] ++ bytesOf ";3.nop;")] (.new 0) (by decide +kernel)
    (by decide +kernel) (by decide +kernel)).1 (by decide +kernel)
  rw [h.1]
  decide +kernel

/-- An instruction in front of a byte that is not UTF-8 is shown only if it came in an earlier
chunk, and what waits after an instruction has been refused depends on the chunks. -/
theorem chunks_matter :
    ((feeds [(0, bytesOf "3.nop;" ++ [0xFF])] (.new 0)).packets = [] ∧
      (feeds [(0, bytesOf "3.nop;"), (0, [0xFF])] (.new 0)).packets = [bytesOf "3.nop;"]) ∧
    ((feeds [(0, bytesOf "3.bad;3.nop;")] (.new 0)).output.buffer = points "3.nop;" ∧
      (feeds [(0, bytesOf "3.bad;"), (0, bytesOf "3.nop;")] (.new 0)).output.buffer = []) ∧
    ¬(feeds [(0, bytesOf "3.nop;" ++ [0xFF])] (.new 0)).Limited ∧
    ¬(feeds [(0, bytesOf "3.nop;"), (0, [0xFF])] (.new 0)).Limited ∧
    ¬(feeds [(0, bytesOf "3.bad;3.nop;")] (.new 0)).Limited ∧
    ¬(feeds [(0, bytesOf "3.bad;"), (0, bytesOf "3.nop;")] (.new 0)).Limited := by
  decide +kernel

end Ficc.Viewer
