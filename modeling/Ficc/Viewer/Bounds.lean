import Ficc.Viewer.Screen
import Mathlib.Tactic.IntervalCases

/-!
# Bounds on display output

The account of a display stays within its limits after every step of every instruction, also of one
that is refused. What the browser receives for an instruction fits into one delivery.

## Main results

* `wp_accept`: an instruction keeps the bounds `Bounded` at every step and the bounds `Sound` when
  it is accepted; it raises something other than a `ValueError` exactly where it is `Orphaned`.
* `Emits`: what the browser receives for an accepted instruction. Only an instruction that ends a
  frame has a stamp, and the stamp is larger than those before it.
-/

namespace Ficc.Viewer

open Utf8 JsonText Durable

/-! ### What the browser receives -/

/-- The elements of an instruction in bytes. -/
def readPacket (packet : List UInt8) : Option (List Text) :=
  (decode packet).bind fun text => (parse text text.length).toOption

/-- The stamp of an instruction that ends a frame. -/
def stampOf (packet : List UInt8) : Option ℕ :=
  (readPacket packet).bind fun values =>
    if values.getD 0 [] = points "sync" then some (natural (values.getD 1 [])) else none

/-- Elements that fit into one delivery to the browser. -/
structure Brief (values : List Text) : Prop where
  ne_nil : values ≠ []
  count : values.length ≤ 10
  total : (values.map List.length).sum ≤ 12000

/-- A code point has at most four bytes. -/
theorem length_sequence_le (c : Utf16.CodePoint) : (sequence c).length ≤ 4 := by
  unfold Utf8.sequence
  split_ifs <;> simp

variable {value op : Text} {values args : List Text} {packet : List UInt8} {screen : Screen}
  {maximum : ℕ} {e : Fault} {stream : ImageStream}

theorem Brief.length_le (h : Brief values) (hvalue : value ∈ values) : value.length ≤ 12000 :=
  (List.single_le_sum (fun _ _ => Nat.zero_le _) _ (List.mem_map_of_mem hvalue)).trans h.total

/-- Besides its characters, an element takes five for its length and two separators. -/
theorem length_instructionText_le (hne : values ≠ [])
    (hvalues : ∀ value ∈ values, value.length ≤ 12000) :
    (instructionText values).length ≤ (values.map List.length).sum + 7 * values.length := by
  have hdecimal : ∀ value ∈ values, (decimal value.length).length ≤ 5 := fun value hvalue =>
    length_decimal_le (by decide) ((hvalues value hvalue).trans_lt (by decide))
  induction values with
  | nil => exact absurd rfl hne
  | cons value values ih =>
    have hfirst := hdecimal value List.mem_cons_self
    cases values with
    | nil =>
      rw [instructionText_singleton]
      simp only [List.length_append, List.length_cons, List.map_cons, List.map_nil, List.sum_cons,
        List.sum_nil, List.length_nil]
      omega
    | cons next values =>
      have hlater := ih (by simp) (fun other hother => hvalues other (List.mem_cons_of_mem _ hother))
        fun other hother => hdecimal other (List.mem_cons_of_mem _ hother)
      rw [instructionText_cons]
      simp only [List.length_append, List.length_cons, List.map_cons, List.sum_cons] at hlater ⊢
      omega

theorem instruction_eq_ok :
    instruction values = .ok packet ↔
      whole (instructionText values) = true ∧ packet = (instructionText values).flatMap sequence := by
  rw [instruction, orRaise_eq_ok, encode]
  by_cases hwhole : whole (instructionText values) = true
  · rw [if_pos hwhole, Option.some.injEq]
    exact ⟨fun h => ⟨hwhole, h.symm⟩, fun h => h.2.symm⟩
  · rw [if_neg hwhole]
    exact ⟨fun h => (by cases h), fun h => absurd h.1 hwhole⟩

/-- The instruction takes at most four bytes for a character. -/
theorem Brief.length_packet (h : Brief values) (hpacket : instruction values = .ok packet) :
    packet.length ≤ 65536 := by
  obtain ⟨-, rfl⟩ := instruction_eq_ok.mp hpacket
  have hbytes (text : Text) : (text.flatMap sequence).length ≤ 4 * text.length := by
    induction text with
    | nil => rfl
    | cons c text ih =>
      have hfirst := length_sequence_le c
      rw [List.flatMap_cons, List.length_append, List.length_cons]
      omega
  have htext := length_instructionText_le h.ne_nil fun value => h.length_le
  have hcount := h.count
  have htotal := h.total
  have hall := hbytes (instructionText values)
  omega

/-- An instruction is read back. -/
theorem Brief.readPacket_eq (h : Brief values) (hpacket : instruction values = .ok packet) :
    readPacket packet = some values := by
  rw [instruction, orRaise_eq_ok] at hpacket
  have hgrammar : Instruction (instructionText values) values :=
    instruction_instructionText h.ne_nil fun value hvalue =>
      (h.length_le hvalue).trans_lt (by decide)
  have hparse : parse (instructionText values) (instructionText values).length = .ok values :=
    parse_eq_ok.mpr ⟨hgrammar, le_refl _, h.count.trans (by decide)⟩
  rw [readPacket, decode_encode hpacket, Option.bind_some, hparse]
  rfl

theorem Brief.stampOf_eq (h : Brief values) (hpacket : instruction values = .ok packet) :
    stampOf packet =
      if values.getD 0 [] = points "sync" then some (natural (values.getD 1 [])) else none := by
  rw [stampOf, h.readPacket_eq hpacket, Option.bind_some]

/-- Instructions that end no frame. -/
def Plain (packets : List (List UInt8)) : Prop :=
  ∀ packet ∈ packets, packet.length ≤ 65536 ∧ stampOf packet = none

/-- What the browser receives for an instruction: an instruction that ends a frame, with a stamp
that is larger than those before it, or instructions that end none. -/
inductive Emits (screen screen' : Screen) (values : List Text) : List (List UInt8) → Prop
  | frame {packet : List UInt8} (op : values.getD 0 [] = points "sync")
    (packet_le : packet.length ≤ 65536) (stamp : stampOf packet = some screen'.lastStamp)
    (later : screen.lastStamp < screen'.lastStamp)
    (native_le : natural (values.getD 1 []) ≤ 2 ^ 53 - 1)
    (syncs : screen'.syncs =
      screen.syncs.insert screen'.lastStamp (natural (values.getD 1 []))) :
    Emits screen screen' values [packet]
  | other {packets : List (List UInt8)} (op : values.getD 0 [] ≠ points "sync")
    (syncs : screen'.syncs = screen.syncs) (lastStamp : screen'.lastStamp = screen.lastStamp)
    (plain : Plain packets) :
    Emits screen screen' values packets

/-- A plain packet is short. -/
theorem Brief.plain (h : Brief values) (hpacket : instruction values = .ok packet)
    (hop : values.getD 0 [] ≠ points "sync") :
    packet.length ≤ 65536 ∧ stampOf packet = none := by
  rw [h.stampOf_eq hpacket, if_neg hop]
  exact ⟨h.length_packet hpacket, rfl⟩

/-! ### Bounds -/

/-- The texts of numbers and the like. -/
def Short (args : List Text) : Prop := ∀ arg ∈ args, arg.length ≤ 16

/-- An instruction with a short name and few short arguments. -/
theorem Short.brief (h : Short args) (hop : op.length ≤ 10) (hcount : args.length ≤ 9) :
    Brief (op :: args) := by
  have hsum : (args.map List.length).sum ≤ args.length * 16 := by
    have hle := List.sum_le_card_nsmul (args.map List.length) 16 fun n hn => by
      obtain ⟨arg, harg, rfl⟩ := List.mem_map.mp hn
      exact h arg harg
    simpa using hle
  refine ⟨by simp, by rw [List.length_cons]; omega, ?_⟩
  rw [List.map_cons, List.sum_cons]
  omega

theorem short_of_getD {n : ℕ} (hlength : args.length = n)
    (h : ∀ i < n, (args.getD i []).length ≤ 16) : Short args := by
  intro arg harg
  obtain ⟨i, hi, rfl⟩ := List.mem_iff_getElem.mp harg
  have hget := h i (hlength ▸ hi)
  rwa [List.getD_eq_getElem?_getD, List.getElem?_eq_getElem hi, Option.getD_some] at hget

/-- The bounds on the account after every step. -/
structure Screen.Bounded (screen : Screen) : Prop where
  layers : screen.layers.entries.length ≤ 8
  streams : screen.streams.entries.length ≤ 4
  syncs : screen.syncs.entries.length ≤ 3
  args : ∀ index stream, screen.streams.lookup index = some stream →
    stream.args.length = 6 ∧ Short stream.args

/-- The bounds on the account between two instructions. -/
structure Screen.Sound (screen : Screen) : Prop extends screen.Bounded where
  pixels : screen.pixels ≤ 20 * 1024 * 1024

/-- Two accounts have the same frames. -/
structure Screen.SameFrames (screen screen' : Screen) : Prop where
  syncs : screen'.syncs = screen.syncs
  lastStamp : screen'.lastStamp = screen.lastStamp

/-- The layers of an account are layers of another, which has the same frames. -/
structure Screen.Extends (screen screen' : Screen) : Prop extends screen.SameFrames screen' where
  layers : ∀ index, (screen.layers.lookup index).isSome → (screen'.layers.lookup index).isSome

theorem Screen.Extends.refl (screen : Screen) : screen.Extends screen :=
  ⟨⟨rfl, rfl⟩, fun _ h => h⟩

theorem Screen.Extends.trans {first second third : Screen} (h : first.Extends second)
    (h' : second.Extends third) : first.Extends third :=
  ⟨⟨h'.syncs.trans h.syncs, h'.lastStamp.trans h.lastStamp⟩,
    fun index hindex => h'.layers index (h.layers index hindex)⟩

theorem isSome_lookup_insert (layers : Table ℤ (ℕ × ℕ)) {index other : ℤ} (size : ℕ × ℕ)
    (h : (layers.lookup other).isSome) : ((layers.insert index size).lookup other).isSome := by
  rw [Table.lookup_insert_eq]
  split_ifs
  · rfl
  · exact h

/-- A new size for a layer. -/
theorem Screen.Extends.insert (screen : Screen) (index : ℤ) (size : ℕ × ℕ) :
    screen.Extends { screen with layers := screen.layers.insert index size } :=
  ⟨⟨rfl, rfl⟩, fun _ h => isSome_lookup_insert screen.layers size h⟩

/-- A new size for a layer that exists. -/
theorem Screen.Bounded.insert (h : screen.Bounded) {index : ℤ}
    (hindex : (screen.layers.lookup index).isSome) (size : ℕ × ℕ) :
    Screen.Bounded { screen with layers := screen.layers.insert index size } :=
  ⟨(Table.length_insert_of_isSome hindex size).trans_le h.layers, h.streams, h.syncs, h.args⟩

/-- A layer without pixels adds nothing to the canvases. -/
theorem pixels_insert_empty (screen : Screen) (index : ℤ) :
    Screen.pixels { screen with layers := screen.layers.insert index (0, 0) } ≤ screen.pixels := by
  have htotal := Table.total_insert screen.layers index (0, 0)
    fun size => rounded size.1 * rounded size.2
  have hempty : rounded 0 * rounded 0 = 0 := rfl
  simp only [hempty, Nat.add_zero] at htotal
  simp only [Screen.pixels]
  omega

/-- A number is short. -/
theorem number_short {n : ℕ} (h : number value maximum = .ok n) :
    value.length ≤ 16 := (number_eq_ok.mp h).1.2.1

theorem layerIndex_short {index : ℤ} (h : layerIndex value = .ok index) :
    value.length ≤ 16 := by
  simp only [layerIndex, bind_eq_ok, raiseIf_eq_ok, exists_const, not_or, not_lt] at h
  obtain ⟨⟨-, hlength, -⟩, -⟩ := h
  split_ifs at hlength
  · rw [List.length_drop] at hlength
    omega
  · omega

theorem number_isValueError (h : number value maximum = .error e) :
    e.IsValueError := by
  simp only [number, bind_eq_error, raiseIf_eq_error, reduceCtorEq, and_false, exists_false,
    or_false] at h
  rw [← h.2]
  exact trivial

theorem instruction_isValueError (h : instruction values = .error e) :
    e.IsValueError := by
  rw [instruction, orRaise_eq_error] at h
  rw [← h.2]
  exact trivial

theorem layerIndex_isValueError (h : layerIndex value = .error e) :
    e.IsValueError := by
  simp only [layerIndex, bind_eq_error, raiseIf_eq_error, reduceCtorEq, and_false, exists_false,
    or_false] at h
  rw [← h.2]
  exact trivial

/-- Decoding fails with a value error only. -/
theorem b64decode_isValueError {text : Text} (h : b64decode text = .error e) : e.IsValueError := by
  simp only [b64decode, bind_eq_error, raiseIf_eq_error, orRaise_eq_error] at h
  obtain ⟨-, rfl⟩ | ⟨-, -, -, rfl⟩ := h <;> exact trivial

theorem pngChunks_isValueError {rounds : ℕ} {rest : List UInt8} {ended : Bool}
    (h : pngChunks rounds rest ended = .error e) : e.IsValueError := by
  induction rounds generalizing rest ended with
  | zero =>
    rw [pngChunks, raiseIf_eq_error] at h
    rw [← h.2]
    exact trivial
  | succ rounds ih =>
    rw [pngChunks] at h
    split_ifs at h
    · rw [raiseIf_eq_error] at h
      rw [← h.2]
      exact trivial
    · simp only [bind_eq_error, raiseIf_eq_error] at h
      obtain ⟨-, rfl⟩ | ⟨-, -, ⟨-, rfl⟩ | ⟨-, -, h⟩⟩ := h
      · exact trivial
      · exact trivial
      · exact ih h

theorem imagePackets_isValueError {index : ℕ} (h : imagePackets index stream = .error e) :
    e.IsValueError := by
  simp only [imagePackets, bind_eq_error, reduceCtorEq, and_false, exists_false, or_false] at h
  obtain h | ⟨-, -, h | ⟨-, -, h⟩⟩ := h
  · exact instruction_isValueError h
  · obtain ⟨part, -, hpart⟩ := exists_of_mapM_eq_error h
    exact instruction_isValueError hpart
  · exact instruction_isValueError h

/-- The index of a layer is one that exists afterwards. -/
theorem wp_layer (h : screen.Sound) (value : Text) :
    wp (layer value)
      (fun index screen' => screen'.Sound ∧ screen.Extends screen' ∧
        (screen'.layers.lookup index).isSome ∧ value.length ≤ 16)
      (fun e screen' => screen'.Bounded ∧ e.IsValueError) Screen.Bounded screen := by
  simp only [layer, wp_bind, wp_check, wp_disk, wp_ite, wp_refuseIf, wp_perform, wp_pure]
  refine ⟨fun index hindex => ⟨fun hnone => ⟨fun _ => ⟨h.toBounded, trivial⟩,
    fun hroom => ?_⟩, fun hsome => ?_⟩, fun e he => ⟨h.toBounded, layerIndex_isValueError he⟩⟩
  · have hlength := Table.length_insert_of_none hnone (0, 0)
    have hbounded : Screen.Bounded
        { screen with layers := screen.layers.insert index (0, 0) } :=
      ⟨by simp only; omega, h.streams, h.syncs, h.args⟩
    refine ⟨hbounded, ⟨hbounded, (pixels_insert_empty screen index).trans h.pixels⟩,
      .insert screen index (0, 0), ?_, layerIndex_short hindex⟩
    simp only [AList.lookup_insert, Option.isSome_some]
  · exact ⟨h, .refl screen, Option.isSome_iff_ne_none.mpr hsome, layerIndex_short hindex⟩

/-- Drawing on a layer that exists raises only `ValueError`s. -/
theorem wp_area (h : screen.Bounded) {index : ℤ} (hindex : (screen.layers.lookup index).isSome)
    (x y width height : ℕ) :
    wp (area index x y width height)
      (fun _ screen' => screen'.Sound ∧ screen.Extends screen')
      (fun e screen' => screen'.Bounded ∧ e.IsValueError) Screen.Bounded screen := by
  simp only [area, wp_bind, wp_refuseIf, wp_disk, wp_demand, wp_perform]
  refine ⟨fun _ => ⟨h, trivial⟩, fun _ => ⟨fun hnone => ?_, fun old _ => ?_⟩⟩
  · rw [hnone] at hindex
    cases hindex
  · have hbounded := h.insert hindex (max old.1 (x + width), max old.2 (y + height))
    refine ⟨hbounded, fun _ => ⟨hbounded, trivial⟩, fun hpixels =>
      ⟨⟨hbounded, not_lt.mp hpixels⟩, .insert screen index _⟩⟩

/-- A number is read, and what comes after it. -/
theorem wp_number {α : Type} (h : screen.Bounded) {next : ℕ → Durable Screen Fault α}
    {ok : α → Screen → Prop}
    (hnext : ∀ n, value.length ≤ 16 → wp (next n) ok (fun e screen' => screen'.Bounded ∧ e.IsValueError) Screen.Bounded screen)
    :
    wp (check (number value maximum) >>= next) ok (fun e screen' => screen'.Bounded ∧ e.IsValueError)
      Screen.Bounded screen :=
  wp_bind.mpr (wp_check.mpr
    ⟨fun n hn => hnext n (number_short hn), fun _ he => ⟨h, number_isValueError he⟩⟩)

/-- What is drawn on a layer that exists, after earlier steps. -/
theorem wp_area_after {first : Screen} (hextends : first.Extends screen) (h : screen.Bounded)
    {index : ℤ} (hindex : (screen.layers.lookup index).isSome) (x y width height : ℕ) {known : Prop}
    (hknown : known) :
    wp (area index x y width height)
      (fun _ screen' => screen'.Sound ∧ first.SameFrames screen' ∧ known)
      (fun e screen' => screen'.Bounded ∧ e.IsValueError) Screen.Bounded screen :=
  wp_mono (wp_area h hindex x y width height)
    (fun _ _ hend => ⟨hend.1, (hextends.trans hend.2).toSameFrames, hknown⟩) (fun _ _ hend => hend)
    fun _ hend => hend

/-- An instruction has a number of arguments that it may have. -/
def Counted (op : Text) (args : List Text) : Prop :=
  ∃ entry ∈ counts, op = points entry.1 ∧ args.length ∈ entry.2

instance (op : Text) (args : List Text) : Decidable (Counted op args) :=
  inferInstanceAs (Decidable (∃ entry ∈ counts, op = points entry.1 ∧ args.length ∈ entry.2))

theorem Counted.mem {name : String} (h : Counted (points name) args) :
    ∃ entry ∈ counts, name = entry.1 ∧ args.length ∈ entry.2 := by
  obtain ⟨entry, hentry, hname, hlength⟩ := h
  exact ⟨entry, hentry, points_inj.mp hname, hlength⟩

/-- Names have at most ten characters, and instructions at most nine arguments. -/
theorem Counted.small (h : Counted op args) :
    op.length ≤ 10 ∧ args.length ≤ 9 := by
  have hall : ∀ entry ∈ counts, (points entry.1).length ≤ 10 ∧ ∀ n ∈ entry.2, n ≤ 9 := by decide
  obtain ⟨entry, hentry, rfl, hlength⟩ := h
  exact ⟨(hall entry hentry).1, (hall entry hentry).2 _ hlength⟩

/-- What is passed on as it is raises only `ValueError`s, and its arguments are short. -/
theorem wp_draw (h : screen.Sound) (hcounted : Counted op args)
    (hop : op ∉ ["ready", "name", "error", "sync", "img", "blob", "end"].map points) :
    wp (draw op args) (fun _ screen' => screen'.Sound ∧ screen.SameFrames screen' ∧ Short args)
      (fun e screen' => screen'.Bounded ∧ e.IsValueError) Screen.Bounded screen := by
  have hb := h.toBounded
  have hsame : screen.SameFrames screen := ⟨rfl, rfl⟩
  unfold draw
  split_ifs with hmouse hlength hsize hrect hcfill hcopy hcursor hdispose
  · refine wp_number hb fun _ hx => wp_number hb fun _ hy => wp_number hb fun _ hbuttons =>
      wp_number hb fun _ hstamp => wp_pure.mpr ⟨h, hsame, short_of_getD hlength fun i hi => ?_⟩
    interval_cases i <;> assumption
  · have hcount : args.length = 2 := by
      subst hmouse
      simpa [counts, hlength] using hcounted.mem
    refine wp_number hb fun _ hx => wp_number hb fun _ hy =>
      wp_pure.mpr ⟨h, hsame, short_of_getD hcount fun i hi => ?_⟩
    interval_cases i <;> assumption
  · have hcount : args.length = 3 := by
      subst hsize
      simpa [counts] using hcounted.mem
    -- The layer loses its size before the new one is read.
    refine wp_seq (wp_layer h _) fun target first ⟨hfirst, hextends, hsome, hlayer⟩ => ?_
    have hempty := hfirst.toBounded.insert hsome (0, 0)
    have hsome' : ((first.layers.insert target (0, 0)).lookup target).isSome :=
      isSome_lookup_insert first.layers (0, 0) hsome
    refine wp_bind.mpr (wp_perform.mpr ⟨hempty, wp_number hempty fun _ hwidth =>
      wp_number hempty fun _ hheight => wp_area_after
        (hextends.trans (.insert first target (0, 0))) hempty hsome' _ _ _ _
        (short_of_getD hcount fun i hi => ?_)⟩)
    interval_cases i <;> assumption
  · have hcount : args.length = 5 := by
      subst hrect
      simpa [counts] using hcounted.mem
    refine wp_seq (wp_layer h _) fun target first ⟨hfirst, hextends, hsome, hlayer⟩ => ?_
    have hb' := hfirst.toBounded
    refine wp_number hb' fun _ hx => wp_number hb' fun _ hy => wp_number hb' fun _ hwidth =>
      wp_number hb' fun _ hheight => wp_area_after hextends hb' hsome _ _ _ _
        (short_of_getD hcount fun i hi => ?_)
    interval_cases i <;> assumption
  · have hcount : args.length = 6 := by
      subst hcfill
      simpa [counts] using hcounted.mem
    refine wp_number hb fun _ hmask =>
      wp_seq (wp_layer h _) fun target first ⟨hfirst, hextends, _, hlayer⟩ => ?_
    refine wp_check.mpr ⟨fun _ hloop => ⟨hfirst, hextends.toSameFrames, ?_⟩, fun e he =>
      ⟨hfirst.toBounded, ?_⟩⟩
    · obtain ⟨mask, target', colour, rfl⟩ : ∃ mask target' colour,
          args = mask :: target' :: colour := by
        match args, hcount with
        | mask :: target' :: colour, _ => exact ⟨mask, target', colour, rfl⟩
      have hcolour : ∀ value ∈ colour, value.length ≤ 16 := by
        intro value hvalue
        have hnumber := forM_eq_ok.mp hloop value hvalue
        rw [bind_eq_ok] at hnumber
        obtain ⟨n, hn, -⟩ := hnumber
        exact number_short hn
      intro arg harg
      obtain rfl | harg := List.mem_cons.mp harg
      · exact hmask
      · obtain rfl | harg := List.mem_cons.mp harg
        · exact hlayer
        · exact hcolour arg harg
    · obtain ⟨value, -, hvalue⟩ := exists_of_forM_eq_error he
      rw [bind_eq_error] at hvalue
      obtain hvalue | ⟨-, -, hvalue⟩ := hvalue
      · exact number_isValueError hvalue
      · cases hvalue
  · have hcount : args.length = 9 := by
      subst hcopy
      simpa [counts] using hcounted.mem
    -- Both layers exist before something is drawn on the first.
    refine wp_seq (wp_layer h _) fun source first ⟨hfirst, hextends, hsource, hlayer⟩ => ?_
    refine wp_seq (wp_layer hfirst _) fun target second ⟨hsecond, hextends', htarget, hlayer'⟩ => ?_
    have hb' := hsecond.toBounded
    refine wp_number hb' fun x hx => wp_number hb' fun y hy => wp_number hb' fun width hwidth =>
      wp_number hb' fun height hheight => wp_number hb' fun _ hmask => ?_
    refine wp_seq (wp_area hb' (hextends'.layers _ hsource) x y width height)
      fun _ third ⟨hthird, hextends''⟩ => ?_
    refine wp_number hthird.toBounded fun _ hleft => wp_number hthird.toBounded fun _ htop =>
      wp_area_after ((hextends.trans hextends').trans hextends'') hthird.toBounded
        (hextends''.layers _ htarget) _ _ _ _ (short_of_getD hcount fun i hi => ?_)
    interval_cases i <;> assumption
  · have hcount : args.length = 7 := by
      subst hcursor
      simpa [counts] using hcounted.mem
    refine wp_number hb fun _ hleft => wp_number hb fun _ htop =>
      wp_seq (wp_layer h _) fun target first ⟨hfirst, hextends, hsome, hlayer⟩ => ?_
    have hb' := hfirst.toBounded
    refine wp_number hb' fun _ hx => wp_number hb' fun _ hy => wp_number hb' fun _ hwidth =>
      wp_number hb' fun _ hheight => wp_area_after hextends hb' hsome _ _ _ _
        (short_of_getD hcount fun i hi => ?_)
    interval_cases i <;> assumption
  · have hcount : args.length = 1 := by
      obtain hdispose | hdispose := hdispose
      · subst hdispose
        simpa [counts] using hcounted.mem
      · subst hdispose
        simpa [counts] using hcounted.mem
    refine wp_seq (wp_layer h _) fun target first ⟨hfirst, hextends, _, hlayer⟩ => ?_
    have hshort : Short args := by
      refine short_of_getD hcount fun i hi => ?_
      interval_cases i
      exact hlayer
    rw [wp_ite, wp_perform]
    have herased : Screen.Bounded { first with layers := first.layers.erase target } :=
      ⟨(Table.length_erase_le first.layers target).trans hfirst.layers, hfirst.streams,
        hfirst.syncs, hfirst.args⟩
    refine ⟨fun _ => ⟨herased, ⟨herased, ?_⟩, ⟨hextends.syncs, hextends.lastStamp⟩, hshort⟩,
      fun _ => wp_pure.mpr ⟨hfirst, hextends.toSameFrames, hshort⟩⟩
    exact (Table.total_erase_le first.layers target _).trans hfirst.pixels
  · -- What is left has no arguments.
    have hcount : args.length = 0 := by
      obtain ⟨entry, hentry, rfl, hargs⟩ := hcounted
      simp only [List.mem_map, not_exists, not_and, points_inj] at hop
      simp only [points_inj, not_or] at hmouse hsize hrect hcfill hcopy hcursor hdispose
      simp only [counts, List.mem_cons, List.not_mem_nil, or_false] at hentry
      obtain rfl | rfl | rfl | rfl | rfl | rfl | rfl | rfl | rfl | rfl | rfl | rfl | rfl | rfl | rfl |
        rfl | rfl := hentry <;> simp_all
    exact wp_pure.mpr ⟨h, hsame, short_of_getD hcount fun i hi => absurd hi (Nat.not_lt_zero i)⟩

/-- An image that begins has a layer. -/
theorem wp_image (h : screen.Sound) (hcount : args.length = 6) :
    wp (image args) (fun _ screen' => screen'.Sound ∧ screen.SameFrames screen')
      (fun e screen' => screen'.Bounded ∧ e.IsValueError) Screen.Bounded screen := by
  have hb := h.toBounded
  refine wp_number hb fun index hindex => wp_number hb fun _ hmask =>
    wp_seq (wp_layer h _) fun target first ⟨hfirst, hextends, _, hlayer⟩ => ?_
  have hb' := hfirst.toBounded
  refine wp_number hb' fun x hx => wp_number hb' fun y hy => ?_
  simp only [wp_bind, wp_refuseIf, wp_disk, wp_perform]
  refine ⟨fun _ => ⟨hb', trivial⟩, fun hmime => ⟨fun _ => ⟨hb', trivial⟩,
    fun hnew => ⟨fun _ => ⟨hb', trivial⟩, fun hroom => ?_⟩⟩⟩
  have hshort : Short args := by
    have hformat : (args.getD 3 []).length ≤ 16 := by
      rw [not_not.mp hmime]
      decide
    refine short_of_getD hcount fun i hi => ?_
    interval_cases i <;> assumption
  have hlength := Table.length_insert_of_none (not_not.mp hnew)
    (⟨args, target, x, y, []⟩ : ImageStream)
  have hopened : Screen.Bounded { first with
      streams := first.streams.insert index ⟨args, target, x, y, []⟩ } := by
    refine ⟨hb'.layers, by simp only; omega, hb'.syncs, fun other stream hstream => ?_⟩
    rw [Table.lookup_insert_eq] at hstream
    split_ifs at hstream
    · obtain rfl := Option.some.inj hstream
      exact ⟨hcount, hshort⟩
    · exact hb'.args other stream hstream
  exact ⟨hopened, ⟨hopened, hfirst.pixels⟩, hextends.syncs, hextends.lastStamp⟩

/-- A part of an image that is open. -/
theorem wp_blob (h : screen.Sound) {index : ℕ} (hindex : screen.streams.lookup index ≠ none)
    (text : Text) :
    wp (blob index text) (fun _ screen' => screen'.Sound ∧ screen.SameFrames screen')
      (fun e screen' => screen'.Bounded ∧ e.IsValueError) Screen.Bounded screen := by
  have hb := h.toBounded
  simp only [blob, wp_bind, wp_check, wp_disk, wp_demand, wp_refuseIf, wp_perform]
  refine ⟨fun data _ => ⟨fun hnone => absurd hnone hindex, fun stream hstream =>
    ⟨fun _ => ⟨hb, trivial⟩, fun _ => ?_⟩⟩, fun e he => ⟨hb, b64decode_isValueError he⟩⟩
  have hlength := Table.length_insert_of_isSome (Option.isSome_iff_ne_none.mpr hindex)
    { stream with data := stream.data ++ data }
  have hlonger : Screen.Bounded { screen with
      streams := screen.streams.insert index { stream with data := stream.data ++ data } } := by
    refine ⟨hb.layers, hlength.trans_le hb.streams, hb.syncs, fun other stream' hstream' => ?_⟩
    rw [Table.lookup_insert_eq] at hstream'
    split_ifs at hstream'
    · obtain rfl := Option.some.inj hstream'
      exact hb.args index stream hstream
    · exact hb.args other stream' hstream'
  exact ⟨hlonger, ⟨hlonger, h.pixels⟩, rfl, rfl⟩

/-- The end of a frame. -/
theorem wp_sync (h : screen.Sound) (hargs : args.length = 1 ∨ args.length = 2) :
    wp (sync args) (fun packets screen' => screen'.Sound ∧
        ∃ packet, packets = [packet] ∧ packet.length ≤ 65536 ∧
          stampOf packet = some screen'.lastStamp ∧ screen.lastStamp < screen'.lastStamp ∧
          natural (args.getD 0 []) ≤ 2 ^ 53 - 1 ∧
          screen'.syncs = screen.syncs.insert screen'.lastStamp (natural (args.getD 0 [])))
      (fun e screen' => screen'.Bounded ∧ e.IsValueError) Screen.Bounded screen := by
  have hb := h.toBounded
  have hlast (last : ℕ) : Screen.Bounded { screen with lastStamp := last } :=
    ⟨hb.layers, hb.streams, hb.syncs, hb.args⟩
  have hcount : ∀ result, (if args.length = 2 then do
      let _ ← number (args.getD 1 []) 65535
      .ok () else .ok () : Except Fault Unit) = result →
      match result with
      | .ok _ => Short (args.drop 1)
      | .error e => e.IsValueError := by
    rintro result rfl
    obtain hone | htwo := hargs
    · obtain ⟨stamp, rfl⟩ := List.length_eq_one_iff.mp hone
      simp [Short]
    · obtain ⟨stamp, count, rfl⟩ := List.length_eq_two.mp htwo
      cases hnumber : number count 65535 with
      | ok n => simpa [hnumber, Short] using number_short hnumber
      | error e => simpa [hnumber, bind, Except.bind] using number_isValueError hnumber
  refine wp_bind.mpr (wp_check.mpr ⟨fun stamp hstamp => ?_, fun e he => ⟨hb, number_isValueError he⟩⟩)
  obtain ⟨hnumeric, rfl⟩ := number_eq_ok.mp hstamp
  have hnative := hnumeric.2.2.2
  generalize natural (args.getD 0 []) = stamp at *
  simp only [wp_bind, wp_disk, wp_refuseIf, wp_perform, wp_check, wp_pure]
  refine ⟨fun _ hok => ⟨fun _ => ⟨hb, trivial⟩, fun _ => ⟨fun _ =>
    ⟨hb, trivial⟩, fun hroom => ⟨hlast _, fun _ => ⟨hlast _, trivial⟩,
    fun hlimit => ?_⟩⟩⟩, fun e he => ⟨hb, hcount _ he⟩⟩
  have hshort : Short (args.drop 1) := hcount _ hok
  have hlength : (screen.syncs.insert (max stamp (screen.lastStamp + 1)) stamp).entries.length
      ≤ 3 := by
    cases hlookup : screen.syncs.lookup (max stamp (screen.lastStamp + 1)) with
    | none =>
      rw [Table.length_insert_of_none hlookup]
      omega
    | some old =>
      have hsome : (screen.syncs.lookup (max stamp (screen.lastStamp + 1))).isSome := by
        rw [hlookup]
        rfl
      exact (Table.length_insert_of_isSome hsome stamp).trans_le hb.syncs
  have hframe (pixels : ℕ) : Screen.Sound { screen with
      lastStamp := max stamp (screen.lastStamp + 1),
      syncs := screen.syncs.insert (max stamp (screen.lastStamp + 1)) stamp,
      framePixels := pixels } := ⟨⟨hb.layers, hb.streams, hlength, hb.args⟩, h.pixels⟩
  -- The stamp has sixteen digits at most.
  have hbrief : Brief (points "sync" :: decimal (max stamp (screen.lastStamp + 1)) ::
      args.drop 1) := by
    have hdigits : (decimal (max stamp (screen.lastStamp + 1))).length ≤ 16 :=
      length_decimal_le (by decide) (by omega)
    refine Short.brief (fun arg harg => ?_) (by decide) ?_
    · obtain rfl | harg := List.mem_cons.mp harg
      · exact hdigits
      · exact hshort arg harg
    · rw [List.length_cons, List.length_drop]
      omega
  refine ⟨(hframe screen.framePixels).toBounded, (hframe 0).toBounded, fun packet hpacket =>
    ⟨hframe 0, packet, rfl, hbrief.length_packet hpacket, ?_, by omega, hnative, trivial⟩,
    fun e he => ⟨(hframe 0).toBounded, instruction_isValueError he⟩⟩
  rw [hbrief.stampOf_eq hpacket, if_pos (by rfl)]
  exact congrArg some (natural_decimal _)

/-! ### Images without a layer -/

/-- An image passes the checks before it is drawn. -/
structure ImageStream.Drawable (stream : ImageStream) : Prop where
  length : 45 ≤ stream.data.length
  header : stream.data.take 16 = pngHeader
  width : stream.width ≠ 0
  height : stream.height ≠ 0
  right : stream.x + stream.width ≤ 4096
  bottom : stream.y + stream.height ≤ 2160

/-- An instruction completes an image whose layer has been disposed of. -/
def Orphaned (screen : Screen) (values : List Text) : Prop :=
  ∃ text stream, values = [points "end", text] ∧ Numeric text 65535 ∧
    screen.streams.lookup (natural text) = some stream ∧ stream.Drawable ∧
    screen.layers.lookup stream.layer = none

/-- The instructions that show an image end no frame. -/
theorem plain_imagePackets {index : ℕ} (hindex : index ≤ 65535) (hcount : stream.args.length = 6)
    (hshort : Short stream.args) {packets : List (List UInt8)}
    (h : imagePackets index stream = .ok packets) : Plain packets := by
  simp only [imagePackets, bind_eq_ok, Except.ok.injEq] at h
  obtain ⟨first, hfirst, parts, hparts, final, hfinal, rfl⟩ := h
  have hdigits : (decimal index).length ≤ 5 := length_decimal_le (by decide) (by omega)
  have hpart : Plain parts := by
    intro packet hpacket
    obtain ⟨part, -, hblob⟩ := of_mem_mapM hparts packet hpacket
    refine Brief.plain ⟨by simp, by simp, ?_⟩ hblob (by simp [points_inj])
    -- 8192 bytes become 10924 characters.
    have hdata : ((stream.data.drop (part * 8192)).take 8192).length ≤ 8192 :=
      List.length_take_le _ _
    have htext := Base64.length_encode ((stream.data.drop (part * 8192)).take 8192)
    have hop : (points "blob").length = 4 := rfl
    simp only [List.map_cons, List.map_nil, List.sum_cons, List.sum_nil, b64encode,
      List.length_map, htext, hop]
    omega
  intro packet hpacket
  obtain rfl | hpacket := List.mem_cons.mp hpacket
  · exact (hshort.brief (by decide) (by omega)).plain hfirst (by simp [points_inj])
  · obtain hpacket | hpacket := List.mem_append.mp hpacket
    · exact hpart packet hpacket
    · obtain rfl := List.mem_singleton.mp hpacket
      have hend : Short [decimal index] := fun arg harg => by
        obtain rfl := List.mem_singleton.mp harg
        omega
      exact (hend.brief (by decide) (by simp)).plain hfinal (by simp [points_inj])

/-- The end of an image that is open. -/
theorem wp_completeImage (h : screen.Sound) {index : ℕ} (hindex : index ≤ 65535)
    (hstream : screen.streams.lookup index = some stream) :
    wp (completeImage index)
      (fun packets screen' => screen'.Sound ∧ screen.SameFrames screen' ∧ Plain packets ∧
        ¬(stream.Drawable ∧ screen.layers.lookup stream.layer = none))
      (fun e screen' => screen'.Bounded ∧
        (¬e.IsValueError ↔ stream.Drawable ∧ screen.layers.lookup stream.layer = none))
      Screen.Bounded screen := by
  have hb := h.toBounded
  have herased : Screen.Sound { screen with streams := screen.streams.erase index } := by
    refine ⟨⟨hb.layers, (Table.length_erase_le screen.streams index).trans hb.streams, hb.syncs,
      fun other stream' hstream' => hb.args other stream' ?_⟩, h.pixels⟩
    rw [Table.lookup_erase_eq] at hstream'
    split_ifs at hstream'
    exact hstream'
  have hrefused {text : String} {screen' : Screen} (hb' : screen'.Bounded)
      (hcase : ¬(stream.Drawable ∧ screen.layers.lookup stream.layer = none)) :
      screen'.Bounded ∧ (¬(.value text : Fault).IsValueError ↔
        stream.Drawable ∧ screen.layers.lookup stream.layer = none) :=
    ⟨hb', fun hnot => absurd trivial hnot, fun hboth => absurd hboth hcase⟩
  simp only [completeImage, wp_bind, wp_disk, wp_demand, wp_perform, wp_refuseIf]
  refine ⟨fun hnone => absurd (hnone.symm.trans hstream) (by simp), fun found hfound => ?_⟩
  obtain rfl : stream = found := Option.some.inj (hstream.symm.trans hfound)
  refine ⟨herased.toBounded, fun hheader => hrefused herased.toBounded fun hboth => ?_,
    fun hheader => ⟨fun hsize => hrefused herased.toBounded fun hboth => ?_, fun hsize => ?_⟩⟩
  · obtain hshort | hother := hheader
    · exact absurd hboth.1.length (not_le.mpr hshort)
    · exact hother hboth.1.header
  · obtain hzero | hzero := hsize
    · exact hboth.1.width hzero
    · exact hboth.1.height hzero
  · by_cases hlayer : screen.layers.lookup stream.layer = none
    · simp only [area, wp_bind, wp_refuseIf, wp_disk, wp_demand]
      refine ⟨fun hlarge => hrefused herased.toBounded fun hboth => ?_, fun hsmall =>
        ⟨fun _ => ⟨herased.toBounded, fun _ => ⟨?_, hlayer⟩, fun _ hvalue => hvalue⟩, fun old hold => ?_⟩⟩
      · obtain hlarge | hlarge := hlarge
        · exact absurd hboth.1.right (not_le.mpr hlarge)
        · exact absurd hboth.1.bottom (not_le.mpr hlarge)
      · simp only [not_or, not_lt, not_not] at hheader hsize hsmall
        exact ⟨hheader.1, hheader.2, hsize.1, hsize.2, hsmall.1, hsmall.2⟩
      · rw [hlayer] at hold
        cases hold
    · -- The layer is there, so that nothing else can raise anything else.
      have hcase : ¬(stream.Drawable ∧ screen.layers.lookup stream.layer = none) :=
        fun hboth => hlayer hboth.2
      refine wp_mono (wp_area herased.toBounded (Option.isSome_iff_ne_none.mpr hlayer) stream.x
        stream.y stream.width stream.height) ?_ (fun e screen' hend => ⟨hend.1, fun hnot =>
          absurd hend.2 hnot, fun hboth => absurd hboth hcase⟩) fun _ hend => hend
      rintro - drawn ⟨hdrawn, hextends⟩
      have hpixels (pixels : ℕ) : Screen.Sound { drawn with framePixels := pixels } :=
        ⟨⟨hdrawn.layers, hdrawn.streams, hdrawn.syncs, hdrawn.args⟩, hdrawn.pixels⟩
      simp only [wp_bind, wp_perform, wp_disk, wp_refuseIf, wp_check]
      refine ⟨(hpixels _).toBounded, fun _ => hrefused (hpixels _).toBounded hcase, fun _ => ?_⟩
      refine ⟨fun _ _ => ⟨fun packets hpackets => ⟨hpixels _, ⟨hextends.syncs, hextends.lastStamp⟩,
        plain_imagePackets hindex (hb.args index stream hstream).1 (hb.args index stream hstream).2
          hpackets, hcase⟩, fun e he => ⟨(hpixels _).toBounded, ?_⟩⟩, fun e he => ⟨(hpixels _).toBounded, ?_⟩⟩
      · exact ⟨fun hnot => absurd (imagePackets_isValueError he) hnot, fun hboth => absurd hboth hcase⟩
      · exact ⟨fun hnot => absurd (pngChunks_isValueError he) hnot, fun hboth => absurd hboth hcase⟩

/-- An instruction keeps the bounds, also where it is refused, and raises something other than a
`ValueError` exactly where it completes an image without a layer. -/
theorem wp_accept (h : screen.Sound) (values : List Text) :
    wp (accept values)
      (fun packets screen' => screen'.Sound ∧ Emits screen screen' values packets ∧
        ¬Orphaned screen values)
      (fun e screen' => screen'.Bounded ∧ (¬e.IsValueError ↔ Orphaned screen values))
      Screen.Bounded screen := by
  have hb := h.toBounded
  -- Everything but the end of an image raises only `ValueError`s.
  have hplain {p : Durable Screen Fault (List (List UInt8))}
      (hop : values.getD 0 [] ≠ points "end")
      (hp : wp p (fun packets screen' => screen'.Sound ∧ Emits screen screen' values packets)
        (fun e screen' => screen'.Bounded ∧ e.IsValueError) Screen.Bounded screen) :
      wp p (fun packets screen' => screen'.Sound ∧ Emits screen screen' values packets ∧
          ¬Orphaned screen values)
        (fun e screen' => screen'.Bounded ∧ (¬e.IsValueError ↔ Orphaned screen values))
        Screen.Bounded screen := by
    have hnot : ¬Orphaned screen values := by
      rintro ⟨text, stream, rfl, -⟩
      exact hop rfl
    exact wp_mono hp (fun _ _ hend => ⟨hend.1, hend.2, hnot⟩) (fun _ _ hend =>
      ⟨hend.1, fun hnot => absurd hend.2 hnot, fun horphan => absurd horphan hnot⟩) fun _ hend => hend
  rw [accept, wp_bind, wp_refuseIf]
  refine ⟨fun hunknown => ⟨hb, fun hnot => absurd trivial hnot, ?_⟩, fun hknown => ?_⟩
  · rintro ⟨text, stream, rfl, -⟩
    exact absurd ⟨("end", [1]), by decide, rfl, by simp⟩ hunknown
  have hcounted : Counted (values.getD 0 []) (values.drop 1) := not_not.mp hknown
  have hget : (values.drop 1).getD 0 [] = values.getD 1 [] := by cases values <;> rfl
  split_ifs with hmeta herror hsync himg hstream hend
  · have hop : values.getD 0 [] ≠ points "sync" ∧ values.getD 0 [] ≠ points "end" := by
      obtain hop | hop := hmeta <;> rw [hop] <;> simp [points_inj]
    refine hplain hop.2 ?_
    simp only [wp_bind, wp_refuseIf, wp_pure]
    exact ⟨fun _ => ⟨hb, trivial⟩, fun _ => ⟨h, .other hop.1 rfl rfl
      fun _ hpacket => absurd hpacket List.not_mem_nil⟩⟩
  · refine hplain (by rw [herror]; simp [points_inj]) (wp_check.mpr ⟨fun _ hok => (by cases hok), ?_⟩)
    intro e he
    obtain rfl := Except.error.inj he
    exact ⟨hb, trivial⟩
  · have hargs : (values.drop 1).length = 1 ∨ (values.drop 1).length = 2 := by
      rw [hsync] at hcounted
      simpa [counts] using hcounted.mem
    refine hplain (by rw [hsync]; simp [points_inj]) (wp_mono (wp_sync h hargs) ?_
      (fun _ _ hend => hend) fun _ hend => hend)
    rintro packets screen' ⟨hsound, packet, rfl, hlength, hstamp, hlater, hnative, hsyncs⟩
    rw [hget] at hsyncs hnative
    exact ⟨hsound, .frame hsync hlength hstamp hlater hnative hsyncs⟩
  · have hcount : (values.drop 1).length = 6 := by
      rw [himg] at hcounted
      simpa [counts] using hcounted.mem
    refine hplain (by rw [himg]; simp [points_inj]) (wp_seq (wp_image h hcount)
      fun _ screen' hend => wp_pure.mpr ⟨hend.1, ?_⟩)
    have hsame := hend.2
    exact .other (by rw [himg]; simp [points_inj]) hsame.syncs hsame.lastStamp
      fun _ hpacket => absurd hpacket List.not_mem_nil
  · -- The end of an image: the instruction has one argument.
    obtain ⟨text, rfl⟩ : ∃ text, values = [points "end", text] := by
      have hcount : (values.drop 1).length = 1 := by
        rw [hend] at hcounted
        simpa [counts] using hcounted.mem
      obtain ⟨op, rest, rfl⟩ := List.exists_cons_of_ne_nil (l := values)
        (by rintro rfl; cases hcount)
      obtain ⟨text, rfl⟩ := List.length_eq_one_iff.mp hcount
      exact ⟨text, congrArg (fun op => [op, text]) hend⟩
    simp only [wp_bind, wp_check, wp_disk, wp_refuseIf]
    refine ⟨fun index hindex => ⟨fun hnone => ⟨hb, fun hnot => absurd trivial hnot, ?_⟩,
      fun hopen => ?_⟩, fun e he => ⟨hb, fun hnot => absurd (number_isValueError he) hnot, ?_⟩⟩
    · obtain ⟨-, rfl⟩ := number_eq_ok.mp hindex
      rintro ⟨other, stream, hvalues, -, hlookup, -⟩
      obtain rfl : text = other := by simpa using hvalues
      exact absurd (hnone.symm.trans hlookup) (by simp)
    · obtain ⟨hnumeric, rfl⟩ := number_eq_ok.mp hindex
      obtain ⟨stream, hlookup⟩ := Option.ne_none_iff_exists'.mp hopen
      have hiff : Orphaned screen [points "end", text] ↔
          stream.Drawable ∧ screen.layers.lookup stream.layer = none := by
        constructor
        · rintro ⟨other, found, hvalues, -, hfound, hboth⟩
          obtain rfl : text = other := by simpa using hvalues
          obtain rfl : stream = found := Option.some.inj (hlookup.symm.trans hfound)
          exact hboth
        · exact fun hboth => ⟨text, stream, rfl, hnumeric, hlookup, hboth⟩
      refine wp_mono (wp_completeImage h hnumeric.2.2.2 hlookup) ?_ ?_ fun _ hend => hend
      · rintro packets screen' ⟨hsound, hsame, hplain, hnot⟩
        exact ⟨hsound, .other (by simp [points_inj]) hsame.syncs hsame.lastStamp hplain,
          fun horphan => hnot (hiff.mp horphan)⟩
      · rintro e screen' ⟨hbounded, hkey⟩
        exact ⟨hbounded, hkey.trans hiff.symm⟩
    · rintro ⟨other, stream, hvalues, hnumeric, -⟩
      obtain rfl : text = other := by simpa using hvalues
      exact absurd (he.symm.trans (number_eq_ok.mpr ⟨hnumeric, rfl⟩)) (by simp)
  · have hblob : values.getD 0 [] = points "blob" := hstream.resolve_right hend
    refine hplain hend (wp_number hb fun index _ => ?_)
    simp only [wp_bind, wp_disk, wp_refuseIf]
    refine ⟨fun _ => ⟨hb, trivial⟩, fun hopen => wp_mono (wp_blob h hopen _) ?_
      (fun _ _ hend => hend) fun _ hend => hend⟩
    rintro - screen' ⟨hsound, hsame⟩
    exact wp_pure.mpr ⟨hsound, .other (by rw [hblob]; simp [points_inj]) hsame.syncs
      hsame.lastStamp fun _ hpacket => absurd hpacket List.not_mem_nil⟩
  · simp only [not_or] at hmeta hstream
    have hop : values.getD 0 [] ∉
        ["ready", "name", "error", "sync", "img", "blob", "end"].map points := by
      simp only [List.map_cons, List.map_nil, List.mem_cons, List.not_mem_nil, or_false, not_or]
      exact ⟨hmeta.1, hmeta.2, herror, hsync, himg, hstream.1, hstream.2⟩
    refine hplain hstream.2 (wp_seq (wp_draw h hcounted hop)
      fun _ screen' hdrawn => ?_)
    obtain ⟨hsound, hsame, hshort⟩ := hdrawn
    -- What is passed on has at most nine arguments.
    have hbrief : Brief values := by
      obtain ⟨hname, hlength⟩ := hcounted.small
      cases values with
      | nil => exact absurd hcounted (by decide)
      | cons op args => exact hshort.brief hname hlength
    simp only [wp_bind, wp_check, wp_pure]
    exact ⟨fun packet hpacket => ⟨hsound, .other hsync hsame.syncs hsame.lastStamp fun _ hmem => by
      obtain rfl := List.mem_singleton.mp hmem
      exact hbrief.plain hpacket hsync⟩,
      fun e he => ⟨hsound.toBounded, instruction_isValueError he⟩⟩

end Ficc.Viewer
