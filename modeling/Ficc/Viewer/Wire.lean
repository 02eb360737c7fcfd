import Ficc.Foundations.JsonRecords
import Ficc.Foundations.Raising

/-!
# Display instructions

An instruction of a display session is a list of elements, each written with its length in
characters. An element may contain any characters, also those that separate elements, so the
boundaries of an instruction follow from the lengths alone.

## Main results

* `parse_eq_ok`: what `parse` accepts is what the grammar `Instruction` derives within the limits.
* `Instruction.unique`: no text begins with two instructions.
* `wire_grammar`: what `instruction` writes is read back, and an input that is permitted is one
  instruction with valid arguments and nothing else.
-/

namespace Ficc.Viewer

open Utf16 (CodePoint isSurrogate)
open Utf8 JsonText

/-- What the display code raises. -/
inductive Fault
  /-- A `ValueError`, or the `OutputError` that is one. -/
  | value (text : String)
  /-- An `OutputError` about the number of bytes, characters or instructions. -/
  | limit (text : String)
  /-- A `KeyError`. -/
  | key
  /-- An `IndexError`. -/
  | index
deriving DecidableEq

/-- What is raised is a `ValueError`. -/
def Fault.IsValueError : Fault → Prop
  | .value _ | .limit _ => True
  | .key | .index => False

/-- The number that digits write, possibly with zeros in front. -/
def natural (text : Text) : ℕ := text.foldl (fun n c => 10 * n + (c.val - 48)) 0

/-- A number in a display instruction. -/
def number (value : Text) (maximum : ℕ) : Except Fault ℕ := do
  raiseIf (value = [] ∨ 16 < value.length ∨ value.all digit = false ∨ maximum < natural value)
    (.value "Invalid display input number.")
  .ok (natural value)

/-- The text of an instruction. -/
def instructionText (values : List Text) : Text :=
  [44].intercalate (values.map fun value => decimal value.length ++ 46 :: value) ++ [59]

/-- The bytes of an instruction. -/
def instruction (values : List Text) : Except Fault (List UInt8) :=
  orRaise (encode (instructionText values)) (.value "surrogates not allowed")

/-- The position of the point that ends a length, within the next seven characters. -/
def findPoint (text : Text) : Option ℕ := (text.take 7).findIdx? fun c => c == 46

/-- The length of the next element, with the text after its point. -/
def lengthPrefix (text : Text) : Except Fault (ℕ × Text) := do
  let position ← orRaise (findPoint text) (.value "Invalid display element length.")
  raiseIf (text.take position = [] ∨ (text.take position).all digit = false)
    (.value "Invalid display element length.")
  .ok (natural (text.take position), text.drop (position + 1))

/-- The next element, with its separator and the text after it. `found` elements stand before it. -/
def element (text : Text) (found : ℕ) : Except Fault (Text × CodePoint × Text) := do
  let (size, body) ← lengthPrefix text
  match body.drop size with
  | separator :: rest => do
    raiseIf (128 ≤ found) (.value "Invalid display element boundary.")
    .ok (body.take size, separator, rest)
  | [] => .error (.value "Invalid display element boundary.")

/-- The elements of the rest of an instruction. Each takes a character or more, so that as many
rounds as there are characters are enough. -/
def elements : ℕ → Text → ℕ → Except Fault (List Text)
  | 0, _, _ => .error (.value "Incomplete display instruction.")
  | rounds + 1, text, found => do
    raiseIf (text = []) (.value "Incomplete display instruction.")
    let (value, separator, rest) ← element text found
    if separator = 59 ∧ rest = [] then .ok [value]
    else do
      raiseIf (separator ≠ 44) (.value "Invalid display instruction separator.")
      let values ← elements rounds rest (found + 1)
      .ok (value :: values)

/-- The elements of an instruction. -/
def parse (data : Text) (maximum : ℕ) : Except Fault (List Text) := do
  raiseIf (data = [] ∨ maximum < data.length) (.value "Invalid display instruction size.")
  elements data.length data 0

/-! ### The grammar -/

/-- The text of an element without its separator: one to six digits for the length of the value, a
point, and the value. -/
def Element (text value : Text) : Prop :=
  ∃ digits, digits ≠ [] ∧ digits.length ≤ 6 ∧ digits.all digit = true ∧
    natural digits = value.length ∧ text = digits ++ 46 :: value

/-- The text of an instruction with its elements. -/
inductive Instruction : Text → List Text → Prop
  | last {text value : Text} (element : Element text value) :
    Instruction (text ++ [59]) [value]
  | more {text value rest : Text} {values : List Text} (element : Element text value)
    (later : Instruction rest values) : Instruction (text ++ 44 :: rest) (value :: values)

theorem natural_decimal (n : ℕ) : natural (decimal n) = n := by
  rw [natural, decimal, List.foldl_map]
  exact Nat.ofDigitChars_ten_toDigits

theorem length_decimal_le {n digits : ℕ} (hpos : 0 < digits) (h : n < 10 ^ digits) :
    (decimal n).length ≤ digits := by
  rw [decimal, List.length_map]
  exact Nat.toDigits_length 10 n digits hpos h

/-- A point is found where it ends digits. -/
theorem findPoint_append {digits : Text} (hdigits : digits.all digit = true)
    (hlength : digits.length ≤ 6) (body : Text) :
    findPoint (digits ++ 46 :: body) = some digits.length := by
  have htake : (digits ++ 46 :: body).take 7 = digits ++ 46 :: body.take (6 - digits.length) := by
    rw [List.take_append, List.take_of_length_le (by omega)]
    congr 1
    rw [show 7 - digits.length = (6 - digits.length) + 1 by omega, List.take_succ_cons]
  have hnone : digits.findIdx? (fun c => c == 46) = none := by
    rw [List.findIdx?_eq_none_iff]
    intro c hc
    have hdigit := List.all_eq_true.mp hdigits c hc
    rw [digit, Bool.and_eq_true, decide_eq_true_eq, decide_eq_true_eq] at hdigit
    rw [beq_eq_false_iff_ne]
    rintro rfl
    exact absurd hdigit.1 (by decide)
  rw [findPoint, htake, List.findIdx?_append, hnone, List.findIdx?_cons]
  simp

variable {text rest value : Text} {values : List Text}

/-- A point that is found stands after what is taken before it. -/
theorem findPoint_eq_some {position : ℕ} (h : findPoint text = some position) :
    position ≤ 6 ∧ (text.take position).length = position ∧
      text = text.take position ++ 46 :: text.drop (position + 1) := by
  obtain ⟨hlt, hpoint, -⟩ := List.findIdx?_eq_some_iff_getElem.mp h
  have hbound := hlt
  rw [List.length_take] at hbound
  have hlength : position < text.length := by omega
  refine ⟨by omega, List.length_take_of_le hlength.le, ?_⟩
  have hvalue : text[position] = 46 := by simpa using hpoint
  conv_lhs => rw [← List.take_append_drop position text, List.drop_eq_getElem_cons hlength, hvalue]

theorem lengthPrefix_eq_ok {body : Text} {size : ℕ} :
    lengthPrefix text = .ok (size, body) ↔
      ∃ digits, digits ≠ [] ∧ digits.length ≤ 6 ∧ digits.all digit = true ∧
        natural digits = size ∧ text = digits ++ 46 :: body := by
  simp only [lengthPrefix, bind_eq_ok, orRaise_eq_ok, raiseIf_eq_ok, exists_const, not_or,
    Except.ok.injEq, Prod.mk.injEq, Bool.not_eq_false]
  constructor
  · rintro ⟨position, hfind, ⟨hne, hdigits⟩, rfl, rfl⟩
    obtain ⟨hle, hlength, htext⟩ := findPoint_eq_some hfind
    exact ⟨text.take position, hne, hlength.trans_le hle, hdigits, rfl, htext⟩
  · rintro ⟨digits, hne, hlength, hdigits, rfl, rfl⟩
    have htake : (digits ++ 46 :: body).take digits.length = digits := List.take_left
    have hdrop : (digits ++ 46 :: body).drop (digits.length + 1) = body := by
      rw [List.drop_append, List.drop_of_length_le (Nat.le_succ _)]
      simp
    refine ⟨digits.length, findPoint_append hdigits hlength body, ?_, ?_, ?_⟩
    · rw [htake]
      exact ⟨hne, hdigits⟩
    · rw [htake]
    · exact hdrop

theorem element_eq_ok {separator : CodePoint} {found : ℕ} :
    element text found = .ok (value, separator, rest) ↔
      found < 128 ∧ ∃ start, Element start value ∧ text = start ++ separator :: rest := by
  constructor
  · intro h
    simp only [element, bind_eq_ok, Prod.exists] at h
    obtain ⟨size, body, hprefix, h⟩ := h
    obtain ⟨digits, hne, hlength, hdigits, hsize, rfl⟩ := lengthPrefix_eq_ok.mp hprefix
    split at h
    · rename_i separator' rest' hdrop
      simp only [unit_bind_eq_ok, raiseIf_eq_ok, not_le, Except.ok.injEq, Prod.mk.injEq] at h
      obtain ⟨hfound, rfl, rfl, rfl⟩ := h
      have hle : size ≤ body.length := by
        by_contra hgt
        rw [List.drop_of_length_le (by omega)] at hdrop
        cases hdrop
      refine ⟨hfound, digits ++ 46 :: body.take size, ⟨digits, hne, hlength, hdigits, ?_, rfl⟩, ?_⟩
      · rw [hsize, List.length_take_of_le hle]
      · rw [List.append_assoc, List.cons_append, ← hdrop, List.take_append_drop]
    · cases h
  · rintro ⟨hfound, start, ⟨digits, hne, hlength, hdigits, hsize, rfl⟩, rfl⟩
    have hprefix : lengthPrefix ((digits ++ 46 :: value) ++ separator :: rest) =
        .ok (value.length, value ++ separator :: rest) :=
      lengthPrefix_eq_ok.mpr ⟨digits, hne, hlength, hdigits, hsize, by simp⟩
    simp only [element, hprefix, ok_bind, List.drop_left, List.take_left]
    rw [unit_bind_eq_ok, raiseIf_eq_ok, not_le]
    exact ⟨hfound, rfl⟩

theorem Instruction.ne_nil (h : Instruction text values) :
    text ≠ [] := by
  cases h with
  | last element => simp
  | more element later => simp

theorem elements_eq_ok {rounds found : ℕ} (hrounds : text.length ≤ rounds) :
    elements rounds text found = .ok values ↔
      Instruction text values ∧ found + values.length ≤ 128 := by
  induction rounds generalizing text found values with
  | zero =>
    obtain rfl : text = [] := List.eq_nil_of_length_eq_zero (Nat.le_zero.mp hrounds)
    exact ⟨fun h => (nomatch h), fun h => absurd rfl h.1.ne_nil⟩
  | succ rounds ih =>
    simp only [elements, bind_eq_ok, raiseIf_eq_ok, exists_const, Prod.exists]
    constructor
    · rintro ⟨-, value, separator, rest, helement, h⟩
      obtain ⟨hfound, start, hstart, rfl⟩ := element_eq_ok.mp helement
      split_ifs at h with hlast
      · obtain ⟨rfl, rfl⟩ := hlast
        obtain rfl := Except.ok.inj h
        exact ⟨.last hstart, hfound⟩
      · simp only [bind_eq_ok, raiseIf_eq_ok, exists_const, not_not, Except.ok.injEq] at h
        obtain ⟨rfl, values, hlater, rfl⟩ := h
        rw [List.length_append, List.length_cons] at hrounds
        obtain ⟨hinstruction, hcount⟩ := (ih (by omega)).mp hlater
        exact ⟨.more hstart hinstruction, by rw [List.length_cons]; omega⟩
    · rintro ⟨h, hcount⟩
      refine ⟨h.ne_nil, ?_⟩
      cases h with
      | @last start value hstart =>
        have hfound : found < 128 := hcount
        exact ⟨value, 59, [], element_eq_ok.mpr ⟨hfound, start, hstart, rfl⟩,
          if_pos ⟨rfl, rfl⟩⟩
      | @more start value rest values hstart hlater =>
        rw [List.length_cons] at hcount
        rw [List.length_append, List.length_cons] at hrounds
        refine ⟨value, 44, rest, element_eq_ok.mpr ⟨by omega, start, hstart, rfl⟩, ?_⟩
        rw [if_neg (fun hlast => absurd hlast.1 (by decide)), unit_bind_eq_ok, raiseIf_eq_ok,
          not_not, bind_eq_ok]
        exact ⟨rfl, values, (ih (by omega)).mpr ⟨hlater, by omega⟩, rfl⟩

/-- The accepted texts are the instructions within the limits. -/
theorem parse_eq_ok {data : Text} {maximum : ℕ} :
    parse data maximum = .ok values ↔
      Instruction data values ∧ data.length ≤ maximum ∧ values.length ≤ 128 := by
  rw [parse, unit_bind_eq_ok, raiseIf_eq_ok, elements_eq_ok (le_refl _), not_or, not_lt,
    Nat.zero_add]
  constructor
  · rintro ⟨⟨-, hlength⟩, h, hcount⟩
    exact ⟨h, hlength, hcount⟩
  · rintro ⟨h, hlength, hcount⟩
    exact ⟨⟨h.ne_nil, hlength⟩, h, hcount⟩

/-- No text begins with two elements. -/
theorem Element.unique {first second value' rest' : Text} {separator separator' : CodePoint}
    (h : Element first value) (h' : Element second value')
    (hsame : first ++ separator :: rest = second ++ separator' :: rest') :
    first = second ∧ value = value' ∧ separator = separator' ∧ rest = rest' := by
  have hfirst : element (first ++ separator :: rest) 0 = .ok (value, separator, rest) :=
    element_eq_ok.mpr ⟨by decide, first, h, rfl⟩
  have hsecond : element (first ++ separator :: rest) 0 = .ok (value', separator', rest') :=
    element_eq_ok.mpr ⟨by decide, second, h', hsame⟩
  obtain ⟨rfl, rfl, rfl⟩ : value = value' ∧ separator = separator' ∧ rest = rest' := by
    simpa using Except.ok.inj (hfirst.symm.trans hsecond)
  exact ⟨List.append_cancel_right hsame, rfl, rfl, rfl⟩

/-- No text begins with two instructions. -/
theorem Instruction.unique {first second rest' : Text} {values' : List Text}
    (h : Instruction first values) (h' : Instruction second values')
    (hsame : first ++ rest = second ++ rest') :
    first = second ∧ values = values' ∧ rest = rest' := by
  induction h generalizing second values' with
  | @last start value hstart =>
    cases h' with
    | @last start' value' hstart' =>
      rw [List.append_assoc, List.append_assoc] at hsame
      obtain ⟨rfl, rfl, -, rfl⟩ := hstart.unique hstart' hsame
      exact ⟨rfl, rfl, rfl⟩
    | @more start' value' text values' hstart' hlater' =>
      rw [List.append_assoc, List.append_assoc] at hsame
      obtain ⟨-, -, hseparator, -⟩ := hstart.unique hstart' hsame
      exact absurd hseparator (by decide)
  | @more start value text values hstart hlater ih =>
    cases h' with
    | @last start' value' hstart' =>
      rw [List.append_assoc, List.append_assoc] at hsame
      obtain ⟨-, -, hseparator, -⟩ := hstart.unique hstart' hsame
      exact absurd hseparator (by decide)
    | @more start' value' text' values' hstart' hlater' =>
      rw [List.append_assoc, List.append_assoc] at hsame
      obtain ⟨rfl, rfl, -, htext⟩ := hstart.unique hstart' hsame
      obtain ⟨rfl, rfl, rfl⟩ := ih hlater' htext
      exact ⟨rfl, rfl, rfl⟩

theorem instructionText_singleton (value : Text) :
    instructionText [value] = (decimal value.length ++ 46 :: value) ++ [59] := by
  simp [instructionText, List.intercalate]

theorem instructionText_cons (value next : Text) (values : List Text) :
    instructionText (value :: next :: values) =
      (decimal value.length ++ 46 :: value) ++ 44 :: instructionText (next :: values) := by
  simp [instructionText, List.intercalate]

/-- An instruction of whole texts can be written as bytes. -/
theorem whole_instructionText (hne : values ≠ []) (hvalues : ∀ value ∈ values, whole value = true) :
    whole (instructionText values) = true := by
  have hdecimal (n : ℕ) : whole (decimal n) = true := by
    rw [whole, decimal, List.all_map, List.all_eq_true]
    intro c _
    rw [Function.comp_apply, isSurrogate_point]
    rfl
  have helement : ∀ value ∈ values, whole (decimal value.length ++ 46 :: value) = true := by
    intro value hvalue
    have hsplit : whole (decimal value.length ++ 46 :: value) =
        (whole (decimal value.length) && (!isSurrogate 46 && whole value)) := by
      simp only [whole, List.all_append, List.all_cons]
    rw [hsplit, hdecimal, hvalues value hvalue]
    decide
  induction values with
  | nil => exact absurd rfl hne
  | cons value values ih =>
    have hfirst := helement value List.mem_cons_self
    cases values with
    | nil =>
      rw [instructionText_singleton, whole, List.all_append]
      exact Bool.and_eq_true_iff.mpr ⟨hfirst, by decide⟩
    | cons next values =>
      have hlater := ih (by simp)
        (fun other hother => hvalues other (List.mem_cons_of_mem _ hother))
        fun other hother => helement other (List.mem_cons_of_mem _ hother)
      rw [instructionText_cons, whole, List.all_append, List.all_cons]
      exact Bool.and_eq_true_iff.mpr ⟨hfirst, Bool.and_eq_true_iff.mpr ⟨by decide, hlater⟩⟩

/-- What `instruction` writes is an instruction. -/
theorem instruction_instructionText (hne : values ≠ [])
    (hlength : ∀ value ∈ values, value.length < 1000000) :
    Instruction (instructionText values) values := by
  have helement : ∀ value ∈ values, Element (decimal value.length ++ 46 :: value) value :=
    fun value hvalue => ⟨decimal value.length, decimal_ne_nil _,
      length_decimal_le (by decide) (hlength value hvalue), all_digit_decimal _,
      natural_decimal _, rfl⟩
  induction values with
  | nil => exact absurd rfl hne
  | cons value values ih =>
    have hfirst := helement value List.mem_cons_self
    cases values with
    | nil =>
      rw [instructionText_singleton]
      exact .last hfirst
    | cons next values =>
      rw [instructionText_cons]
      exact .more hfirst (ih (by simp)
        (fun other hother => hlength other (List.mem_cons_of_mem _ hother))
        fun other hother => helement other (List.mem_cons_of_mem _ hother))

/-! ### Input of the browser -/

/-- Bytes as ASCII characters. -/
def ascii (data : List UInt8) : Except Fault Text := do
  raiseIf (∃ byte ∈ data, 128 ≤ byte.toNat) (.value "ordinal not in range(128)")
  .ok (data.map fun byte => Fin.ofNat _ byte.toNat)

/-- The checks of the arguments of a permitted instruction. -/
def checkInput (opcode : Text) (args : List Text) : Except Fault Unit :=
  if opcode = points "key" ∧ args.length = 2 then do
    let _ ← number (args.getD 0 []) 0xFFFFFFFF
    let _ ← number (args.getD 1 []) 1
    .ok ()
  else if opcode = points "mouse" ∧ args.length ∈ [3, 4] then do
    let _ ← number (args.getD 0 []) 4095
    let _ ← number (args.getD 1 []) 2159
    let _ ← number (args.getD 2 []) 31
    if args.length = 4 then do
      let _ ← number (args.getD 3 []) (2 ^ 53 - 1)
      .ok ()
    else .ok ()
  else if opcode = points "size" ∧ args.length = 2 then do
    let width ← number (args.getD 0 []) 4096
    raiseIf (width < 64) (.value "Invalid display dimensions.")
    let height ← number (args.getD 1 []) 2160
    raiseIf (height < 64) (.value "Invalid display dimensions.")
  else if opcode = points "sync" ∧ args.length ∈ [1, 2] then
    args.forM fun arg => do
      let _ ← number arg (2 ^ 53 - 1)
      .ok ()
  else if opcode = points "ack" ∧ args.length = 3 then do
    let _ ← number (args.getD 0 []) 65535
    let _ ← number (args.getD 2 []) 65535
    raiseIf (64 < (args.getD 1 []).length) (.value "Invalid display acknowledgement.")
  else
    raiseIf (¬((opcode = points "nop" ∨ opcode = points "disconnect") ∧ args = []))
      (.value "The display input instruction is not permitted.")

/-- The input of a browser, if it is permitted. -/
def permittedInput (data : List UInt8) : Except Fault (List UInt8) := do
  let text ← ascii data
  let values ← parse text 4096
  checkInput (values.getD 0 []) (values.drop 1)
  .ok data

/-- A text of up to sixteen digits for a number within a bound. -/
def Numeric (value : Text) (maximum : ℕ) : Prop :=
  value ≠ [] ∧ value.length ≤ 16 ∧ value.all digit = true ∧ natural value ≤ maximum

theorem number_eq_ok {maximum n : ℕ} :
    number value maximum = .ok n ↔ Numeric value maximum ∧ natural value = n := by
  simp only [number, bind_eq_ok, raiseIf_eq_ok, exists_const, not_or, not_lt, Bool.not_eq_false,
    Except.ok.injEq, Numeric]

/-- The instructions that a browser may send, with their arguments. -/
inductive Permitted : Text → List Text → Prop
  | key {keysym pressed : Text} (keysym_le : Numeric keysym 0xFFFFFFFF)
    (pressed_le : Numeric pressed 1) : Permitted (points "key") [keysym, pressed]
  | mouse {x y buttons : Text} {stamp : List Text} (x_le : Numeric x 4095) (y_le : Numeric y 2159)
    (buttons_le : Numeric buttons 31) (one : stamp.length ≤ 1)
    (stamp_le : ∀ value ∈ stamp, Numeric value (2 ^ 53 - 1)) :
    Permitted (points "mouse") ([x, y, buttons] ++ stamp)
  | size {width height : Text} (width_le : Numeric width 4096) (le_width : 64 ≤ natural width)
    (height_le : Numeric height 2160) (le_height : 64 ≤ natural height) :
    Permitted (points "size") [width, height]
  | sync {stamps : List Text} (count : stamps.length = 1 ∨ stamps.length = 2)
    (stamps_le : ∀ value ∈ stamps, Numeric value (2 ^ 53 - 1)) : Permitted (points "sync") stamps
  | ack {index message status : Text} (index_le : Numeric index 65535)
    (message_le : message.length ≤ 64) (status_le : Numeric status 65535) :
    Permitted (points "ack") [index, message, status]
  | nop : Permitted (points "nop") []
  | disconnect : Permitted (points "disconnect") []

theorem points_inj {a b : String} : points a = points b ↔ a = b := points_injective.eq_iff

theorem checkInput_eq_ok {opcode : Text} {args : List Text} :
    checkInput opcode args = .ok () ↔ Permitted opcode args := by
  constructor
  · intro h
    unfold checkInput at h
    split_ifs at h with hkey hmouse hcount hsize hsync hack
    · obtain ⟨rfl, hlength⟩ := hkey
      obtain ⟨keysym, pressed, rfl⟩ := List.length_eq_two.mp hlength
      simp only [bind_eq_ok, number_eq_ok, List.getD_cons_zero, List.getD_cons_succ] at h
      obtain ⟨-, ⟨hkeysym, -⟩, -, ⟨hpressed, -⟩, -⟩ := h
      exact .key hkeysym hpressed
    · obtain ⟨rfl, -⟩ := hmouse
      obtain ⟨x, y, buttons, stamp, rfl⟩ := List.length_eq_four.mp hcount
      simp only [bind_eq_ok, number_eq_ok, List.getD_cons_zero, List.getD_cons_succ] at h
      obtain ⟨-, ⟨hx, -⟩, -, ⟨hy, -⟩, -, ⟨hbuttons, -⟩, -, ⟨hstamp, -⟩, -⟩ := h
      have hall : ∀ value ∈ [stamp], Numeric value (2 ^ 53 - 1) := by simpa using hstamp
      exact Permitted.mouse hx hy hbuttons (le_refl 1) hall
    · obtain ⟨rfl, hlength⟩ := hmouse
      have hthree : args.length = 3 := by
        simp only [List.mem_cons, List.not_mem_nil, or_false] at hlength
        omega
      obtain ⟨x, y, buttons, rfl⟩ := List.length_eq_three.mp hthree
      simp only [bind_eq_ok, number_eq_ok, List.getD_cons_zero, List.getD_cons_succ] at h
      obtain ⟨-, ⟨hx, -⟩, -, ⟨hy, -⟩, -, ⟨hbuttons, -⟩, -⟩ := h
      show Permitted (points "mouse") ([x, y, buttons] ++ [])
      exact .mouse hx hy hbuttons (Nat.zero_le 1) (by simp)
    · obtain ⟨rfl, hlength⟩ := hsize
      obtain ⟨width, height, rfl⟩ := List.length_eq_two.mp hlength
      simp only [bind_eq_ok, number_eq_ok, raiseIf_eq_ok, exists_const, not_lt,
        List.getD_cons_zero, List.getD_cons_succ] at h
      obtain ⟨-, ⟨hwidth, rfl⟩, hwide, -, ⟨hheight, rfl⟩, hhigh⟩ := h
      exact .size hwidth hwide hheight hhigh
    · obtain ⟨rfl, hlength⟩ := hsync
      rw [forM_eq_ok] at h
      refine .sync (by simpa using hlength) fun value hvalue => ?_
      have hnumber := h value hvalue
      simp only [bind_eq_ok, number_eq_ok] at hnumber
      obtain ⟨-, ⟨hnumeric, -⟩, -⟩ := hnumber
      exact hnumeric
    · obtain ⟨rfl, hlength⟩ := hack
      obtain ⟨index, message, status, rfl⟩ := List.length_eq_three.mp hlength
      simp only [bind_eq_ok, number_eq_ok, raiseIf_eq_ok, not_lt, List.getD_cons_zero,
        List.getD_cons_succ] at h
      obtain ⟨-, ⟨hindex, -⟩, -, ⟨hstatus, -⟩, hmessage⟩ := h
      exact .ack hindex hmessage hstatus
    · rw [raiseIf_eq_ok, not_not] at h
      obtain ⟨rfl | rfl, rfl⟩ := h
      · exact .nop
      · exact .disconnect
  · intro h
    cases h with
    | key keysym_le pressed_le =>
      simp [checkInput, bind_eq_ok, number_eq_ok, keysym_le, pressed_le]
    | @mouse x y buttons stamp x_le y_le buttons_le one stamp_le =>
      cases stamp with
      | nil => simp [checkInput, points_inj, bind_eq_ok, number_eq_ok, x_le, y_le, buttons_le]
      | cons value stamp =>
        obtain rfl : stamp = [] := by
          rw [List.length_cons] at one
          exact List.eq_nil_of_length_eq_zero (by omega)
        have hvalue := stamp_le value List.mem_cons_self
        rw [show (2 : ℕ) ^ 53 - 1 = 9007199254740991 by norm_num] at hvalue
        simp [checkInput, points_inj, bind_eq_ok, number_eq_ok, x_le, y_le, buttons_le, hvalue]
    | size width_le le_width height_le le_height =>
      simp [checkInput, points_inj, bind_eq_ok, number_eq_ok, width_le, le_width, height_le, le_height]
    | sync count stamps_le =>
      have hround : args.forM (fun arg => do
          let _ ← number arg (2 ^ 53 - 1)
          .ok ()) = (.ok () : Except Fault Unit) := by
        rw [forM_eq_ok]
        intro value hvalue
        simp only [bind_eq_ok, number_eq_ok]
        exact ⟨_, ⟨stamps_le value hvalue, rfl⟩, trivial⟩
      have hcount : args.length ∈ [1, 2] := by simpa using count
      rw [checkInput, if_neg (by simp [points_inj]), if_neg (by simp [points_inj]),
        if_neg (by simp [points_inj]), if_pos ⟨rfl, hcount⟩]
      exact hround
    | ack index_le message_le status_le =>
      simp [checkInput, points_inj, bind_eq_ok, number_eq_ok, index_le, message_le, status_le]
    | nop => simp [checkInput, points_inj]
    | disconnect => simp [checkInput, points_inj]

theorem ascii_eq_ok {data : List UInt8} (h : ascii data = .ok text) :
    text.length = data.length := by
  simp only [ascii, bind_eq_ok, raiseIf_eq_ok, exists_const, Except.ok.injEq] at h
  obtain ⟨-, rfl⟩ := h
  exact List.length_map _

/-- Input is permitted if its characters are one instruction that a browser may send. -/
theorem permittedInput_eq_ok {data result : List UInt8} :
    permittedInput data = .ok result ↔
      result = data ∧ data.length ≤ 4096 ∧ ∃ text opcode args, ascii data = .ok text ∧
        Instruction text (opcode :: args) ∧ Permitted opcode args := by
  simp only [permittedInput, bind_eq_ok, parse_eq_ok, Except.ok.injEq]
  constructor
  · rintro ⟨text, htext, values, ⟨hinstruction, hlength, -⟩, ⟨⟩, hcheck, rfl⟩
    have hpermitted := checkInput_eq_ok.mp hcheck
    rw [ascii_eq_ok htext] at hlength
    refine ⟨rfl, hlength, text, values.getD 0 [], values.drop 1, htext, ?_, hpermitted⟩
    cases values with
    | nil => cases hinstruction
    | cons opcode args => exact hinstruction
  · rintro ⟨rfl, hlength, text, opcode, args, htext, hinstruction, hpermitted⟩
    have hargs : args.length ≤ 4 := by
      cases hpermitted with
      | mouse x_le y_le buttons_le one stamp_le =>
        simp only [List.length_append, List.length_cons, List.length_nil]
        omega
      | sync count stamps_le => omega
      | _ => simp
    refine ⟨text, htext, opcode :: args, ⟨hinstruction, ?_, ?_⟩, (),
      checkInput_eq_ok.mpr hpermitted, rfl⟩
    · rwa [ascii_eq_ok htext]
    · rw [List.length_cons]
      omega

/-- The wire grammar of display instructions: elements within the limits are read back from what
`instruction` writes; `parse` accepts exactly the instructions within the limits; and input is
permitted only if it is one instruction with valid arguments, and it is then one in no other way and
with nothing after it. -/
theorem wire_grammar :
    (∀ (values : List Text) (maximum : ℕ), values ≠ [] → values.length ≤ 128 →
      (∀ value ∈ values, whole value = true ∧ value.length < 1000000) →
      (instructionText values).length ≤ maximum →
      ∃ bytes text, instruction values = .ok bytes ∧ decode bytes = some text ∧
        parse text maximum = .ok values) ∧
    (∀ (text : Text) (maximum : ℕ) (values : List Text), parse text maximum = .ok values ↔
      Instruction text values ∧ text.length ≤ maximum ∧ values.length ≤ 128) ∧
    ∀ data result, permittedInput data = .ok result →
      result = data ∧ ∃ text opcode args, ascii data = .ok text ∧
        Instruction text (opcode :: args) ∧ Permitted opcode args ∧
        ∀ first rest values, text = first ++ rest → Instruction first values →
          rest = [] ∧ values = opcode :: args := by
  refine ⟨fun values maximum hne hcount hvalues hlength => ?_, fun text maximum values =>
    parse_eq_ok, fun data result h => ?_⟩
  · have hwhole : whole (instructionText values) = true :=
      whole_instructionText hne fun value hvalue => (hvalues value hvalue).1
    have hbytes : encode (instructionText values) =
        some ((instructionText values).flatMap sequence) := by rw [encode, if_pos hwhole]
    refine ⟨_, instructionText values, ?_, decode_encode hbytes, parse_eq_ok.mpr
      ⟨instruction_instructionText hne fun value hvalue => (hvalues value hvalue).2, hlength,
        hcount⟩⟩
    rw [instruction, hbytes]
    rfl
  · obtain ⟨rfl, -, text, opcode, args, htext, hinstruction, hpermitted⟩ :=
      permittedInput_eq_ok.mp h
    refine ⟨rfl, text, opcode, args, htext, hinstruction, hpermitted, ?_⟩
    intro first rest values hsplit hfirst
    have hsame : text ++ [] = first ++ rest := by rw [List.append_nil, hsplit]
    obtain ⟨-, hvalues, hrest⟩ := hinstruction.unique hfirst hsame
    exact ⟨hrest.symm, hvalues.symm⟩

end Ficc.Viewer
