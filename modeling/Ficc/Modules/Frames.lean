import Ficc.Foundations.JsonStrict
import Ficc.Modules.Archive

/-!
# Frames of module processes

`dumps` and `loads` write and read bounded JSON values, `frame` and `frames` put them into frames with
their length, and `batch_results` matches the results of a batch with its targets. The floats of
Python are a parameter. The refusals of `loads` that do not come from the bounds have one error.

Two values of Python are equal, for `Same`, when they differ only in the order of the members of
dictionaries.

## Main results

* `loads_dumps`: what was loaded is loaded again from its encoding.
* `framesFrom_encodings`: frames are read back, and a prefix that does not end with a frame is refused.
* `batchResults_eq_ok`: the results are those of the targets, in their order.
-/

namespace Ficc.Modules.Frames

open JsonText Utf8
open Utf16 (CodePoint)
open Document (Rules Limits every accepts)

/-! ### Values -/

/-- The floats of Python. -/
class Floats (F : Type) where
  /-- `float(text)` for the text of a JSON number. -/
  parse : Text → F
  /-- `math.isfinite`. -/
  finite : F → Bool
  /-- `float.__repr__`. -/
  repr : F → Text
  /-- The text of a finite float is a JSON number with a fraction or an exponent. -/
  repr_real : ∀ x, finite x = true → readLiteral (repr x) = some (.real (repr x))
  repr_numeric : ∀ x, finite x = true → (repr x).all numeric = true
  /-- A finite float is read back from its text. -/
  parse_repr : ∀ x, finite x = true → parse (repr x) = x

/-- A number of Python. -/
inductive Number (F : Type)
  | int (value : ℤ)
  | float (value : F)
deriving DecidableEq

variable {F : Type} [Floats F]

instance : Numeral (Number F) where
  print
    | .int value => Numeral.print (Literal.int value)
    | .float value => Floats.repr value
  parse text := (readLiteral text).map fun
    | .int value => .int value
    | .real text => .float (Floats.parse text)

/-- A value of Python that stands for a JSON document. -/
abbrev Value (F : Type) := Document Text (Number F)

/-- The values differ only in the order of the members of dictionaries. -/
def Same (first second : Value F) : Prop := sorted first = sorted second

def MAX_JSON : ℕ := 1024 * 1024

/-- `text`, where a value that is no text has been refused. -/
def text (value : Text) (maximum : ℕ) : Except Error Unit :=
  raiseIf (maximum < value.length ∨ value.contains 0)
    (invalid "The module text is invalid or too long.")

mutual

/-- `bounded`. -/
def bounded (depth : ℕ) : Value F → Except Error Unit
  | .object members => do
    raiseIf (12 < depth) (invalid "The module JSON nesting exceeds the limit.")
    raiseIf (256 < members.length) (invalid "The module object exceeds the limit.")
    boundedMembers (depth + 1) members
  | .list items => do
    raiseIf (12 < depth) (invalid "The module JSON nesting exceeds the limit.")
    raiseIf (256 < items.length) (invalid "The module list exceeds the limit.")
    boundedItems (depth + 1) items
  | .text value => do
    raiseIf (12 < depth) (invalid "The module JSON nesting exceeds the limit.")
    text value 65536
  | .number (.float value) => do
    raiseIf (12 < depth) (invalid "The module JSON nesting exceeds the limit.")
    raiseIf (Floats.finite value = false) (invalid "The module number is not finite.")
  | .number (.int value) => do
    raiseIf (12 < depth) (invalid "The module JSON nesting exceeds the limit.")
    raiseIf (9007199254740991 < value.natAbs)
      (invalid "The module integer exceeds the exact JSON range.")
  | .bool _ => raiseIf (12 < depth) (invalid "The module JSON nesting exceeds the limit.")
  | .null => raiseIf (12 < depth) (invalid "The module JSON nesting exceeds the limit.")

def boundedItems (depth : ℕ) : List (Value F) → Except Error Unit
  | [] => .ok ()
  | item :: rest => do
    bounded depth item
    boundedItems depth rest

def boundedMembers (depth : ℕ) : List (Text × Value F) → Except Error Unit
  | [] => .ok ()
  | (key, item) :: rest => do
    text key 240
    bounded depth item
    boundedMembers depth rest

end

/-- `loads`. -/
def loads (data : Bytes) (maximum : ℕ) : Except Error (Value F) := do
  raiseIf (¬(0 < data.length ∧ data.length ≤ maximum))
    (invalid "The module JSON size exceeds the limit.")
  let value ← orRaise ((decode data).bind (readBy strict)) (invalid "The module JSON is invalid.")
  bounded 0 value
  return value

/-- What `dumps` writes: ASCII, no blanks, and sorted keys. -/
def compact : JsonText.Format := ⟨true, 0⟩

/-- `dumps`. -/
def dumps (value : Value F) : Except Error Bytes := do
  bounded 0 value
  let result ← orRaise (encode (write compact (sorted value)))
    (invalid "The module JSON cannot be encoded.")
  raiseIf (MAX_JSON < result.length) (invalid "The module JSON size exceeds the limit.")
  return result

/-! ### Frames -/

def MAX_OUTPUT : ℕ := 2 * (MAX_JSON + 4)

/-- `struct.pack(">I", n)`. -/
def pack (n : ℕ) : Bytes :=
  [.ofNat (n / 16777216), .ofNat (n / 65536), .ofNat (n / 256), .ofNat n]

/-- `struct.unpack_from(">I", data)`. -/
def unpack (data : Bytes) : ℕ := (data.take 4).foldl (fun n byte => n * 256 + byte.toNat) 0

/-- `frame`. -/
def frame (value : Value F) : Except Error Bytes := do
  let payload ← dumps value
  return pack payload.length ++ payload

/-- The loop of `frames` over the rest of the data, with the number of frames that may come. -/
def framesFrom : ℕ → Bytes → Except Error (List (Value F))
  | _, [] => .ok []
  | 0, _ :: _ => .error (invalid "The module returned an incomplete or extra frame.")
  | count + 1, byte :: rest => do
    let data := byte :: rest
    raiseIf (data.length < 4) (invalid "The module returned an incomplete or extra frame.")
    let size := unpack data
    raiseIf (¬(0 < size ∧ size ≤ MAX_JSON) ∨ (data.drop 4).length < size)
      (invalid "The module frame size is invalid.")
    let item ← loads ((data.drop 4).take size) MAX_JSON
    match item with
    | .object _ =>
      let result ← framesFrom count ((data.drop 4).drop size)
      return item :: result
    | _ => .error (invalid "A module frame must contain an object.")

/-- `frames`. -/
def frames (data : Bytes) : Except Error (List (Value F)) := do
  raiseIf (MAX_OUTPUT < data.length) (invalid "The module response exceeds the protocol limit.")
  framesFrom 2 data

/-- The length is read back. -/
theorem unpack_pack {n : ℕ} (h : n < 4294967296) (rest : Bytes) : unpack (pack n ++ rest) = n := by
  show (((0 * 256 + (UInt8.ofNat (n / 16777216)).toNat) * 256 + (UInt8.ofNat (n / 65536)).toNat) *
    256 + (UInt8.ofNat (n / 256)).toNat) * 256 + (UInt8.ofNat n).toNat = n
  rw [UInt8.toNat_ofNat', UInt8.toNat_ofNat', UInt8.toNat_ofNat', UInt8.toNat_ofNat']
  omega

/-- A frame is its length and its payload. -/
theorem frame_eq_ok {value : Value F} {bytes : Bytes} : frame value = .ok bytes ↔
    ∃ payload, dumps value = .ok payload ∧ bytes = pack payload.length ++ payload := by
  rw [frame, bind_eq_ok]
  refine exists_congr fun payload => and_congr Iff.rfl ⟨fun h => ?_, fun h => ?_⟩
  · exact (Except.ok.inj h).symm
  · rw [h]
    rfl

theorem framesFrom_cons {count : ℕ} {data : Bytes} (hne : data ≠ []) :
    framesFrom (F := F) (count + 1) data = (do
      raiseIf (data.length < 4) (invalid "The module returned an incomplete or extra frame.")
      raiseIf (¬(0 < unpack data ∧ unpack data ≤ MAX_JSON) ∨ (data.drop 4).length < unpack data)
        (invalid "The module frame size is invalid.")
      let item ← loads ((data.drop 4).take (unpack data)) MAX_JSON
      match item with
      | .object _ =>
        let result ← framesFrom count ((data.drop 4).drop (unpack data))
        return item :: result
      | _ => .error (invalid "A module frame must contain an object.")) := by
  obtain _ | ⟨byte, rest⟩ := data
  · exact absurd rfl hne
  · rw [framesFrom]

/-! ### Results of a batch -/

/-- What a reply is refused with. A missing key of a dictionary is a `KeyError`. -/
inductive Fault
  | failure (error : Error)
  | key
deriving DecidableEq

/-- `IDENTIFIER`. -/
def isIdentifier : Text → Bool
  | [] => false
  | first :: rest =>
    lower first && rest.length ≤ 95 &&
      rest.all fun c => lower c || digit c || c.val = 95 || c.val = 46 || c.val = 45
where
  lower (c : CodePoint) : Bool := 97 ≤ c.val && c.val ≤ 122

def textMessage : Fault := .failure (invalid "The module text is invalid or too long.")

def fieldsMessage : Fault :=
  .failure (invalid "The module object has missing or unsupported fields.")

def outcomeMessage : Fault :=
  .failure (invalid "The module result target or outcome is invalid.")

/-- `text`, with what it returns. -/
def textOf (value : Option (Value F)) (maximum : ℕ) : Except Fault Text :=
  match value with
  | some (.text value) =>
    if maximum < value.length ∨ value.contains 0 then .error textMessage else .ok value
  | _ => .error textMessage

/-- `identifier`. -/
def identifier (value : Option (Value F)) : Except Fault Unit :=
  match value with
  | some (.text value) =>
    raiseIf (isIdentifier value = false) (.failure (invalid "The module identifier is invalid."))
  | _ => .error (.failure (invalid "The module identifier is invalid."))

/-- `fields`, with the members of the dictionary. -/
def fields (value : Value F) (required optional : List String) :
    Except Fault (List (Text × Value F)) :=
  match value with
  | .object members =>
    if (∀ name ∈ required, points name ∈ members.map Prod.fst) ∧
        ∀ key ∈ members.map Prod.fst, key ∈ (required ++ optional).map points then .ok members
    else .error fieldsMessage
  | _ => .error fieldsMessage

/-- A round of the loop of `batch_results`. -/
def result (targets : List Text) (byTarget : List (Text × Value F)) (item : Value F) :
    Except Fault (List (Text × Value F)) := do
  let members ← fields item ["target"] ["data", "error"]
  let target ← textOf (field members "target") 128
  raiseIf (target ∉ targets ∨ target ∈ byTarget.map Prod.fst ∨
    ((field members "data").isSome ↔ (field members "error").isSome)) outcomeMessage
  match field members "error" with
  | some error =>
    let members ← fields error ["code", "message"] []
    identifier (field members "code")
    let _ ← textOf (field members "message") 1024
    return (target, item) :: byTarget
  | none => return (target, item) :: byTarget

def countMessage : Fault :=
  .failure (invalid "The module result count does not match the target batch.")

/-- `batch_results`. -/
def batchResults (items : Value F) (targets : List Text) : Except Fault (List (Value F)) :=
  match items with
  | .list items => do
    raiseIf (items.length ≠ targets.length) countMessage
    let byTarget ← items.foldlM (result targets) []
    targets.mapM fun target => orRaise (byTarget.lookup target) .key
  | _ => .error countMessage

/-! ### Loading what was written -/

def limits : Limits := ⟨12, 256⟩

def Number.exact : Number F → Bool
  | .int value => value.natAbs ≤ 9007199254740991
  | .float value => Floats.finite value

/-- What `bounded` asks of the parts of a value. -/
def rules : Rules Text (Number F) where
  text value := value.length ≤ 65536 && !value.contains 0
  key value := value.length ≤ 240 && !value.contains 0
  number := Number.exact
  keys _ := true

theorem text_eq_ok {value : Text} {maximum : ℕ} :
    text value maximum = .ok () ↔ (value.length ≤ maximum && !value.contains 0) = true := by
  rw [text, raiseIf_eq_ok, not_or, Nat.not_lt, Bool.and_eq_true, decide_eq_true_eq,
    Bool.not_eq_true', Bool.not_eq_true]

theorem boundedItems_eq_ok {depth : ℕ} {items : List (Value F)} :
    boundedItems depth items = .ok () ↔ ∀ item ∈ items, bounded depth item = .ok () := by
  induction items with
  | nil => simp [boundedItems]
  | cons item items ih => rw [boundedItems, unit_bind_eq_ok, ih, List.forall_mem_cons]

theorem boundedMembers_eq_ok {depth : ℕ} {members : List (Text × Value F)} :
    boundedMembers depth members = .ok () ↔ ∀ member ∈ members,
      text member.1 240 = .ok () ∧ bounded depth member.2 = .ok () := by
  induction members with
  | nil => simp [boundedMembers]
  | cons member members ih =>
    rw [boundedMembers, unit_bind_eq_ok, unit_bind_eq_ok, ih, List.forall_mem_cons, and_assoc]

/-- The bounds are those of the grammar. -/
theorem bounded_eq_ok {depth : ℕ} {value : Value F} :
    bounded depth value = .ok () ↔ value.accepts limits rules depth = true := by
  induction value using Document.induct generalizing depth with
  | null => rw [bounded, accepts, raiseIf_eq_ok, Nat.not_lt, decide_eq_true_eq]; rfl
  | bool value => rw [bounded, accepts, raiseIf_eq_ok, Nat.not_lt, decide_eq_true_eq]; rfl
  | number value =>
    cases value with
    | int value =>
      rw [bounded, accepts, unit_bind_eq_ok, raiseIf_eq_ok, raiseIf_eq_ok, Nat.not_lt, Nat.not_lt,
        Bool.and_eq_true, decide_eq_true_eq]
      exact and_congr Iff.rfl decide_eq_true_iff.symm
    | float value =>
      rw [bounded, accepts, unit_bind_eq_ok, raiseIf_eq_ok, raiseIf_eq_ok, Nat.not_lt,
        Bool.and_eq_true, decide_eq_true_eq, Bool.not_eq_false]
      rfl
  | text value =>
    rw [bounded, accepts, unit_bind_eq_ok, raiseIf_eq_ok, Nat.not_lt, text_eq_ok]
    exact (and_congr_left' decide_eq_true_iff.symm).trans Bool.and_eq_true_iff.symm
  | list items ih =>
    rw [bounded, Document.accepts_list, unit_bind_eq_ok, unit_bind_eq_ok, raiseIf_eq_ok,
      raiseIf_eq_ok, boundedItems_eq_ok, Nat.not_lt, Nat.not_lt, and_assoc]
    exact and_congr Iff.rfl (and_congr Iff.rfl (forall₂_congr fun item hitem => ih item hitem))
  | object members ih =>
    rw [bounded, Document.accepts_object, unit_bind_eq_ok, unit_bind_eq_ok, raiseIf_eq_ok,
      raiseIf_eq_ok, boundedMembers_eq_ok, Nat.not_lt, Nat.not_lt, and_assoc, and_assoc]
    refine and_congr Iff.rfl (and_congr Iff.rfl ?_)
    have hkeys : (rules : Rules Text (Number F)).keys (members.map Prod.fst) = true := rfl
    rw [and_iff_right hkeys]
    exact forall₂_congr fun member hmember => and_congr text_eq_ok (ih member hmember)

/-- What is read is strict, short and bounded. -/
theorem loads_eq_ok {data : Bytes} {maximum : ℕ} {value : Value F} :
    loads data maximum = .ok value ↔ (0 < data.length ∧ data.length ≤ maximum) ∧
      (∃ text, decode data = some text ∧ readBy strict text = some value) ∧
        value.accepts limits rules 0 = true := by
  rw [loads, unit_bind_eq_ok, raiseIf_eq_ok, not_not, orRaise_bind_eq_ok]
  refine and_congr Iff.rfl ⟨?_, ?_⟩
  · rintro ⟨found, hfound, hchecked⟩
    obtain ⟨hbounded, hsame⟩ := unit_bind_eq_ok.mp hchecked
    obtain rfl := Except.ok.inj hsame
    exact ⟨Option.bind_eq_some_iff.mp hfound, bounded_eq_ok.mp hbounded⟩
  · rintro ⟨hfound, hbounded⟩
    refine ⟨value, Option.bind_eq_some_iff.mpr hfound, ?_⟩
    rw [bounded_eq_ok.mpr hbounded]
    rfl

/-- `loads` returns the value for some data. -/
def Loaded (value : Value F) : Prop := ∃ data maximum, loads data maximum = .ok value

theorem Loaded.accepts {value : Value F} (h : Loaded value) :
    value.accepts limits rules 0 = true := by
  obtain ⟨data, maximum, h⟩ := h
  exact (loads_eq_ok.mp h).2.2

/-- `dumps` refuses what was loaded only when its encoding is too long. -/
theorem Loaded.dumps_eq_ok {value : Value F} (h : Loaded value) {bytes : Bytes} :
    dumps value = .ok bytes ↔ Utf8.encode (write compact (sorted value)) = some bytes ∧
      bytes.length ≤ MAX_JSON := by
  rw [dumps, bounded_eq_ok.mpr h.accepts, ok_bind, orRaise_bind_eq_ok]
  constructor
  · rintro ⟨found, hfound, hchecked⟩
    obtain ⟨hlength, hsame⟩ := unit_bind_eq_ok.mp hchecked
    obtain rfl := Except.ok.inj hsame
    exact ⟨hfound, Nat.not_lt.mp (raiseIf_eq_ok.mp hlength)⟩
  · rintro ⟨hfound, hlength⟩
    refine ⟨bytes, hfound, ?_⟩
    rw [unit_bind_eq_ok, raiseIf_eq_ok]
    exact ⟨Nat.not_lt.mpr hlength, rfl⟩

section Codec

variable [DecidableEq F] {value : Value F}

/-- A number that is exact is read back. -/
theorem legible_of_exact {number : Number F} (h : number.exact = true) : legible number = true := by
  cases number with
  | int value =>
    have hlegible := legible_int value
    simp only [legible, Bool.and_eq_true, beq_iff_eq] at hlegible ⊢
    refine ⟨hlegible.1, ?_⟩
    show (readLiteral (Numeral.print (Literal.int value))).map _ = _
    rw [readLiteral_int]
    rfl
  | float value =>
    have hreal := Floats.repr_real value h
    simp only [legible, Bool.and_eq_true, Bool.not_eq_true', beq_iff_eq]
    refine ⟨⟨?_, Floats.repr_numeric value h⟩, ?_⟩
    · -- No number has an empty text.
      show (Floats.repr value).isEmpty = false
      rw [List.isEmpty_eq_false_iff]
      intro hempty
      rw [hempty] at hreal
      exact absurd hreal (by decide)
    · show (readLiteral (Floats.repr value)).map _ = _
      rw [hreal]
      exact congrArg some (congrArg Number.float (Floats.parse_repr value h))

/-- What `loads` returns can be written and read back. -/
theorem Loaded.settled (h : Loaded value) : value.every settled = true := by
  obtain ⟨data, maximum, h⟩ := h
  obtain ⟨-, ⟨text, hdecode, hread⟩, haccepts⟩ := loads_eq_ok.mp h
  have hsound : value.every (sound fun _ => true) = true :=
    readBy_every (fun _ _ _ => rfl) (whole_decode hdecode) hread
  have hboth := Document.every_and.mpr ⟨hsound, Document.every_of_accepts haccepts⟩
  refine Document.every_mono hboth ?_ ?_ ?_ ?_
  · exact fun _ htext => (Bool.and_eq_true_iff.mp htext).1
  · exact fun _ hkey => (Bool.and_eq_true_iff.mp hkey).1
  · exact fun number (hnumber : (true && number.exact) = true) =>
      legible_of_exact (Bool.and_eq_true_iff.mp hnumber).2
  · exact fun _ _ hkeys => (Bool.and_eq_true_iff.mp hkeys).1

/-- The text that `dumps` makes of a value has bytes. -/
theorem encode_of_settled (h : value.every settled = true) :
    ∃ bytes, encode (write compact value) = some bytes ∧ 0 < bytes.length := by
  have hwhole : whole (write compact value) = true := whole_write rfl h
  refine ⟨_, if_pos hwhole, ?_⟩
  obtain ⟨c, left, hwrite, -⟩ := write_eq_cons compact h
  -- A code point has at least one byte.
  have hsequence : 0 < (sequence c).length := by
    rw [Utf8.sequence]
    split_ifs <;> exact Nat.succ_pos _
  rw [hwrite, List.flatMap_cons, List.length_append]
  omega

/-- What was read can be written. -/
theorem Loaded.encode (h : Loaded value) :
    ∃ bytes, encode (write compact (sorted value)) = some bytes ∧ 0 < bytes.length :=
  encode_of_settled (every_sorted nodup_keys h.settled)

/-- A value that can be written and read back is loaded from its text. -/
theorem loaded_of_settled (hsettled : value.every settled = true)
    (haccepts : value.accepts limits rules 0 = true) : Loaded value := by
  obtain ⟨bytes, hencode, hpos⟩ := encode_of_settled hsettled
  have hread : readBy strict (write compact value) = some value :=
    readBy_write (fun members hnodup => if_pos hnodup) hsettled
  exact ⟨bytes, bytes.length,
    loads_eq_ok.mpr ⟨⟨hpos, le_rfl⟩, ⟨_, decode_encode hencode, hread⟩, haccepts⟩⟩

/-- What was loaded is loaded again from its encoding, with sorted keys. -/
theorem loads_dumps (h : Loaded value) {bytes : Bytes} (hdumps : dumps value = .ok bytes) :
    loads bytes MAX_JSON = .ok (sorted value) := by
  obtain ⟨hencode, hlength⟩ := h.dumps_eq_ok.mp hdumps
  obtain ⟨bytes', hencode', hpos⟩ := h.encode
  obtain rfl : bytes' = bytes := Option.some.inj (hencode'.symm.trans hencode)
  refine loads_eq_ok.mpr ⟨⟨hpos, hlength⟩, ⟨_, decode_encode hencode, ?_⟩, ?_⟩
  · exact readBy_sorted h.settled
  · exact accepts_sorted (fun _ _ => rfl) h.accepts

/-! ### Frames that were written -/

/-- A dictionary that was loaded. -/
structure Message (value : Value F) : Prop where
  loaded : Loaded value
  object : ∃ members, value = .object members

/-- A frame is read back, and the rest of the data is read after it. -/
theorem framesFrom_frame (h : Message value) {bytes : Bytes} (hframe : frame value = .ok bytes)
    (count : ℕ) (rest : Bytes) :
    framesFrom (count + 1) (bytes ++ rest) =
      (do let result ← framesFrom count rest; return sorted value :: result) := by
  obtain ⟨payload, hdumps, rfl⟩ := frame_eq_ok.mp hframe
  obtain ⟨hencode, hlength⟩ := h.loaded.dumps_eq_ok.mp hdumps
  obtain ⟨payload', hencode', hpos⟩ := h.loaded.encode
  obtain rfl : payload' = payload := Option.some.inj (hencode'.symm.trans hencode)
  have hmax : MAX_JSON < 4294967296 := by decide
  have hunpack := unpack_pack (lt_of_le_of_lt hlength hmax) (payload' ++ rest)
  have hdrop : (pack payload'.length ++ (payload' ++ rest)).drop 4 = payload' ++ rest := rfl
  have hlong : ¬(pack payload'.length ++ (payload' ++ rest)).length < 4 := by
    rw [List.length_append]
    exact Nat.not_lt.mpr (Nat.le_add_right 4 _)
  have hfits : ¬(¬(0 < payload'.length ∧ payload'.length ≤ MAX_JSON) ∨
      (payload' ++ rest).length < payload'.length) := by
    rw [List.length_append]
    omega
  have hne : pack payload'.length ++ (payload' ++ rest) ≠ [] := List.cons_ne_nil _ _
  obtain ⟨members, hmembers⟩ := h.object
  rw [List.append_assoc, framesFrom_cons hne, hunpack, hdrop, List.take_left,
    List.drop_left, raiseIf, if_neg hlong, ok_bind, raiseIf, if_neg hfits, ok_bind,
    loads_dumps h.loaded hdumps, ok_bind, hmembers, sorted_object]

omit [DecidableEq F] in
/-- A part of a frame is refused. -/
theorem framesFrom_part (h : Message value) {bytes part : Bytes}
    (hframe : frame value = .ok bytes) (hpart : part <+: bytes) (hne : part ≠ [])
    (hproper : part ≠ bytes) (count : ℕ) :
    ∃ error, framesFrom (F := F) (count + 1) part = .error error := by
  obtain ⟨payload, hdumps, rfl⟩ := frame_eq_ok.mp hframe
  obtain ⟨-, hlength⟩ := h.loaded.dumps_eq_ok.mp hdumps
  rw [framesFrom_cons hne]
  by_cases hshort : part.length < 4
  · rw [raiseIf, if_pos hshort]
    exact ⟨_, rfl⟩
  · -- The length has been read, and there is less than it says.
    obtain ⟨missing, hmissing⟩ := hpart
    have hfront : part.take 4 = pack payload.length := by
      have htake := congrArg (List.take 4) hmissing
      rwa [List.take_append_of_le_length (by omega)] at htake
    have hunpack : unpack part = payload.length := by
      have hmax : MAX_JSON < 4294967296 := by decide
      rw [← unpack_pack (lt_of_le_of_lt hlength hmax) payload, unpack, hfront]
      rfl
    have hless : (part.drop 4).length < unpack part := by
      have htotal := congrArg List.length hmissing
      have hmore : missing ≠ [] := by
        rintro rfl
        exact hproper (by rwa [List.append_nil] at hmissing)
      have hpos := List.length_pos_iff.mpr hmore
      have hpack : (pack payload.length).length = 4 := rfl
      rw [List.length_append, List.length_append, hpack] at htotal
      rw [List.length_drop, hunpack]
      omega
    rw [raiseIf, if_neg hshort, ok_bind, raiseIf, if_pos (Or.inr hless)]
    exact ⟨_, rfl⟩

/-- Frames are read back, and a part of them that does not end with a frame is refused. -/
theorem framesFrom_encodings {values : List (Value F)} (h : ∀ value ∈ values, Message value)
    {encodings : List Bytes} (hframes : values.mapM frame = .ok encodings) {count : ℕ}
    (hcount : values.length ≤ count) :
    framesFrom count encodings.flatten = .ok (values.map sorted) ∧
      ∀ part, part <+: encodings.flatten → (∀ k, part ≠ (encodings.take k).flatten) →
        ∃ error, framesFrom (F := F) count part = .error error := by
  induction values generalizing count encodings with
  | nil =>
    obtain rfl := Except.ok.inj hframes
    refine ⟨by cases count <;> rfl, fun part hpart hends => ?_⟩
    exact absurd (List.prefix_nil.mp hpart) (hends 0)
  | cons value values ih =>
    simp only [List.mapM_cons, bind_eq_ok, pure, Except.pure, Except.ok.injEq] at hframes
    obtain ⟨bytes, hframe, others, hothers, rfl⟩ := hframes
    obtain _ | count := count
    · cases hcount
    have hvalue := h value List.mem_cons_self
    obtain ⟨hread, hparts⟩ := ih (fun other hmem => h other (List.mem_cons_of_mem _ hmem)) hothers
      (Nat.le_of_succ_le_succ hcount)
    rw [List.flatten_cons]
    refine ⟨?_, fun part hpart hends => ?_⟩
    · rw [framesFrom_frame hvalue hframe, hread]
      rfl
    · -- The part ends inside of the first frame, or it goes on behind it.
      obtain hinside | ⟨behind, rfl, hbehind⟩ : part <+: bytes ∨
          ∃ behind, part = bytes ++ behind ∧ behind <+: others.flatten := by
        obtain hle | hle := List.prefix_or_prefix_of_prefix hpart (List.prefix_append _ _)
        · exact .inl hle
        · obtain ⟨behind, rfl⟩ := hle
          exact .inr ⟨behind, rfl, (List.prefix_append_right_inj bytes).mp hpart⟩
      · have hempty : part ≠ [] := hends 0
        have hwhole : part ≠ bytes := by
          have hone := hends 1
          rwa [List.take_succ_cons, List.take_zero, List.flatten_cons, List.flatten_nil,
            List.append_nil] at hone
        exact framesFrom_part hvalue hframe hinside hempty hwhole count
      · have hlater : ∀ k, behind ≠ (others.take k).flatten := by
          intro k hsame
          refine hends (k + 1) ?_
          rw [List.take_succ_cons, List.flatten_cons, hsame]
        obtain ⟨error, herror⟩ := hparts behind hbehind hlater
        rw [framesFrom_frame hvalue hframe, herror]
        exact ⟨error, rfl⟩

end Codec

/-! ### Matching results with targets -/

section Matching

omit [Floats F]

/-- The target that an item of a reply names. -/
def targetOf : Value F → Option Text
  | .object members =>
    match field members "target" with
    | some (.text target) => some target
    | _ => none
  | _ => none

theorem fields_eq_ok {value : Value F} {required optional : List String}
    {members : List (Text × Value F)} (h : fields value required optional = .ok members) :
    value = .object members := by
  rw [fields.eq_def] at h
  split at h
  · split_ifs at h
    rw [Except.ok.inj h]
  · cases h

theorem textOf_eq_ok {value : Option (Value F)} {maximum : ℕ} {found : Text}
    (h : textOf value maximum = .ok found) : value = some (.text found) := by
  rw [textOf.eq_def] at h
  split at h
  · split_ifs at h
    rw [Except.ok.inj h]
  · cases h

variable {byTarget : List (Text × Value F)} {item : Value F} {targets : List Text}

/-- What a round of the loop does. -/
theorem result_eq_ok {next : List (Text × Value F)} (h : result targets byTarget item = .ok next) :
    ∃ target, next = (target, item) :: byTarget ∧ targetOf item = some target ∧
      target ∈ targets ∧ target ∉ byTarget.map Prod.fst := by
  rw [result] at h
  obtain ⟨members, hmembers, h⟩ := bind_eq_ok.mp h
  obtain ⟨target, htarget, h⟩ := bind_eq_ok.mp h
  obtain ⟨houtcome, h⟩ := unit_bind_eq_ok.mp h
  rw [raiseIf_eq_ok, not_or, not_or, not_not] at houtcome
  have hnext : next = (target, item) :: byTarget := by
    split at h
    · obtain ⟨error, -, h⟩ := bind_eq_ok.mp h
      obtain ⟨-, h⟩ := unit_bind_eq_ok.mp h
      obtain ⟨-, -, h⟩ := bind_eq_ok.mp h
      exact (Except.ok.inj h).symm
    · exact (Except.ok.inj h).symm
  refine ⟨target, hnext, ?_, houtcome.1, houtcome.2.1⟩
  rw [fields_eq_ok hmembers, targetOf, textOf_eq_ok htarget]

/-- What the loop has kept after some of the items. -/
structure Kept (targets : List Text) (done : List (Value F)) (byTarget : List (Text × Value F)) :
    Prop where
  items : byTarget.map Prod.snd = done.reverse
  unique : (byTarget.map Prod.fst).Nodup
  requested : byTarget.map Prod.fst ⊆ targets
  named : ∀ entry ∈ byTarget, targetOf entry.2 = some entry.1

/-- One more result keeps the table. -/
theorem Kept.result {done : List (Value F)} {next : List (Text × Value F)}
    (h : Kept targets done byTarget) (hresult : result targets byTarget item = .ok next) :
    Kept targets (done ++ [item]) next := by
  obtain ⟨target, rfl, hnamed, hrequested, hnew⟩ := result_eq_ok hresult
  refine ⟨?_, ?_, ?_, ?_⟩
  · rw [List.map_cons, h.items, List.reverse_append]
    rfl
  · rw [List.map_cons, List.nodup_cons]
    exact ⟨hnew, h.unique⟩
  · rw [List.map_cons, List.cons_subset]
    exact ⟨hrequested, h.requested⟩
  · exact List.forall_mem_cons.mpr ⟨hnamed, h.named⟩

/-- The results are kept under their targets. -/
theorem kept_foldlM {items : List (Value F)} (h : items.foldlM (result targets) [] = .ok byTarget) :
    Kept targets items byTarget := by
  have hstart : Kept (F := F) targets [] [] :=
    ⟨rfl, List.nodup_nil, List.nil_subset _, fun _ hmem => (nomatch hmem)⟩
  exact foldlM_ok_induction (fun _ _ _ _ hkept => hkept.result) hstart h

/-- Each target has one of the items, since there are as many items as targets. -/
theorem Kept.perm {items : List (Value F)} (h : Kept targets items byTarget)
    (hcount : items.length = targets.length) : (byTarget.map Prod.fst).Perm targets := by
  refine (List.subperm_of_subset h.unique h.requested).perm_of_length_le ?_
  have hitems := congrArg List.length h.items
  rw [List.length_map, List.length_reverse] at hitems
  rw [List.length_map]
  omega

theorem mapM_orRaise {α ε : Type} {entries : List (Text × α)} {missing : ε} (g : Text → α)
    (h : ∀ target ∈ targets, entries.lookup target = some (g target)) :
    targets.mapM (fun target => orRaise (entries.lookup target) missing) =
      .ok (targets.map g) := by
  induction targets with
  | nil => rfl
  | cons target targets ih =>
    rw [List.mapM_cons, h target List.mem_cons_self,
      ih fun other hmem => h other (List.mem_cons_of_mem _ hmem)]
    rfl

/-- What `batch_results` returns when its loop ends, in the order of the targets. -/
theorem Kept.mapM {items : List (Value F)} (h : Kept targets items byTarget)
    (hcount : items.length = targets.length) :
    ∃ results : List (Value F),
      targets.mapM (fun target => orRaise (byTarget.lookup target) Fault.key) = .ok results ∧
        results.map targetOf = targets.map some ∧ results.Perm items := by
  have hperm := h.perm hcount
  let g (target : Text) : Value F := (byTarget.lookup target).getD .null
  -- The entry of a key is the one that a lookup finds.
  have hentry (entry : Text × Value F) (hmem : entry ∈ byTarget) :
      byTarget.lookup entry.1 = some entry.2 := (lookup_eq_some_iff_mem h.unique).mpr hmem
  have hlookup : ∀ target ∈ targets, byTarget.lookup target = some (g target) ∧
      targetOf (g target) = some target := by
    intro target htarget
    obtain ⟨entry, hmem, rfl⟩ := List.mem_map.mp (hperm.mem_iff.mpr htarget)
    have hg : g entry.1 = entry.2 := by
      show (byTarget.lookup entry.1).getD .null = entry.2
      rw [hentry entry hmem]
      rfl
    rw [hg]
    exact ⟨hentry entry hmem, h.named entry hmem⟩
  refine ⟨targets.map g, mapM_orRaise g fun target ht => (hlookup target ht).1, ?_, ?_⟩
  · rw [List.map_map]
    exact List.map_congr_left fun target ht => (hlookup target ht).2
  · have hvalues : (byTarget.map Prod.fst).map g = byTarget.map Prod.snd := by
      rw [List.map_map]
      refine List.map_congr_left fun entry hmem => ?_
      show (byTarget.lookup entry.1).getD .null = entry.2
      rw [hentry entry hmem]
      rfl
    have hresults : (targets.map g).Perm items.reverse := by
      rw [← h.items, ← hvalues]
      exact (hperm.map g).symm
    exact hresults.trans (List.reverse_perm items)

/-- The results are those of the targets, in their order. -/
theorem batchResults_eq_ok {items : Value F} {results : List (Value F)}
    (h : batchResults items targets = .ok results) :
    results.map targetOf = targets.map some ∧
      ∃ given, items = .list given ∧ results.Perm given := by
  rw [batchResults.eq_def] at h
  split at h
  · next given =>
    obtain ⟨hcount, h⟩ := unit_bind_eq_ok.mp h
    rw [raiseIf_eq_ok, not_not] at hcount
    obtain ⟨byTarget, hfold, h⟩ := bind_eq_ok.mp h
    obtain ⟨found, hfound, hnamed, hperm⟩ := (kept_foldlM hfold).mapM hcount
    obtain rfl := Except.ok.inj (hfound.symm.trans h)
    exact ⟨hnamed, given, rfl, hperm⟩
  · cases h

theorem fields_ne_key {value : Value F} {required optional : List String} :
    fields value required optional ≠ .error .key := by
  rw [fields.eq_def]
  split
  · split_ifs <;> exact nofun
  · exact nofun

theorem textOf_ne_key {value : Option (Value F)} {maximum : ℕ} :
    textOf value maximum ≠ .error .key := by
  rw [textOf.eq_def]
  split
  · split_ifs <;> exact nofun
  · exact nofun

theorem identifier_ne_key {value : Option (Value F)} : identifier value ≠ .error .key := by
  rw [identifier.eq_def]
  split
  · rw [Ne, raiseIf_eq_error]
    exact fun h => Fault.noConfusion h.2
  · exact nofun

/-- No result fails with a missing key. -/
theorem result_ne_key :
    result targets byTarget item ≠ .error .key := by
  intro h
  rw [result] at h
  obtain h | ⟨members, -, h⟩ := bind_eq_error.mp h
  · exact fields_ne_key h
  obtain h | ⟨target, -, h⟩ := bind_eq_error.mp h
  · exact textOf_ne_key h
  obtain h | ⟨-, -, h⟩ := bind_eq_error.mp h
  · exact Fault.noConfusion (raiseIf_eq_error.mp h).2
  split at h
  · obtain h | ⟨error, -, h⟩ := bind_eq_error.mp h
    · exact fields_ne_key h
    obtain h | ⟨-, -, h⟩ := bind_eq_error.mp h
    · exact identifier_ne_key h
    obtain h | ⟨-, -, h⟩ := bind_eq_error.mp h
    · exact textOf_ne_key h
    · cases h
  · cases h

theorem foldlM_ne_key {items : List (Value F)} :
    items.foldlM (result targets) byTarget ≠ .error .key := by
  induction items generalizing byTarget with
  | nil => exact nofun
  | cons item items ih =>
    rw [List.foldlM_cons]
    intro h
    obtain h | ⟨next, -, h⟩ := bind_eq_error.mp h
    · exact result_ne_key h
    · exact ih h

/-- Every target is found after the loop. -/
theorem batchResults_ne_key {items : Value F} :
    batchResults items targets ≠ .error .key := by
  intro h
  rw [batchResults.eq_def] at h
  split at h
  · next given =>
    obtain h | ⟨_, hcount, h⟩ := bind_eq_error.mp h
    · exact Fault.noConfusion (raiseIf_eq_error.mp h).2
    rw [raiseIf_eq_ok, not_not] at hcount
    obtain h | ⟨byTarget, hfold, h⟩ := bind_eq_error.mp h
    · exact foldlM_ne_key h
    · obtain ⟨found, hfound, -⟩ := (kept_foldlM hfold).mapM hcount
      rw [hfound] at h
      cases h
  · cases h

end Matching

/-! ### The codec -/

section Codec

variable [DecidableEq F]

omit [DecidableEq F] in
/-- No frame is longer than the bound allows. -/
theorem length_encodings {values : List (Value F)} (h : ∀ value ∈ values, Message value)
    {encodings : List Bytes} (hframes : values.mapM frame = .ok encodings) :
    encodings.flatten.length ≤ values.length * (MAX_JSON + 4) := by
  induction values generalizing encodings with
  | nil =>
    obtain rfl := Except.ok.inj hframes
    exact Nat.zero_le _
  | cons value values ih =>
    simp only [List.mapM_cons, bind_eq_ok, pure, Except.pure, Except.ok.injEq] at hframes
    obtain ⟨bytes, hframe, others, hothers, rfl⟩ := hframes
    obtain ⟨payload, hdumps, rfl⟩ := frame_eq_ok.mp hframe
    obtain ⟨-, hlength⟩ := (h value List.mem_cons_self).loaded.dumps_eq_ok.mp hdumps
    have hlater := ih (fun other hmem => h other (List.mem_cons_of_mem _ hmem)) hothers
    have hpack : (pack payload.length).length = 4 := rfl
    rw [List.flatten_cons, List.length_append, List.length_append, hpack, List.length_cons,
      Nat.succ_mul]
    omega

/-- What was loaded is loaded again from its encoding, which no other value has, and frames are read
back whole or refused. A batch has one result for each target, in the order of the targets. -/
theorem frame_codec :
    (∀ value : Value F, Loaded value → ∃ bytes,
      Utf8.encode (write compact (sorted value)) = some bytes ∧
        (bytes.length ≤ MAX_JSON → dumps value = .ok bytes ∧
          ∃ again, loads bytes MAX_JSON = .ok again ∧ Same again value)) ∧
    (∀ (first second : Value F) (bytes : Bytes), Loaded first → Loaded second →
      dumps first = .ok bytes → dumps second = .ok bytes → Same first second) ∧
    (∀ (values : List (Value F)) (encodings : List Bytes), values.length ≤ 2 →
      (∀ value ∈ values, Message value) → values.mapM frame = .ok encodings →
        (∃ found, frames encodings.flatten = .ok found ∧ List.Forall₂ Same found values) ∧
          ∀ part, part <+: encodings.flatten → part ≠ [] →
            (∀ k, part ≠ (encodings.take k).flatten) →
              ∃ error, frames (F := F) part = .error error) ∧
    ∀ (items : Value F) (targets : List Text),
      (∃ error, batchResults items targets = .error (.failure error)) ∨
        ∃ results, batchResults items targets = .ok results ∧
          results.map targetOf = targets.map some ∧
            ∃ given, items = .list given ∧ results.Perm given := by
  refine ⟨fun value h => ?_, fun first second bytes hfirst hsecond hdumps hdumps' => ?_,
    fun values encodings hcount h hframes => ⟨?_, fun part hpart _ hends => ?_⟩,
    fun items targets => ?_⟩
  · obtain ⟨bytes, hencode, -⟩ := h.encode
    refine ⟨bytes, hencode, fun hlength => ?_⟩
    have hdumps := h.dumps_eq_ok.mpr ⟨hencode, hlength⟩
    exact ⟨hdumps, _, loads_dumps h hdumps, sorted_sorted value⟩
  · have hsame := (loads_dumps hfirst hdumps).symm.trans (loads_dumps hsecond hdumps')
    exact Except.ok.inj hsame
  · have hlength := length_encodings h hframes
    have hmax : ¬MAX_OUTPUT < encodings.flatten.length := by
      rw [MAX_OUTPUT, Nat.not_lt]
      exact hlength.trans (Nat.mul_le_mul_right _ hcount)
    refine ⟨values.map sorted, ?_, ?_⟩
    · rw [frames, raiseIf, if_neg hmax, ok_bind]
      exact (framesFrom_encodings h hframes hcount).1
    · rw [List.forall₂_map_left_iff]
      exact List.forall₂_same.mpr fun value _ => sorted_sorted value
  · rw [frames]
    by_cases hmax : MAX_OUTPUT < part.length
    · rw [raiseIf, if_pos hmax]
      exact ⟨_, rfl⟩
    · rw [raiseIf, if_neg hmax, ok_bind]
      exact (framesFrom_encodings h hframes hcount).2 part hpart hends
  · cases hresults : batchResults items targets with
    | error fault =>
      cases fault with
      | failure error => exact .inl ⟨error, rfl⟩
      | key => exact absurd hresults batchResults_ne_key
    | ok results => exact .inr ⟨results, rfl, batchResults_eq_ok hresults⟩

end Codec

/-- Floats that are kept as the text that Python prints them as. -/
structure Printed where
  text : Text
deriving DecidableEq

instance : Floats Printed where
  parse text := ⟨text⟩
  finite value := readLiteral value.text = some (.real value.text) ∧ value.text.all numeric = true
  repr value := value.text
  repr_real _ h := (of_decide_eq_true h).1
  repr_numeric _ h := (of_decide_eq_true h).2
  parse_repr _ _ := rfl

/-- A dictionary with its keys out of order. -/
def settings : Value Printed :=
  .object [(points "size", .number (.float ⟨points "1.5"⟩)), (points "color", .list [.null])]

theorem message_settings : Message settings := by
  have hsettled : settings.every settled = true := by decide +kernel
  have haccepts : settings.accepts limits rules 0 = true := by decide +kernel
  exact ⟨loaded_of_settled hsettled haccepts, _, rfl⟩

/-- The keys come in order when the dictionary is loaded again, and two frames of it are read, but not
a part of them. -/
theorem codec_settings :
    let bytes := (points "\x7b\"color\":[null],\"size\":1.5\x7d").flatMap sequence
    let encoded := pack bytes.length ++ bytes
    (∃ again, loads bytes MAX_JSON = .ok again ∧ Same again settings) ∧
      (∀ second : Value Printed, Loaded second → dumps second = .ok bytes → Same settings second) ∧
      (∃ found, frames (encoded ++ encoded) = .ok found ∧
        List.Forall₂ Same found [settings, settings]) ∧
      ∃ error, frames (F := Printed) ((encoded ++ encoded).take 40) = .error error := by
  intro bytes encoded
  have hencode : Utf8.encode (write compact (sorted settings)) = some bytes := by decide +kernel
  have hshort : bytes.length ≤ MAX_JSON := by decide +kernel
  have hloaded := message_settings.loaded
  have hmessages : ∀ value ∈ [settings, settings], Message value := by
    simp [message_settings]
  obtain ⟨bytes', hencode', hload⟩ := frame_codec.1 settings hloaded
  obtain rfl : bytes' = bytes := Option.some.inj (hencode'.symm.trans hencode)
  obtain ⟨hdumps, hagain⟩ := hload hshort
  have hframe : frame settings = .ok encoded := frame_eq_ok.mpr ⟨_, hdumps, rfl⟩
  have hframes : [settings, settings].mapM frame = .ok [encoded, encoded] := by
    rw [List.mapM_cons, hframe, ok_bind, List.mapM_cons, hframe]
    rfl
  obtain ⟨hfound, hparts⟩ := frame_codec.2.2.1 _ _ (by decide) hmessages hframes
  refine ⟨hagain, ?_, ?_, ?_⟩
  · exact fun second hsecond => frame_codec.2.1 settings second _ hloaded hsecond hdumps
  · simpa using hfound
  · have htotal : [encoded, encoded].flatten = encoded ++ encoded := by
      rw [List.flatten_cons, List.flatten_cons, List.flatten_nil, List.append_nil]
    refine hparts _ (htotal ▸ List.take_prefix _ _) (by decide +kernel) fun k => ?_
    -- The part is longer than one frame and shorter than two.
    intro hsame
    have hlength := congrArg List.length hsame
    obtain _ | _ | k := k
    · exact absurd hlength (by decide +kernel)
    · exact absurd hlength (by decide +kernel)
    · have hboth : [encoded, encoded].take (k + 1 + 1) = [encoded, encoded] :=
        List.take_of_length_le (Nat.le_add_left 2 k)
      rw [hboth] at hlength
      exact absurd hlength (by decide +kernel)

end Ficc.Modules.Frames
