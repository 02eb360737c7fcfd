import Ficc.Foundations.JsonText
import Ficc.Foundations.Raising
import Mathlib.Algebra.Order.Ring.Rat

/-!
# The bodies of bus messages

A message is checked twice: by the node before it goes into the outbox of an agent
(`AgentMessage.validate`), and by the controller before it is stored (`BusSchema.validate`). The
two are written apart, each with its own table of fields. The controller knows more: the identity
of the message, which a finding may name, and the earlier messages, one of which a reply names.
Apart from that the two accept the same bodies (`BusSchema.validate_iff`).

The body is what a JSON reader returns, so its texts may have halves of surrogate pairs and its
numbers may be infinite or no numbers at all.
-/

namespace Ficc.Bus

open Utf8 JsonText

/-- The exceptions of the validators. -/
inductive Refusal
  | value (text : String)
  /-- An unhashable value is looked up in a set. -/
  | type
  | key
  /-- An integer is too large for a float. -/
  | overflow
deriving DecidableEq

/-- A number. A float comes with the text that it is written as. -/
inductive Number
  | int (value : ℤ)
  | float (value : ℚ) (text : Text)
  | nan
  | infinity (negative : Bool)

/-- A JSON value. -/
abbrev Value := Document Text Number

/-- The decimal digits of an integer. -/
def digits (value : ℤ) : Text :=
  (if value < 0 then [45] else []) ++ (Nat.toDigits 10 value.natAbs).map point

instance : Numeral Number where
  print
    | .int value => digits value
    | .float _ text => text
    | .nan => points "NaN"
    | .infinity negative => points (if negative then "-Infinity" else "Infinity")
  -- The validators write and do not read.
  parse _ := none

/-- The most digits of an integer that is written. -/
def maxStrDigits : ℕ := 4300

/-- The number can be written: it is finite, and an integer does not have too many digits. -/
def printable : Number → Bool
  | .int value => value.natAbs < 10 ^ maxStrDigits
  | .float _ _ => true
  | .nan => false
  | .infinity _ => false

/-- What can be written of a value. -/
def writable : Document.Rules Text Number :=
  { (Document.Rules.any : Document.Rules Text Number) with number := printable }

/-- `json.dumps` with `ensure_ascii=False` and `allow_nan=False`. -/
def dumps (value : Value) : Except Refusal Text := do
  raiseIf (Document.every writable value = false)
    (.value "Out of range float values are not JSON compliant")
  .ok (write ⟨false, 1⟩ value)

/-- `str.encode`. -/
def encode (text : Text) : Except Refusal (List UInt8) :=
  orRaise (Utf8.encode text) (.value "surrogates not allowed")

/-- `math.isfinite`. The bound is the first integer that is rounded to no float. -/
def isfinite : Number → Except Refusal Bool
  | .int value =>
    if 2 ^ 1024 - 2 ^ 970 ≤ value.natAbs then .error .overflow else .ok true
  | .float _ _ => .ok true
  | .nan => .ok false
  | .infinity _ => .ok false

/-- The number is between zero and one. -/
def unit : Number → Bool
  | .int value => 0 ≤ value ∧ value ≤ 1
  | .float value _ => 0 ≤ value ∧ value ≤ 1
  | .nan => false
  | .infinity _ => false

/-- The value of a member. -/
def get (members : List (Text × Value)) (name : String) : Option Value :=
  members.lookup (points name)

/-- The value is one of these texts. -/
def isOneOf (value : Option Value) (texts : List String) : Bool :=
  match value with
  | some (.text text) => text ∈ texts.map points
  | _ => false

/-- An item of a list of references. -/
def isReference : Value → Bool
  | .text text => text.length ≤ 2048
  | _ => false

/-- What a field of a body may be. Both validators run this in their loop over the members. -/
def checkField (name : Text) (value : Value) : Except Refusal Unit :=
  if name ∈ ["score", "confidence"].map points then
    match value with
    | .number value => do
      let finite ← isfinite value
      raiseIf (finite = false ∨ unit value = false) (.value "The bus score is invalid.")
    | _ => .error (.value "The bus score is invalid.")
  else if name = points "refs" then
    match value with
    | .list items =>
      raiseIf (32 < items.length ∨ items.any (fun item => !isReference item) = true)
        (.value "The bus references are invalid.")
    | _ => .error (.value "The bus references are invalid.")
  else
    match value with
    | .text text => raiseIf (text = [] ∨ 0 ∈ text) (.value "The bus text is invalid.")
    | _ => .error (.value "The bus text is invalid.")

/-- The required and the allowed fields of a kind of message. -/
abbrev Fields := List String × List String

/-- The body has the required fields and no others than the allowed ones. -/
def hasFields (fields : Fields) (members : List (Text × Value)) : Prop :=
  (∀ name ∈ fields.1, points name ∈ members.map Prod.fst) ∧
    ∀ name ∈ members.map Prod.fst, name ∈ fields.2.map points

instance (fields : Fields) (members : List (Text × Value)) : Decidable (hasFields fields members) :=
  inferInstanceAs (Decidable (_ ∧ _))

/-- The body is no longer than a message may be. -/
def checkSize (body : Value) : Except Refusal Unit := do
  let text ← dumps body
  let bytes ← encode text
  raiseIf (8192 < bytes.length) (.value "The bus message exceeds 8192 UTF-8 bytes.")

/-- The members of a body. -/
def members : Value → List (Text × Value)
  | .object found => found
  | _ => []

/-- What both validators ask of a body. -/
structure Proper (kind : Text) (fields : Fields) (found : List (Text × Value)) : Prop where
  fields : hasFields fields found
  size : checkSize (.object found) = .ok ()
  checks : ∀ member ∈ found, checkField member.1 member.2 = .ok ()
  provenance : kind = points "finding" →
    isOneOf (get found "provenance") ["computed", "fetched", "recalled", "testimony"] = true
  status : kind = points "handoff" → isOneOf (get found "status") ["draft", "ready", "blocked"] = true

end Ficc.Bus

/-! ### The node -/

namespace Ficc.Bus.AgentMessage

open Utf8 JsonText

/-- The fields of each kind of message. -/
def FIELDS : List (Text × Fields) :=
  [(points "finding", ["claim", "provenance"],
      ["id", "claim", "provenance", "evidence", "refs", "confidence"]),
    (points "rank", ["re", "score", "basis"], ["re", "score", "basis"]),
    (points "question", ["text"], ["to", "re", "text"]),
    (points "answer", ["re", "text"], ["re", "text"]),
    (points "handoff", ["path", "status"], ["path", "status", "note"]),
    (points "note", ["text"], ["text"]),
    (points "cost", ["consumed", "produced"], ["consumed", "produced"])]

/-- Refuses a body before it is put into the outbox. -/
def validate (kind body : Value) : Except Refusal Unit :=
  match kind, body with
  | .text kind, .object members => do
    let fields ← orRaise (FIELDS.lookup kind) (.value "The bus message type or body is invalid.")
    raiseIf (¬hasFields fields members)
      (.value "The bus message fields are invalid or unsupported.")
    checkSize body
    members.forM fun member => checkField member.1 member.2
    raiseIf (kind = points "finding" ∧
        isOneOf (get members "provenance") ["computed", "fetched", "recalled", "testimony"] = false)
      (.value "The finding provenance is invalid.")
    raiseIf (kind = points "handoff" ∧
        isOneOf (get members "status") ["draft", "ready", "blocked"] = false)
      (.value "The handoff status is invalid.")
  | _, _ => .error (.value "The bus message type or body is invalid.")

theorem validate_eq_ok {kind : Text} {found : List (Text × Value)} :
    validate (.text kind) (.object found) = .ok () ↔
      ∃ fields, FIELDS.lookup kind = some fields ∧ Proper kind fields found := by
  simp only [validate, orRaise_bind_eq_ok, unit_bind_eq_ok, raiseIf_eq_ok, forM_eq_ok, not_not,
    not_and, Bool.not_eq_false]
  refine exists_congr fun fields => and_congr_right fun _ => ⟨?_, fun h =>
    ⟨h.fields, h.size, h.checks, h.provenance, h.status⟩⟩
  rintro ⟨hfields, hsize, hchecks, hprovenance, hstatus⟩
  exact ⟨hfields, hsize, hchecks, hprovenance, hstatus⟩

theorem shape_of_ok {kind body : Value} (h : validate kind body = .ok ()) :
    ∃ text found, kind = .text text ∧ body = .object found := by
  unfold validate at h
  split at h
  · next text found => exact ⟨text, found, rfl, rfl⟩
  · cases h

end Ficc.Bus.AgentMessage

/-! ### The controller -/

namespace Ficc.Bus.BusSchema

open Utf8 JsonText

/-- The kinds of messages. -/
def TYPES : List Text :=
  ["finding", "rank", "question", "answer", "handoff", "note", "cost"].map points

/-- The fields of each kind of message. -/
def FIELDS : List (Text × Fields) :=
  [(points "finding", ["claim", "provenance"],
      ["id", "claim", "provenance", "evidence", "refs", "confidence"]),
    (points "rank", ["re", "score", "basis"], ["re", "score", "basis"]),
    (points "question", ["text"], ["to", "re", "text"]),
    (points "answer", ["re", "text"], ["re", "text"]),
    (points "handoff", ["path", "status"], ["path", "status", "note"]),
    (points "note", ["text"], ["text"]),
    (points "cost", ["consumed", "produced"], ["consumed", "produced"])]

/-- A stored message. -/
structure Message where
  type : Text

/-- `value in TYPES`, which hashes the value first. -/
def isType : Value → Except Refusal Bool
  | .text kind => .ok (kind ∈ TYPES)
  | .list _ => .error .type
  | .object _ => .error .type
  | _ => .ok false

/-- The body has no `id`, or this one. -/
def named (members : List (Text × Value)) (messageId : Text) : Bool :=
  match get members "id" with
  | none => true
  | some (.text found) => found = messageId
  | some _ => false

/-- The body names no earlier message, or one that a message of its kind may name. -/
def permitted (kind : Text) (members : List (Text × Value)) (previous : List (Text × Message)) :
    Bool :=
  match get members "re" with
  | none => true
  | some (.text reference) =>
    match previous.lookup reference with
    | none => false
    | some target =>
      ¬(kind = points "rank" ∧ target.type ∉ ["finding", "handoff"].map points)
  | some _ => false

/-- `result["id"] = messageId` -/
def setId (members : List (Text × Value)) (messageId : Text) : List (Text × Value) :=
  if points "id" ∈ members.map Prod.fst then
    members.map fun member => if member.1 = points "id" then (member.1, .text messageId) else member
  else members ++ [(points "id", .text messageId)]

/-- Refuses a body before the message is stored, and returns the body that is stored. -/
def validate (kind body : Value) (messageId : Text) (previous : List (Text × Message)) :
    Except Refusal Value := do
  let known ← isType kind
  match kind, body with
  | .text kind, .object members => do
    raiseIf (known = false) (.value "The bus message type or body is invalid.")
    let fields ← orRaise (FIELDS.lookup kind) .key
    raiseIf (¬hasFields fields members)
      (.value "The bus message fields are invalid or unsupported.")
    checkSize body
    members.forM fun member => checkField member.1 member.2
    raiseIf (kind = points "finding" ∧
        (isOneOf (get members "provenance") ["computed", "fetched", "recalled", "testimony"] =
          false ∨ named members messageId = false))
      (.value "The finding identity or provenance is invalid.")
    raiseIf (kind = points "handoff" ∧
        isOneOf (get members "status") ["draft", "ready", "blocked"] = false)
      (.value "The handoff status is invalid.")
    raiseIf (permitted kind members previous = false)
      (.value "The bus reference does not identify an earlier permitted message.")
    .ok (.object (if kind = points "finding" then setId members messageId else members))
  | _, _ => .error (.value "The bus message type or body is invalid.")

/-! ### The two accept the same bodies -/

variable {found : List (Text × Value)} {messageId : Text} {previous : List (Text × Message)}

theorem named_iff :
    named found messageId = true ↔
      ∀ value, get found "id" = some value → value = .text messageId := by
  rw [named]
  cases get found "id" with
  | none => simp
  | some value => cases value <;> simp

theorem permitted_iff {kind : Text} :
    permitted kind found previous = true ↔ ∀ value, get found "re" = some value →
      ∃ reference target, value = .text reference ∧ previous.lookup reference = some target ∧
        (kind = points "rank" → target.type ∈ ["finding", "handoff"].map points) := by
  rw [permitted]
  cases get found "re" with
  | none => simp
  | some value =>
    cases value with
    | text reference =>
      cases hlookup : previous.lookup reference with
      | none => simp [hlookup]
      | some target =>
        dsimp only
        rw [hlookup]
        dsimp only
        rw [decide_eq_true_iff, not_and, not_not]
        constructor
        · rintro h _ ⟨⟩
          exact ⟨reference, target, rfl, hlookup, h⟩
        · intro h
          obtain ⟨_, found, ⟨⟩, hfound, htype⟩ := h _ rfl
          rw [hlookup] at hfound
          cases hfound
          exact htype
    | _ => simp

/-- The tables of the two validators are the same. -/
theorem FIELDS_eq : FIELDS = AgentMessage.FIELDS := rfl

theorem TYPES_eq : TYPES = FIELDS.map Prod.fst := rfl

theorem mem_map_fst_iff_lookup {α β : Type} [BEq α] [LawfulBEq α] {key : α} {pairs : List (α × β)} :
    key ∈ pairs.map Prod.fst ↔ ∃ value, pairs.lookup key = some value := by
  induction pairs with
  | nil => simp
  | cons pair pairs ih =>
    rw [List.map_cons, List.mem_cons, ih, List.lookup_cons]
    cases hkey : key == pair.1 with
    | true => simp [beq_iff_eq.mp hkey]
    | false => simp [beq_eq_false_iff_ne.mp hkey]

theorem validate_eq_ok {kind : Text} :
    (∃ result, validate (.text kind) (.object found) messageId previous = .ok result) ↔
      (∃ fields, FIELDS.lookup kind = some fields ∧ Proper kind fields found) ∧
        (kind = points "finding" → named found messageId = true) ∧
        permitted kind found previous = true := by
  simp only [validate, isType, ok_bind, orRaise_bind_eq_ok, unit_bind_eq_ok, raiseIf_eq_ok,
    forM_eq_ok, not_not, not_and, not_or, Bool.not_eq_false, decide_eq_true_eq]
  constructor
  · rintro ⟨result, hknown, fields, hlookup, hfields, hsize, hchecks, hfinding, hstatus, hpermitted, -⟩
    exact ⟨⟨fields, hlookup, hfields, hsize, hchecks, fun h => (hfinding h).1, hstatus⟩,
      fun h => (hfinding h).2, hpermitted⟩
  · rintro ⟨⟨fields, hlookup, h⟩, hnamed, hpermitted⟩
    have hknown : kind ∈ TYPES := by
      rw [TYPES_eq, mem_map_fst_iff_lookup]
      exact ⟨fields, hlookup⟩
    exact ⟨_, hknown, fields, hlookup, h.fields, h.size, h.checks,
      fun hkind => ⟨h.provenance hkind, hnamed hkind⟩, h.status, hpermitted, rfl⟩

/-- What the controller knows of a message and the node does not: a finding names no other
identity than its own, and a reply names an earlier message, a ranking one that can be ranked. -/
structure Context (kind body : Value) (messageId : Text) (previous : List (Text × Message)) :
    Prop where
  identity : kind = .text (points "finding") → ∀ value, get (members body) "id" = some value →
    value = .text messageId
  reference : ∀ value, get (members body) "re" = some value → ∃ reference target,
    value = .text reference ∧ previous.lookup reference = some target ∧
      (kind = .text (points "rank") → target.type ∈ ["finding", "handoff"].map points)

theorem shape_of_ok {kind body result : Value}
    (h : validate kind body messageId previous = .ok result) :
    ∃ text found, kind = .text text ∧ body = .object found := by
  rw [validate, bind_eq_ok] at h
  obtain ⟨known, -, h⟩ := h
  split at h
  · next text found => exact ⟨text, found, rfl, rfl⟩
  · cases h

theorem context_iff {kind : Text} :
    Context (.text kind) (.object found) messageId previous ↔
      (kind = points "finding" → named found messageId = true) ∧
        permitted kind found previous = true := by
  rw [named_iff, permitted_iff]
  constructor
  · intro h
    refine ⟨fun hkind => h.identity (congrArg _ hkind), fun value hvalue => ?_⟩
    obtain ⟨reference, target, hsame, hlookup, htype⟩ := h.reference value hvalue
    exact ⟨reference, target, hsame, hlookup, fun hkind => htype (congrArg _ hkind)⟩
  · rintro ⟨hnamed, hpermitted⟩
    refine ⟨fun hkind => hnamed (Document.text.inj hkind), fun value hvalue => ?_⟩
    obtain ⟨reference, target, hsame, hlookup, htype⟩ := hpermitted value hvalue
    exact ⟨reference, target, hsame, hlookup, fun hkind => htype (Document.text.inj hkind)⟩

/-- The controller accepts a body exactly when the node does and what only the controller knows
of the message holds. -/
theorem validate_iff (kind body : Value) (messageId : Text) (previous : List (Text × Message)) :
    (∃ result, validate kind body messageId previous = .ok result) ↔
      AgentMessage.validate kind body = .ok () ∧ Context kind body messageId previous := by
  have hshaped : ∀ text found, kind = .text text → body = .object found →
      ((∃ result, validate kind body messageId previous = .ok result) ↔
        AgentMessage.validate kind body = .ok () ∧ Context kind body messageId previous) := by
    rintro text found rfl rfl
    rw [validate_eq_ok, AgentMessage.validate_eq_ok, context_iff, FIELDS_eq]
  constructor
  · intro h
    obtain ⟨result, hresult⟩ := h
    obtain ⟨text, found, hkind, hbody⟩ := shape_of_ok hresult
    exact (hshaped text found hkind hbody).mp ⟨result, hresult⟩
  · intro h
    obtain ⟨text, found, hkind, hbody⟩ := AgentMessage.shape_of_ok h.1
    exact (hshaped text found hkind hbody).mpr h

end Ficc.Bus.BusSchema
