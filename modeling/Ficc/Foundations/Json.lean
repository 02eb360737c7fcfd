import Mathlib.Algebra.Order.BigOperators.Group.List
import Mathlib.Data.Nat.Digits.Lemmas

/-!
# JSON documents and the length of their text

A document is a tree. `fold` is the one recursion over it, and everything that is measured of a
document is an instance of it. `length` is the length of the text that a document is written as,
with `", "` and `": "` as separators, for a given cost of the characters of its strings:

* `escapedCost` counts the characters when everything outside of ASCII is escaped;
* `utf8Cost` counts the bytes when only the control characters, the quote and the backslash are.

The character `DEL` shows the difference: it is one byte, and six characters when it is escaped.
-/

namespace Ficc

/-- A number, with the text that it is written as. -/
structure Number where
  text : List Char
  finite : Bool
  zero : Bool

/-- A JSON document. -/
inductive Json
  | null
  | bool (value : Bool)
  | number (value : Number)
  | string (text : List Char)
  | array (items : List Json)
  | object (members : List (List Char × Json))

namespace Json

/-- What a recursion over documents does at each kind of node. -/
structure Algebra (β : Type) where
  null : β
  bool : Bool → β
  number : Number → β
  string : List Char → β
  array : List β → β
  object : List (List Char × β) → β

variable {β : Type}

mutual

/-- The recursion over a document. -/
def fold (algebra : Algebra β) : Json → β
  | .null => algebra.null
  | .bool value => algebra.bool value
  | .number value => algebra.number value
  | .string text => algebra.string text
  | .array items => algebra.array (foldItems algebra items)
  | .object members => algebra.object (foldMembers algebra members)

def foldItems (algebra : Algebra β) : List Json → List β
  | [] => []
  | item :: rest => fold algebra item :: foldItems algebra rest

def foldMembers (algebra : Algebra β) : List (List Char × Json) → List (List Char × β)
  | [] => []
  | (key, value) :: rest => (key, fold algebra value) :: foldMembers algebra rest

end

theorem foldItems_eq_map (algebra : Algebra β) (items : List Json) :
    foldItems algebra items = items.map (fold algebra) := by
  induction items with
  | nil => rw [foldItems, List.map_nil]
  | cons item rest ih => rw [foldItems, List.map_cons, ih]

theorem foldMembers_eq_map (algebra : Algebra β) (members : List (List Char × Json)) :
    foldMembers algebra members = members.map fun member => (member.1, fold algebra member.2) := by
  induction members with
  | nil => rw [foldMembers, List.map_nil]
  | cons member rest ih => rw [foldMembers, List.map_cons, ih]

@[simp]
theorem fold_array (algebra : Algebra β) (items : List Json) :
    fold algebra (.array items) = algebra.array (items.map (fold algebra)) := by
  rw [fold, foldItems_eq_map]

@[simp]
theorem fold_object (algebra : Algebra β) (members : List (List Char × Json)) :
    fold algebra (.object members) =
      algebra.object (members.map fun member => (member.1, fold algebra member.2)) := by
  rw [fold, foldMembers_eq_map]

/-! ### Text -/

/-- The characters with an escape of two characters: the quote, the backslash, and the control
characters `\b`, `\t`, `\n`, `\f` and `\r`. -/
def shortEscapes : List ℕ := [34, 92, 8, 9, 10, 12, 13]

/-- The characters that a character is written as when the text is ASCII. -/
def escapedCost (c : Char) : ℕ :=
  if c.toNat ∈ shortEscapes then 2
  else if 32 ≤ c.toNat ∧ c.toNat ≤ 126 then 1
  else if c.toNat < 65536 then 6
  else 12

/-- The bytes that a character is written as when only control characters are escaped. -/
def utf8Cost (c : Char) : ℕ :=
  if c.toNat ∈ shortEscapes then 2
  else if c.toNat < 32 then 6
  else c.utf8Size

/-- The length of a string with its quotes. -/
def quoted (cost : Char → ℕ) (text : List Char) : ℕ := 2 + (text.map cost).sum

/-- The text of the members or items of a container, with its brackets and separators. -/
def enclosed (lengths : List ℕ) : ℕ := 2 + 2 * (lengths.length - 1) + lengths.sum

/-- The length of the text of a document. -/
def length (cost : Char → ℕ) : Json → ℕ :=
  fold {
    null := 4
    bool := fun value => if value then 4 else 5
    number := fun value => value.text.length
    string := quoted cost
    array := enclosed
    object := fun members => enclosed (members.map fun member => quoted cost member.1 + 2 + member.2)
  }

variable {cost : Char → ℕ}

@[simp]
theorem length_number (value : Number) : length cost (.number value) = value.text.length := by
  rw [length, fold]

@[simp]
theorem length_string (text : List Char) : length cost (.string text) = quoted cost text := by
  rw [length, fold]

@[simp]
theorem length_array (items : List Json) :
    length cost (.array items) = enclosed (items.map (length cost)) := by
  rw [length, fold_array]

@[simp]
theorem length_object (members : List (List Char × Json)) :
    length cost (.object members) =
      enclosed (members.map fun member => quoted cost member.1 + 2 + length cost member.2) := by
  rw [length, fold_object]
  dsimp only
  rw [List.map_map]
  rfl

theorem sum_map_le {α : Type} {f : α → ℕ} {most : ℕ} {items : List α}
    (h : ∀ a ∈ items, f a ≤ most) : (items.map f).sum ≤ items.length * most := by
  have hle := List.sum_le_card_nsmul (items.map f) most (by simpa using h)
  simpa using hle

/-- A string costs at most the largest cost of a character for each of its characters. -/
theorem quoted_le {text : List Char} {most : ℕ} (h : ∀ c ∈ text, cost c ≤ most) :
    quoted cost text ≤ 2 + text.length * most := by
  have hsum := sum_map_le h
  unfold quoted
  omega

theorem escapedCost_le (c : Char) : escapedCost c ≤ 12 := by
  unfold escapedCost
  split_ifs <;> omega

theorem quoted_replicate (n : ℕ) (c : Char) :
    quoted cost (List.replicate n c) = 2 + n * cost c := by
  simp [quoted]

/-! ### Values -/

/-- The member of an object. -/
def get (value : Json) (key : List Char) : Option Json :=
  match value with
  | .object members => (members.find? fun member => member.1 = key).map Prod.snd
  | _ => none

/-- The keys of an object. -/
def keys : Json → List (List Char)
  | .object members => members.map Prod.fst
  | _ => []

def isObject : Json → Bool
  | .object _ => true
  | _ => false

/-- The value counts as true in a condition. -/
def truthy : Json → Bool
  | .null => false
  | .bool value => value
  | .number value => !value.zero
  | .string text => !text.isEmpty
  | .array items => !items.isEmpty
  | .object members => !members.isEmpty

/-- The document is this string. -/
def isString (value : Json) (text : List Char) : Bool :=
  match value with
  | .string found => found = text
  | _ => false

/-! ### Numbers and identities -/

/-- The decimal digits of a natural number. -/
def decimal (n : ℕ) : List Char :=
  if n = 0 then [Nat.digitChar 0] else ((Nat.digits 10 n).reverse).map Nat.digitChar

def ofNat (n : ℕ) : Json := .number ⟨decimal n, true, n = 0⟩

theorem length_decimal_le {n k : ℕ} (hk : 0 < k) (h : n < 10 ^ k) : (decimal n).length ≤ k := by
  unfold decimal
  split
  · exact hk
  · rw [List.length_map, List.length_reverse]
    exact (Nat.digits_length_le_iff (by omega) n).mpr h

/-- The hexadecimal digits of a word, the most significant first. -/
def hex {w : ℕ} (digits : ℕ) (word : BitVec w) : List Char :=
  (List.range digits).map fun i => Nat.digitChar (word.toNat / 16 ^ (digits - 1 - i) % 16)

@[simp]
theorem length_hex {w : ℕ} (digits : ℕ) (word : BitVec w) : (hex digits word).length = digits := by
  simp [hex]

theorem escapedCost_hex {w digits : ℕ} {word : BitVec w} {c : Char} (h : c ∈ hex digits word) :
    escapedCost c ≤ 1 := by
  have hall : ∀ d < 16, escapedCost (Nat.digitChar d) ≤ 1 := by decide
  simp only [hex, List.mem_map] at h
  obtain ⟨i, -, rfl⟩ := h
  exact hall _ (Nat.mod_lt _ (by omega))

/-- An identity takes its digits and two quotes. -/
theorem quoted_hex_le {w : ℕ} (digits : ℕ) (word : BitVec w) :
    quoted escapedCost (hex digits word) ≤ digits + 2 := by
  have hle : quoted escapedCost (hex digits word) ≤ _ := quoted_le fun c hc => escapedCost_hex hc
  rw [length_hex] at hle
  omega

end Json

end Ficc
