import Ficc.Foundations.JsonText
import Mathlib.Data.List.Sort
import Mathlib.Data.List.TakeWhile
import Mathlib.Data.Nat.Digits.Defs

/-!
# Records as JSON objects

Integers and other numbers as they are written in JSON, objects whose keys are sorted before they
are written, and the reading of a record from an object. A reader looks the fields of a record up by
name, so it finds the same fields in an object with sorted keys (`lookup_sortMembers`).
-/

namespace Ficc.JsonText

open Utf16 Utf8

/-! ### Numbers -/

/-- A number in a text: an integer, or another number with its text. -/
inductive Literal
  | int (value : ℤ)
  | real (text : Text)
deriving DecidableEq

/-- A decimal digit. -/
def digit (c : CodePoint) : Bool := 48 ≤ c.val && c.val ≤ 57

/-- The decimal digits of a natural number. -/
def decimal (n : ℕ) : Text := (Nat.toDigits 10 n).map point

/-- The natural number of decimal digits, without leading zeros. -/
def readDecimal (text : Text) : Option ℕ :=
  if text ≠ [] ∧ text.all digit = true ∧ (text.head? = some 48 → text = [48]) then
    some (text.foldl (fun n c => 10 * n + (c.val - 48)) 0)
  else none

/-- One digit or more. -/
def isDigits (text : Text) : Bool := !text.isEmpty && text.all digit

/-- Nothing, or an exponent. -/
def isExponent : Text → Bool
  | [] => true
  | mark :: rest =>
    (mark.val = 101 || mark.val = 69) &&
      match rest with
      | [] => false
      | sign :: digits =>
        if sign.val = 43 ∨ sign.val = 45 then isDigits digits else isDigits rest

/-- The text goes on after an integer as a number does. -/
def isTail : Text → Bool
  | [] => true
  | c :: rest =>
    if c.val = 46 then isDigits (rest.takeWhile digit) && isExponent (rest.dropWhile digit)
    else isExponent (c :: rest)

/-- Reads a number. -/
def readLiteral (text : Text) : Option Literal :=
  let negative := text.head? = some 45
  let body := if negative then text.drop 1 else text
  (readDecimal (body.takeWhile digit)).bind fun n =>
    match body.dropWhile digit with
    | [] => some (.int (if negative then -n else n))
    | rest => if isTail rest then some (.real text) else none

instance : Numeral Literal where
  print
    | .int value => (if value < 0 then [45] else []) ++ decimal value.natAbs
    | .real text => text
  parse := readLiteral

theorem digit_point {c : Char} (h : c.isDigit = true) : digit (point c) = true := by
  rw [Char.isDigit, Bool.and_eq_true, decide_eq_true_eq, decide_eq_true_eq] at h
  have hval : (point c).val = c.toNat := rfl
  rw [digit, hval, Bool.and_eq_true, decide_eq_true_eq, decide_eq_true_eq]
  exact ⟨h.1, h.2⟩

theorem all_digit_decimal (n : ℕ) : (decimal n).all digit = true := by
  rw [decimal, List.all_map, List.all_eq_true]
  intro c hc
  exact digit_point (Nat.isDigit_of_mem_toDigits (by decide) (by decide) hc)

theorem decimal_ne_nil (n : ℕ) : decimal n ≠ [] := by
  rw [decimal, Ne, List.map_eq_nil_iff]
  exact Nat.toDigits_ne_nil

variable {n : ℕ} {β α : Type} {fields : List String}

/-- Only zero is written with a zero in front. -/
theorem head_toDigits (h : 0 < n) : (Nat.toDigits 10 n).head? ≠ some '0' := by
  induction n using Nat.strongRecOn with
  | ind n ih =>
    rw [Nat.toDigits_eq_if (by decide)]
    split
    · next hsmall =>
      have hall : ∀ d < 10, 0 < d → [Nat.digitChar d].head? ≠ some '0' := by decide
      exact hall n hsmall h
    · next hlarge =>
      have hquotient : 0 < n / 10 := Nat.div_pos (Nat.le_of_not_lt hlarge) (by decide)
      rw [List.head?_append_of_ne_nil _ Nat.toDigits_ne_nil]
      exact ih (n / 10) (Nat.div_lt_self h (by decide)) hquotient

theorem head_decimal (h : (decimal n).head? = some 48) : decimal n = [48] := by
  obtain rfl | hpos := Nat.eq_zero_or_pos n
  · decide
  · rw [decimal, List.head?_map, Option.map_eq_some_iff] at h
    obtain ⟨c, hc, hpoint⟩ := h
    have hzero : c = '0' := point_injective hpoint
    exact absurd (hzero ▸ hc) (head_toDigits hpos)

/-- A number is read back. -/
theorem readDecimal_decimal (n : ℕ) : readDecimal (decimal n) = some n := by
  rw [readDecimal, if_pos ⟨decimal_ne_nil n, all_digit_decimal n, head_decimal⟩, decimal,
    List.foldl_map]
  exact congrArg some Nat.ofDigitChars_ten_toDigits

theorem takeWhile_digit {text : Text} (h : text.all digit = true) :
    text.takeWhile digit = text ∧ text.dropWhile digit = [] := by
  rw [List.all_eq_true] at h
  exact ⟨List.takeWhile_eq_self_iff.mpr h, List.dropWhile_eq_nil_iff.mpr h⟩

/-- An integer is read back. -/
theorem readLiteral_int (value : ℤ) :
    readLiteral (Numeral.print (Literal.int value)) = some (.int value) := by
  obtain ⟨htake, hdrop⟩ := takeWhile_digit (all_digit_decimal value.natAbs)
  show readLiteral ((if value < 0 then [45] else []) ++ decimal value.natAbs) = _
  by_cases hnegative : value < 0
  · rw [if_pos hnegative, List.singleton_append, readLiteral]
    simp only [List.head?_cons, if_true, List.drop_succ_cons, List.drop_zero, htake, hdrop,
      readDecimal_decimal, Option.bind_some]
    congr 2
    omega
  · have hhead : (decimal value.natAbs).head? ≠ some 45 := by
      intro hhead
      have hmem := List.mem_of_mem_head? hhead
      have hdigit := List.all_eq_true.mp (all_digit_decimal value.natAbs) _ hmem
      exact absurd hdigit (by decide)
    rw [if_neg hnegative, List.nil_append, readLiteral]
    simp only [hhead, if_false, htake, hdrop, readDecimal_decimal, Option.bind_some]
    congr 2
    omega

theorem numeric_of_digit {c : CodePoint} (h : digit c = true) : numeric c = true := by
  rw [numeric]
  rw [digit] at h
  simp only [h, Bool.true_or]

/-- Every integer is legible. -/
theorem legible_int (value : ℤ) : legible (Literal.int value) = true := by
  have hdigits := List.all_eq_true.mp (all_digit_decimal value.natAbs)
  simp only [legible, Bool.and_eq_true, Bool.not_eq_true', beq_iff_eq]
  refine ⟨⟨?_, ?_⟩, readLiteral_int value⟩
  · show ((if value < 0 then [45] else []) ++ decimal value.natAbs).isEmpty = false
    rw [List.isEmpty_eq_false_iff]
    exact List.append_ne_nil_of_right_ne_nil _ (decimal_ne_nil _)
  · show ((if value < 0 then [45] else []) ++ decimal value.natAbs).all numeric = true
    rw [List.all_append, Bool.and_eq_true]
    refine ⟨by split <;> decide, List.all_eq_true.mpr fun c hc => ?_⟩
    exact numeric_of_digit (hdigits c hc)

/-! ### Sorted keys -/

variable {N : Type}

/-- Texts are compared like lists. -/
instance : LE Text := List.instLE

/-- The members in the order of their keys. -/
def sortMembers (members : List (Text × Document Text N)) : List (Text × Document Text N) :=
  members.insertionSort fun first second => first.1 ≤ second.1

/-- The document with the keys of every object sorted. -/
def sorted (document : Document Text N) : Document Text N :=
  document.normalize sortMembers

/-- Sorting permutes the members. -/
theorem sortMembers_perm (members : List (Text × Document Text N)) :
    (sortMembers members).Perm members := List.perm_insertionSort _ _

theorem lookup_eq_some_iff_mem {members : List (Text × β)} (hnodup : (members.map Prod.fst).Nodup)
    {key : Text} {value : β} :
    members.lookup key = some value ↔ (key, value) ∈ members := by
  refine ⟨mem_of_lookup_eq_some, fun hmem => ?_⟩
  induction members with
  | nil => cases hmem
  | cons member members ih =>
    rw [List.map_cons, List.nodup_cons] at hnodup
    rw [List.lookup_cons]
    obtain rfl | hmem := List.mem_cons.mp hmem
    · simp
    · have hne : (key == member.1) = false := by
        rw [beq_eq_false_iff_ne]
        intro heq
        exact hnodup.1 (List.mem_map.mpr ⟨(key, value), hmem, heq⟩)
      rw [hne]
      exact ih hnodup.2 hmem

/-- The value of a key is found in members in any order. -/
theorem lookup_eq_of_perm {first second : List (Text × β)} (hperm : first.Perm second)
    (hnodup : (second.map Prod.fst).Nodup) (key : Text) :
    first.lookup key = second.lookup key := by
  have hfirst : (first.map Prod.fst).Nodup := (hperm.map Prod.fst).nodup_iff.mpr hnodup
  refine Option.ext fun value => ?_
  rw [lookup_eq_some_iff_mem hfirst, lookup_eq_some_iff_mem hnodup, hperm.mem_iff]

@[simp]
theorem sorted_number (value : N) : sorted (.number value) = .number value := by
  rw [sorted, Document.normalize]

@[simp]
theorem sorted_text (value : Text) : sorted (.text value : Document Text N) = .text value := by
  rw [sorted, Document.normalize]

@[simp]
theorem sorted_bool (value : Bool) : sorted (.bool value : Document Text N) = .bool value := by
  rw [sorted, Document.normalize]

@[simp]
theorem sorted_list (items : List (Document Text N)) :
    sorted (.list items) = .list (items.map sorted) := by
  rw [sorted, Document.normalize, Document.normalizeItems_eq_map]
  rfl

@[simp]
theorem sorted_object (members : List (Text × Document Text N)) :
    sorted (.object members) =
      .object (sortMembers (members.map fun member => (member.1, sorted member.2))) := by
  rw [sorted, Document.normalize, Document.normalizeMembers_eq_map]
  rfl

theorem nodup_keys {keys keys' : List Text} (hperm : keys.Perm keys')
    (h : decide keys.Nodup = true) : decide keys'.Nodup = true :=
  decide_eq_true (hperm.nodup_iff.mp (of_decide_eq_true h))

/-- Sorting the keys changes nothing for rules to which the order of the keys does not matter. -/
theorem every_sorted {rules : Document.Rules Text N} (hrules : ∀ {keys keys' : List Text},
      keys.Perm keys' → rules.keys keys = true → rules.keys keys' = true)
    {document : Document Text N} (h : document.every rules = true) :
    (sorted document).every rules = true := by
  induction document using Document.induct with
  | null => exact h
  | bool value => rwa [sorted_bool]
  | number value => rwa [sorted_number]
  | text value => rwa [sorted_text]
  | list items ih =>
    rw [Document.every_list] at h
    rw [sorted_list, Document.every_list]
    intro item hitem
    obtain ⟨original, horiginal, rfl⟩ := List.mem_map.mp hitem
    exact ih original horiginal (h original horiginal)
  | object members ih =>
    rw [Document.every_object] at h
    have hperm := sortMembers_perm (members.map fun member => (member.1, sorted member.2))
    rw [sorted_object, Document.every_object]
    constructor
    · have hkeys := hperm.map Prod.fst
      rw [List.map_map] at hkeys
      exact hrules hkeys.symm h.1
    · intro member hmember
      obtain ⟨original, horiginal, rfl⟩ := List.mem_map.mp (hperm.mem_iff.mp hmember)
      exact ⟨(h.2 original horiginal).1, ih original horiginal (h.2 original horiginal).2⟩

/-! ### Records -/

/-- The members of an object that has no other fields than these. -/
def record (fields : List String) : Document Text N → Option (List (Text × Document Text N))
  | .object members =>
    if ∀ key ∈ members.map Prod.fst, key ∈ fields.map points then some members else none
  | _ => none

/-- The value of a field. -/
def field (members : List (Text × Document Text N)) (name : String) : Option (Document Text N) :=
  members.lookup (points name)

theorem record_sorted {members : List (Text × Document Text N)}
    (h : ∀ key ∈ members.map Prod.fst, key ∈ fields.map points) :
    record fields (sorted (.object members)) =
      some (sortMembers (members.map fun member => (member.1, sorted member.2))) := by
  have hperm := (sortMembers_perm (members.map fun member => (member.1, sorted member.2))).map
    Prod.fst
  rw [List.map_map] at hperm
  rw [sorted_object, record, if_pos]
  exact fun key hkey => h key (hperm.mem_iff.mp hkey)

theorem lookup_map_snd {γ : Type} (f : β → γ) (members : List (Text × β)) (key : Text) :
    (members.map fun member => (member.1, f member.2)).lookup key = (members.lookup key).map f := by
  induction members with
  | nil => rfl
  | cons member members ih =>
    rw [List.map_cons, List.lookup_cons, List.lookup_cons, ih]
    cases key == member.1 <;> rfl

/-- A field is found in an object with sorted keys. -/
theorem field_sorted {members : List (Text × Document Text N)}
    (hnodup : (members.map Prod.fst).Nodup) (name : String) :
    field (sortMembers (members.map fun member => (member.1, sorted member.2))) name =
      (field members name).map sorted := by
  have hkeys : ((members.map fun member => (member.1, sorted member.2)).map Prod.fst).Nodup := by
    rw [List.map_map]
    exact hnodup
  rw [field, lookup_eq_of_perm (sortMembers_perm _) hkeys, lookup_map_snd]
  rfl

/-- An object with these fields. -/
def object (pairs : List (String × Document Text N)) : Document Text N :=
  .object (pairs.map fun pair => (points pair.1, pair.2))

theorem lookup_map_points (pairs : List (String × β)) (name : String) :
    (pairs.map fun pair => (points pair.1, pair.2)).lookup (points name) = pairs.lookup name := by
  induction pairs with
  | nil => rfl
  | cons pair pairs ih =>
    have hkey : (points name == points pair.1) = (name == pair.1) := by
      rw [Bool.eq_iff_iff, beq_iff_eq, beq_iff_eq, points_injective.eq_iff]
    rw [List.map_cons, List.lookup_cons, List.lookup_cons, ih, hkey]

/-- A record is read from the object that it was written as: each of its fields is found. -/
theorem record_object {pairs : List (String × Document Text N)}
    (hnodup : (pairs.map Prod.fst).Nodup) (hfields : ∀ name ∈ pairs.map Prod.fst, name ∈ fields) :
    ∃ found, record fields (sorted (object pairs)) = some found ∧
      ∀ name, field found name = (pairs.lookup name).map sorted := by
  have hkeys : (pairs.map fun pair => (points pair.1, pair.2)).map Prod.fst =
      (pairs.map Prod.fst).map points := by
    rw [List.map_map, List.map_map]
    rfl
  refine ⟨_, record_sorted fun key hkey => ?_, fun name => ?_⟩
  · rw [hkeys] at hkey
    obtain ⟨name, hname, rfl⟩ := List.mem_map.mp hkey
    exact List.mem_map_of_mem (hfields name hname)
  · rw [field_sorted (by rw [hkeys]; exact hnodup.map points_injective), field,
      lookup_map_points]

/-- The rule for a reader of a record: it finds every field that was written, and no other. -/
theorem record_bind {pairs : List (String × Document Text N)}
    {next : List (Text × Document Text N) → Option α} {result : Option α}
    (hnodup : (pairs.map Prod.fst).Nodup) (hfields : ∀ name ∈ pairs.map Prod.fst, name ∈ fields)
    (hnext : ∀ found, (∀ name, field found name = (pairs.lookup name).map sorted) → next found = result)
    :
    (record fields (sorted (object pairs)) >>= next) = result := by
  obtain ⟨found, hfound, hfield⟩ := record_object hnodup hfields
  rw [hfound]
  exact hnext found hfield

theorem every_object_iff [Numeral N] [DecidableEq N] {pairs : List (String × Document Text N)} :
    (object pairs).every readable = true ↔ (pairs.map Prod.fst).Nodup ∧
      ∀ pair ∈ pairs, pair.2.every readable = true := by
  have hkeys : (pairs.map fun pair => (points pair.1, pair.2)).map Prod.fst =
      (pairs.map Prod.fst).map points := by
    rw [List.map_map, List.map_map]
    rfl
  rw [object, Document.every_object, hkeys]
  refine and_congr ?_ ?_
  · exact decide_eq_true_iff.trans (List.nodup_map_iff points_injective)
  · simp only [List.mem_map, forall_exists_index, and_imp, forall_apply_eq_imp_iff₂]
    exact forall₂_congr fun pair _ => and_iff_right (whole_points pair.1)

/-! ### Lists -/

/-- A reader of items in another order reads the same values in another order. -/
theorem mapM_perm {read : α → Option β} {first second : List α} (hperm : first.Perm second)
    {values : List β} (h : second.mapM read = some values) :
    ∃ others, first.mapM read = some others ∧ others.Perm values := by
  induction hperm generalizing values with
  | nil => exact ⟨values, h, .refl _⟩
  | @cons item first second _ ih =>
    simp only [List.mapM_cons, Option.bind_eq_bind, Option.bind_eq_some_iff, Option.pure_def,
      Option.some.injEq] at h ⊢
    obtain ⟨value, hvalue, rest, hrest, rfl⟩ := h
    obtain ⟨others, hothers, hperm⟩ := ih hrest
    exact ⟨_, ⟨value, hvalue, others, hothers, rfl⟩, hperm.cons value⟩
  | swap item other rest =>
    simp only [List.mapM_cons, Option.bind_eq_bind, Option.bind_eq_some_iff, Option.pure_def,
      Option.some.injEq] at h ⊢
    obtain ⟨value, hvalue, _, ⟨another, hanother, values, hvalues, rfl⟩, rfl⟩ := h
    exact ⟨_, ⟨another, hanother, _, ⟨value, hvalue, values, hvalues, rfl⟩, rfl⟩, .swap _ _ _⟩
  | trans _ _ ihfirst ihsecond =>
    obtain ⟨others, hothers, hsecond⟩ := ihsecond h
    obtain ⟨more, hmore, hfirst⟩ := ihfirst hothers
    exact ⟨more, hmore, hfirst.trans hsecond⟩

theorem lookup_map_self (f : String → β) (keys : List String) (key : String) :
    (keys.map fun name => (name, f name)).lookup key = if key ∈ keys then some (f key) else none := by
  induction keys with
  | nil => rfl
  | cons name keys ih =>
    rw [List.map_cons, List.lookup_cons, ih]
    by_cases hkey : key = name
    · subst hkey
      simp
    · rw [beq_eq_false_iff_ne.mpr hkey]
      simp [hkey]

/-! ### Fields -/

/-- A string. A text with halves of surrogate pairs is none. -/
def string : Document Text N → Option String
  | .text value =>
    if whole value then some (String.ofList (value.map fun c => Char.ofNat c.val)) else none
  | _ => none

/-- A list of strings. -/
def strings : Document Text N → Option (List String)
  | .list items => items.mapM string
  | _ => none

def boolean : Document Text N → Option Bool
  | .bool value => some value
  | _ => none

/-- A natural number. -/
def natural : Document Text Literal → Option ℕ
  | .number (.int value) => if 0 ≤ value then some value.toNat else none
  | _ => none

/-- The document of a string. -/
def ofString (value : String) : Document Text N := .text (points value)

/-- The document of a list of strings. -/
def ofStrings (values : List String) : Document Text N := .list (values.map ofString)

/-- The document of a natural number. -/
def ofNatural (value : ℕ) : Document Text Literal := .number (.int value)

@[simp]
theorem sorted_ofString (value : String) :
    sorted (ofString value : Document Text N) = ofString value := sorted_text _

@[simp]
theorem sorted_ofNatural (value : ℕ) : sorted (ofNatural value) = ofNatural value :=
  sorted_number _

/-- A string is read back. -/
@[simp]
theorem string_ofString (value : String) :
    string (ofString value : Document Text N) = some value := by
  rw [ofString, string, if_pos (whole_points value), points, List.map_map]
  have hid : ((fun c : Utf16.CodePoint => Char.ofNat c.val) ∘ point) = id := by
    funext c
    exact Char.ofNat_toNat c
  rw [hid, List.map_id, String.ofList_toList]

/-- So is a natural number. -/
@[simp]
theorem natural_ofNatural (value : ℕ) : natural (ofNatural value) = some value := by
  rw [ofNatural, natural, if_pos (Int.natCast_nonneg value), Int.toNat_natCast]

/-- What is written of every item and read back is read back of the list. -/
theorem mapM_map_of_read {read : β → Option α} {written : α → β}
    (h : ∀ a, read (written a) = some a) (items : List α) :
    (items.map written).mapM read = some items := by
  induction items with
  | nil => rfl
  | cons item items ih =>
    rw [List.map_cons, List.mapM_cons, h, ih]
    rfl

@[simp]
theorem sorted_ofStrings (values : List String) :
    sorted (ofStrings values : Document Text N) = ofStrings values := by
  rw [ofStrings, sorted_list, List.map_map]
  exact congrArg _ (List.map_congr_left fun value _ => sorted_ofString value)

/-- So is a list of strings. -/
@[simp]
theorem strings_ofStrings (values : List String) :
    strings (ofStrings values : Document Text N) = some values :=
  mapM_map_of_read string_ofString values

/-! ### Hexadecimal numbers -/

/-- The hexadecimal digits of a number. -/
def hex : ℕ → ℕ → Text
  | 0, _ => []
  | digits + 1, n => hex digits (n / 16) ++ [hexDigit ⟨n % 16, Nat.mod_lt _ (by decide)⟩]

/-- A hexadecimal digit in lower case. -/
def lowerHex (c : Utf16.CodePoint) : Bool := digit c || (97 ≤ c.val && c.val ≤ 102)

/-- The number of so many hexadecimal digits. -/
def readHex (digits : ℕ) (text : Text) : Option ℕ :=
  if text.length = digits ∧ text.all lowerHex = true then
    some (text.foldl (fun n c => 16 * n + ((hexValue c).map Fin.val).getD 0) 0)
  else none

/-- The digits are as many as asked for. -/
theorem length_hex (digits n : ℕ) : (hex digits n).length = digits := by
  induction digits generalizing n with
  | zero => rfl
  | succ digits ih => rw [hex, List.length_append, ih, List.length_singleton]

theorem lowerHex_hexDigit (d : Fin 16) : lowerHex (hexDigit d) = true := by
  revert d
  decide

/-- They are lower case. -/
theorem all_lowerHex_hex (digits n : ℕ) : (hex digits n).all lowerHex = true := by
  induction digits generalizing n with
  | zero => rfl
  | succ digits ih =>
    rw [hex, List.all_append, ih, List.all_cons, lowerHex_hexDigit]
    rfl

theorem foldl_hex (digits n : ℕ) :
    (hex digits n).foldl (fun n c => 16 * n + ((hexValue c).map Fin.val).getD 0) 0 =
      n % 16 ^ digits := by
  induction digits generalizing n with
  | zero => rw [hex, List.foldl_nil, Nat.pow_zero, Nat.mod_one]
  | succ digits ih =>
    rw [hex, List.foldl_append, ih, List.foldl_cons, List.foldl_nil, hexValue_hexDigit,
      Option.map_some, Option.getD_some, Nat.pow_succ, Nat.mul_comm (16 ^ digits) 16,
      Nat.mod_mul, Nat.add_comm]

/-- A number is read back from its digits. -/
theorem readHex_hex {digits : ℕ} (h : n < 16 ^ digits) :
    readHex digits (hex digits n) = some n := by
  rw [readHex, if_pos ⟨length_hex digits n, all_lowerHex_hex digits n⟩, foldl_hex,
    Nat.mod_eq_of_lt h]

end Ficc.JsonText
