import Ficc.Foundations.Document
import Ficc.Foundations.Utf8

/-!
# The text of JSON documents

`write` is the text of a document, in the two formats that a writer chooses between: whether the
characters outside of ASCII are escaped, and how many blanks follow a separator. `read` is the
reader. A document whose numbers read back, whose texts have no halves of surrogate pairs and whose
objects do not repeat a key is read back from its text in every format (`read_write`).

A text is a list of code points. The halves of pairs have to be left out, because a writer that
escapes them writes two halves in a row as it writes the code point that they make.
-/

namespace Ficc.JsonText

open Utf16 Utf8

/-! ### Strings -/

/-- The escapes of two characters: what is escaped, and the letter that stands for it. -/
def shortEscapes : List (ℕ × ℕ) :=
  [(34, 34), (92, 92), (8, 98), (12, 102), (10, 110), (13, 114), (9, 116)]

/-- The letters that a reader takes after a backslash, and what they stand for. -/
def shortReads : List (ℕ × ℕ) := (47, 47) :: shortEscapes.map Prod.swap

/-- A hexadecimal digit. -/
def hexDigit (d : Fin 16) : CodePoint :=
  if d.val < 10 then ⟨48 + d.val, by omega⟩ else ⟨87 + d.val, by omega⟩

/-- The value of a hexadecimal digit. -/
def hexValue (c : CodePoint) : Option (Fin 16) :=
  if h : 48 ≤ c.val ∧ c.val ≤ 57 then some ⟨c.val - 48, by omega⟩
  else if h : 97 ≤ c.val ∧ c.val ≤ 102 then some ⟨c.val - 87, by omega⟩
  else if h : 65 ≤ c.val ∧ c.val ≤ 70 then some ⟨c.val - 55, by omega⟩
  else none

/-- The digits of a code unit. -/
def hexDigits (u : CodeUnit) : Text :=
  [hexDigit ⟨u.val / 4096, by omega⟩, hexDigit ⟨u.val / 256 % 16, by omega⟩,
    hexDigit ⟨u.val / 16 % 16, by omega⟩, hexDigit ⟨u.val % 16, by omega⟩]

/-- The code unit of four digits. -/
def hexUnit (a b c d : CodePoint) : Option CodeUnit :=
  match hexValue a, hexValue b, hexValue c, hexValue d with
  | some a, some b, some c, some d =>
    some ⟨a.val * 4096 + b.val * 256 + c.val * 16 + d.val, by omega⟩
  | _, _, _, _ => none

/-- How a document is written. -/
structure Format where
  ensureAscii : Bool
  /-- The blanks after a separator. -/
  gap : ℕ

/-- A code point inside of a string. -/
def escape (format : Format) (c : CodePoint) : Text :=
  match shortEscapes.lookup c.val with
  | some letter => [92, Fin.ofNat _ letter]
  | none =>
    if c.val < 32 ∨ format.ensureAscii ∧ 126 < c.val then
      (units c).flatMap fun u => 92 :: 117 :: hexDigits u
    else [c]

/-- A string with its quotes. -/
def quote (format : Format) (text : Text) : Text := 34 :: (text.flatMap (escape format) ++ [34])

/-- What a reader finds inside of a string: a code point, or an escaped code unit. -/
inductive Piece
  | plain (c : CodePoint)
  | unit (u : CodeUnit)

/-- The text of the pieces. Two escaped halves of a pair are one code point. -/
def join : List Piece → Text
  | [] => []
  | .plain c :: rest => c :: join rest
  | [.unit u] => [ofUnit u]
  | .unit u :: .plain c :: rest => ofUnit u :: c :: join rest
  | .unit u :: .unit v :: rest =>
    if isHigh u && isLow v then combine u v :: join rest else ofUnit u :: join (.unit v :: rest)

/-- Reads the pieces of a string up to its closing quote. -/
def readPieces : Text → Option (List Piece × Text)
  | [] => none
  | c :: rest =>
    if c.val = 34 then some ([], rest)
    else if c.val = 92 then
      match rest with
      | [] => none
      | letter :: rest =>
        if letter.val = 117 then
          match rest with
          | x :: y :: z :: w :: rest =>
            (hexUnit x y z w).bind fun u =>
              (readPieces rest).map fun found => (.unit u :: found.1, found.2)
          | _ => none
        else
          match shortReads.lookup letter.val with
          | some value =>
            (readPieces rest).map fun found => (.plain (Fin.ofNat _ value) :: found.1, found.2)
          | none => none
    else if c.val < 32 then none
    else (readPieces rest).map fun found => (.plain c :: found.1, found.2)

/-- Reads a string behind its opening quote. -/
def readText (input : Text) : Option (Text × Text) :=
  (readPieces input).map fun found => (join found.1, found.2)

/-! ### Reading a string back -/

/-- A digit is read back. -/
theorem hexValue_hexDigit (d : Fin 16) : hexValue (hexDigit d) = some d := by
  revert d
  decide

/-- Four digits are one code unit. -/
theorem hexUnit_hexDigits (u : CodeUnit) :
    hexUnit (hexDigit ⟨u.val / 4096, by omega⟩) (hexDigit ⟨u.val / 256 % 16, by omega⟩)
      (hexDigit ⟨u.val / 16 % 16, by omega⟩) (hexDigit ⟨u.val % 16, by omega⟩) = some u := by
  simp only [hexUnit, hexValue_hexDigit, Option.some.injEq]
  apply Fin.ext
  show u.val / 4096 * 4096 + u.val / 256 % 16 * 256 + u.val / 16 % 16 * 16 + u.val % 16 = u.val
  omega

/-- What a reader finds where a code point was written. -/
def piecesOf (format : Format) (c : CodePoint) : List Piece :=
  if (shortEscapes.lookup c.val).isSome then [.plain c]
  else if c.val < 32 ∨ format.ensureAscii ∧ 126 < c.val then (units c).map .unit
  else [.plain c]

theorem readPieces_unit (u : CodeUnit) (rest : Text) :
    readPieces (92 :: 117 :: (hexDigits u ++ rest)) =
      (readPieces rest).map fun found => (.unit u :: found.1, found.2) := by
  rw [hexDigits, List.cons_append, List.cons_append, List.cons_append, List.cons_append,
    List.nil_append, readPieces, if_neg (by decide), if_pos (by decide), if_pos (by decide),
    hexUnit_hexDigits, Option.bind_some]

theorem readPieces_units (us : List CodeUnit) (rest : Text) :
    readPieces ((us.flatMap fun u => 92 :: 117 :: hexDigits u) ++ rest) =
      (readPieces rest).map fun found => (us.map .unit ++ found.1, found.2) := by
  induction us with
  | nil => simp
  | cons u us ih =>
    rw [List.flatMap_cons, List.append_assoc, List.cons_append, List.cons_append,
      readPieces_unit, ih, Option.map_map]
    rfl

/-- A short escape is read as what it stands for. -/
theorem readPieces_short {value letter : ℕ} (h : (value, letter) ∈ shortEscapes) (rest : Text) :
    readPieces (92 :: Fin.ofNat _ letter :: rest) =
      (readPieces rest).map fun found => (.plain (Fin.ofNat _ value) :: found.1, found.2) := by
  have hall : ∀ pair ∈ shortEscapes, shortReads.lookup (Fin.ofNat 1114112 pair.2).val =
      some pair.1 ∧ (Fin.ofNat 1114112 pair.2).val ≠ 117 := by decide
  have hread := hall _ h
  dsimp only at hread
  rw [readPieces.eq_def]
  dsimp only
  rw [if_neg (by decide), if_pos (by decide), if_neg hread.2, hread.1]

theorem mem_of_lookup_eq_some {α β : Type} [BEq α] [LawfulBEq α] {key : α} {value : β}
    {pairs : List (α × β)} (h : pairs.lookup key = some value) : (key, value) ∈ pairs := by
  induction pairs with
  | nil => cases h
  | cons pair pairs ih =>
    rw [List.lookup_cons] at h
    split at h
    · next hkey =>
      cases h
      rw [beq_iff_eq] at hkey
      rw [hkey]
      exact List.mem_cons_self
    · exact List.mem_cons_of_mem _ (ih h)

/-- An escaped code point is read as its pieces. -/
theorem readPieces_escape (format : Format) (c : CodePoint) (rest : Text) :
    readPieces (escape format c ++ rest) =
      (readPieces rest).map fun found => (piecesOf format c ++ found.1, found.2) := by
  rw [escape, piecesOf]
  cases hlookup : shortEscapes.lookup c.val with
  | some letter =>
    have hmem := mem_of_lookup_eq_some hlookup
    have hsame : Fin.ofNat 1114112 c.val = c := Fin.ofNat_val_eq_self c
    rw [Option.isSome_some, if_pos rfl, List.cons_append, List.cons_append, List.nil_append,
      readPieces_short hmem, hsame]
    rfl
  | none =>
    rw [Option.isSome_none, if_neg Bool.false_ne_true]
    split_ifs with hescaped
    · exact readPieces_units (units c) rest
    · -- The quote and the backslash have short escapes, so `c` is neither.
      have hquote : c.val ≠ 34 := fun h => by
        rw [h] at hlookup
        exact absurd hlookup (by decide)
      have hslash : c.val ≠ 92 := fun h => by
        rw [h] at hlookup
        exact absurd hlookup (by decide)
      rw [List.singleton_append, readPieces.eq_def]
      dsimp only
      rw [if_neg hquote, if_neg hslash, if_neg fun h => hescaped (.inl h)]
      rfl

/-- A string is read back as the pieces that its code points were written as. -/
theorem readPieces_quoted (format : Format) (text rest : Text) :
    readPieces (text.flatMap (escape format) ++ 34 :: rest) =
      some (text.flatMap (piecesOf format), rest) := by
  induction text with
  | nil =>
    rw [List.flatMap_nil, List.nil_append, readPieces.eq_def]
    exact if_pos (by decide)
  | cons c text ih =>
    rw [List.flatMap_cons, List.append_assoc, readPieces_escape, ih]
    rfl

variable {c : CodePoint} {text : Text}

/-- The units of a code point are joined again. -/
theorem join_units (h : isSurrogate c = false) (rest : List Piece) :
    join ((units c).map .unit ++ rest) = c :: join rest := by
  rw [units]
  split_ifs with hsmall
  · have hhigh : isHigh ⟨c.val, hsmall⟩ = false := by
      simp only [isSurrogate, Bool.and_eq_false_iff, decide_eq_false_iff_not] at h
      simp only [isHigh, Bool.and_eq_false_iff, decide_eq_false_iff_not]
      omega
    have hunit : ofUnit ⟨c.val, hsmall⟩ = c := Fin.ext rfl
    rw [List.map_cons, List.map_nil, List.singleton_append]
    rcases rest with _ | ⟨_ | v, rest⟩
    · rw [join, join, hunit]
    · rw [join, join, hunit]
    · rw [join, hhigh, Bool.false_and, if_neg Bool.false_ne_true, hunit]
  · rw [List.map_cons, List.map_cons, List.map_nil, List.cons_append, List.singleton_append, join,
      if_pos]
    · refine congrArg (· :: join rest) (Fin.ext ?_)
      simp only [combine]
      omega
    · simp only [isHigh, isLow, Bool.and_eq_true, decide_eq_true_eq]
      omega

/-- So are its pieces. -/
theorem join_piecesOf (h : isSurrogate c = false) (format : Format) (rest : List Piece) :
    join (piecesOf format c ++ rest) = c :: join rest := by
  rw [piecesOf]
  split_ifs
  · rfl
  · exact join_units h rest
  · rfl

/-- The two halves of a pair do not stand next to each other. -/
def apart : Text → Bool
  | c :: d :: rest =>
    !((55296 ≤ c.val && c.val < 56320) && (56320 ≤ d.val && d.val < 57344)) && apart (d :: rest)
  | _ => true

theorem apart_cons (h : apart (c :: text) = true) :
    apart text = true := by
  cases text with
  | nil => rfl
  | cons d rest =>
    rw [apart, Bool.and_eq_true] at h
    exact h.2

/-- Without surrogates none can meet. -/
theorem apart_of_whole (h : whole text = true) : apart text = true := by
  induction text with
  | nil => rfl
  | cons c text ih =>
    rw [whole, List.all_cons, Bool.and_eq_true, Bool.not_eq_true'] at h
    cases text with
    | nil => rfl
    | cons d rest =>
      rw [apart, ih h.2, Bool.and_true, Bool.not_eq_true', Bool.and_eq_false_iff]
      left
      have hc := h.1
      simp only [isSurrogate, Bool.and_eq_false_iff, decide_eq_false_iff_not] at hc ⊢
      omega

/-- A first half that is not followed by a second half is read back as it is. -/
theorem join_surrogate (format : Format) (hc : isSurrogate c = true) (h : apart (c :: text) = true)
    :
    join (piecesOf format c ++ text.flatMap (piecesOf format)) =
      c :: join (text.flatMap (piecesOf format)) := by
  have hc' := hc
  simp only [isSurrogate, Bool.and_eq_true, decide_eq_true_eq] at hc'
  rw [piecesOf]
  split_ifs
  · rfl
  · have hsmall : c.val < 65536 := by omega
    have hunit : ofUnit ⟨c.val, hsmall⟩ = c := Fin.ext rfl
    rw [units, dif_pos hsmall, List.map_cons, List.map_nil, List.singleton_append]
    cases text with
    | nil =>
      rw [List.flatMap_nil, join, join, hunit]
    | cons d rest =>
      rw [apart, Bool.and_eq_true, Bool.not_eq_true', Bool.and_eq_false_iff] at h
      -- What comes next is a code point, or the first unit of one.
      obtain ⟨next, left, hnext, hlow⟩ : ∃ next left,
          (d :: rest).flatMap (piecesOf format) = next :: left ∧
            ∀ v, next = .unit v → isLow v = true → 56320 ≤ d.val ∧ d.val < 57344 := by
        rw [List.flatMap_cons, piecesOf]
        split_ifs
        · exact ⟨_, _, rfl, fun v hv => Piece.noConfusion hv⟩
        · rw [units]
          split_ifs with hd
          · refine ⟨_, _, rfl, fun v hv hlow => ?_⟩
            obtain rfl := Piece.unit.inj hv
            simpa [isLow] using hlow
          · refine ⟨_, _, rfl, fun v hv hlow => ?_⟩
            obtain rfl := Piece.unit.inj hv
            simp only [isLow, Bool.and_eq_true, decide_eq_true_eq] at hlow
            omega
        · exact ⟨_, _, rfl, fun v hv => Piece.noConfusion hv⟩
      rw [hnext]
      cases next with
      | plain e => rw [join, join, hunit]
      | unit v =>
        have hpair : (isHigh ⟨c.val, hsmall⟩ && isLow v) = false := by
          rw [Bool.and_eq_false_iff]
          by_contra hboth
          simp only [not_or, Bool.not_eq_false] at hboth
          have hd := hlow v rfl hboth.2
          have hhigh := hboth.1
          simp only [isHigh, Bool.and_eq_true, decide_eq_true_eq] at hhigh
          simp only [Bool.and_eq_false_iff, decide_eq_false_iff_not] at h
          omega
        rw [join, hpair, if_neg Bool.false_ne_true, hunit]
  · rfl

/-- The pieces of a text are joined to it. -/
theorem join_flatMap_piecesOf (format : Format) (h : apart text = true) :
    join (text.flatMap (piecesOf format)) = text := by
  induction text with
  | nil => rfl
  | cons c text ih =>
    rw [List.flatMap_cons]
    cases hc : isSurrogate c with
    | false => rw [join_piecesOf hc, ih (apart_cons h)]
    | true => rw [join_surrogate format hc h, ih (apart_cons h)]

/-- A string is read back. -/
theorem readText_quote (format : Format) (h : apart text = true) (rest : Text) :
    readText (text.flatMap (escape format) ++ 34 :: rest) = some (text, rest) := by
  rw [readText, readPieces_quoted, Option.map_some, join_flatMap_piecesOf format h]

/-! ### Documents -/

/-- How the numbers of a document are written and read. -/
class Numeral (N : Type) where
  print : N → Text
  parse : Text → Option N

variable {N : Type} [Numeral N]

/-- The blanks between the tokens. -/
def space (c : CodePoint) : Bool := c.val = 32 || c.val = 9 || c.val = 10 || c.val = 13

/-- The code points of a number: the digits, the signs, the point and the mark of an exponent. -/
def numeric (c : CodePoint) : Bool :=
  (48 ≤ c.val && c.val ≤ 57) || c.val = 45 || c.val = 43 || c.val = 46 || c.val = 101 || c.val = 69

/-- What separates two items. -/
def separator (format : Format) : Text := 44 :: List.replicate format.gap 32

/-- What separates a key from its value. -/
def colon (format : Format) : Text := 58 :: List.replicate format.gap 32

mutual

/-- The text of a document. -/
def write (format : Format) : Document Text N → Text
  | .null => [110, 117, 108, 108]
  | .bool true => [116, 114, 117, 101]
  | .bool false => [102, 97, 108, 115, 101]
  | .number value => Numeral.print value
  | .text value => quote format value
  | .list items => 91 :: writeItems format items
  | .object members => 123 :: writeMembers format members

/-- The items with their closing bracket. -/
def writeItems (format : Format) : List (Document Text N) → Text
  | [] => [93]
  | item :: rest =>
    write format item ++
      if rest.isEmpty then [93] else separator format ++ writeItems format rest

/-- The members with their closing brace. -/
def writeMembers (format : Format) : List (Text × Document Text N) → Text
  | [] => [125]
  | (key, value) :: rest =>
    quote format key ++ (colon format ++ (write format value ++
      if rest.isEmpty then [125] else separator format ++ writeMembers format rest))

end

/-- Passes over the blanks. -/
def skip (input : Text) : Text := input.dropWhile space

/-- Reads a word that stands for a value. -/
def readWord (word : Text) (value : Document Text N) (input : Text) :
    Option (Document Text N × Text) :=
  if word.isPrefixOf input then some (value, input.drop word.length) else none

/-- Reads a number, which goes as far as there are code points of numbers. -/
def readNumber (input : Text) : Option (Document Text N × Text) :=
  (Numeral.parse (input.takeWhile numeric)).map fun value => (.number value, input.dropWhile numeric)

mutual

/-- Reads a value. The fuel is used up by one for each value, item and member. -/
def readValue : ℕ → Text → Option (Document Text N × Text)
  | 0, _ => none
  | fuel + 1, input =>
    match skip input with
    | [] => none
    | c :: rest =>
      if c.val = 34 then (readText rest).map fun found => (.text found.1, found.2)
      else if c.val = 91 then
        match skip rest with
        | [] => none
        | d :: left =>
          if d.val = 93 then some (.list [], left)
          else (readItems fuel rest).map fun found => (.list found.1, found.2)
      else if c.val = 123 then
        match skip rest with
        | [] => none
        | d :: left =>
          if d.val = 125 then some (.object [], left)
          else
            (readMembers fuel rest).map fun found =>
              (.object (Document.lastWins found.1), found.2)
      else if c.val = 110 then readWord [110, 117, 108, 108] .null (c :: rest)
      else if c.val = 116 then readWord [116, 114, 117, 101] (.bool true) (c :: rest)
      else if c.val = 102 then readWord [102, 97, 108, 115, 101] (.bool false) (c :: rest)
      else readNumber (c :: rest)

/-- Reads at least one item, and the closing bracket. -/
def readItems : ℕ → Text → Option (List (Document Text N) × Text)
  | 0, _ => none
  | fuel + 1, input =>
    (readValue fuel input).bind fun item =>
      match skip item.2 with
      | [] => none
      | c :: left =>
        if c.val = 93 then some ([item.1], left)
        else if c.val = 44 then
          (readItems fuel left).map fun found => (item.1 :: found.1, found.2)
        else none

/-- Reads at least one member, and the closing brace. -/
def readMembers : ℕ → Text → Option (List (Text × Document Text N) × Text)
  | 0, _ => none
  | fuel + 1, input =>
    match skip input with
    | [] => none
    | c :: rest =>
      if c.val = 34 then
        (readText rest).bind fun key =>
          match skip key.2 with
          | [] => none
          | d :: left =>
            if d.val = 58 then
              (readValue fuel left).bind fun value =>
                match skip value.2 with
                | [] => none
                | e :: left =>
                  if e.val = 125 then some ([(key.1, value.1)], left)
                  else if e.val = 44 then
                    (readMembers fuel left).map fun found => ((key.1, value.1) :: found.1, found.2)
                  else none
            else none
      else none

end

/-- Reads a document that takes the whole of the input. -/
def read (input : Text) : Option (Document Text N) :=
  (readValue (input.length + 1) input).bind fun found =>
    if skip found.2 = [] then some found.1 else none

/-! ### Readers with another rule for repeated keys -/

/-- How the members of an object become a value. -/
abbrev Build (N : Type) := List (Text × Document Text N) → Option (Document Text N)

mutual

/-- Reads a value as `readValue` does, and an object with `build`. -/
def readValueBy (build : Build N) : ℕ → Text → Option (Document Text N × Text)
  | 0, _ => none
  | fuel + 1, input =>
    match skip input with
    | [] => none
    | c :: rest =>
      if c.val = 34 then (readText rest).map fun found => (.text found.1, found.2)
      else if c.val = 91 then
        match skip rest with
        | [] => none
        | d :: left =>
          if d.val = 93 then some (.list [], left)
          else (readItemsBy build fuel rest).map fun found => (.list found.1, found.2)
      else if c.val = 123 then
        match skip rest with
        | [] => none
        | d :: left =>
          if d.val = 125 then some (.object [], left)
          else
            (readMembersBy build fuel rest).bind fun found =>
              (build found.1).map fun value => (value, found.2)
      else if c.val = 110 then readWord [110, 117, 108, 108] .null (c :: rest)
      else if c.val = 116 then readWord [116, 114, 117, 101] (.bool true) (c :: rest)
      else if c.val = 102 then readWord [102, 97, 108, 115, 101] (.bool false) (c :: rest)
      else readNumber (c :: rest)

/-- Reads at least one item, and the closing bracket. -/
def readItemsBy (build : Build N) : ℕ → Text → Option (List (Document Text N) × Text)
  | 0, _ => none
  | fuel + 1, input =>
    (readValueBy build fuel input).bind fun item =>
      match skip item.2 with
      | [] => none
      | c :: left =>
        if c.val = 93 then some ([item.1], left)
        else if c.val = 44 then
          (readItemsBy build fuel left).map fun found => (item.1 :: found.1, found.2)
        else none

/-- Reads at least one member, and the closing brace. -/
def readMembersBy (build : Build N) : ℕ → Text → Option (List (Text × Document Text N) × Text)
  | 0, _ => none
  | fuel + 1, input =>
    match skip input with
    | [] => none
    | c :: rest =>
      if c.val = 34 then
        (readText rest).bind fun key =>
          match skip key.2 with
          | [] => none
          | d :: left =>
            if d.val = 58 then
              (readValueBy build fuel left).bind fun value =>
                match skip value.2 with
                | [] => none
                | e :: left =>
                  if e.val = 125 then some ([(key.1, value.1)], left)
                  else if e.val = 44 then
                    (readMembersBy build fuel left).map fun found =>
                      ((key.1, value.1) :: found.1, found.2)
                  else none
            else none
      else none

end

/-- Reads a document that takes the whole of the input. -/
def readBy (build : Build N) (input : Text) : Option (Document Text N) :=
  (readValueBy build (input.length + 1) input).bind fun found =>
    if skip found.2 = [] then some found.1 else none

/-- The last value of a repeated key is kept. -/
def keepLast : Build N := fun members => some (.object (Document.lastWins members))

/-- The reader is the one that keeps the last value of a repeated key. -/
theorem readValueBy_keepLast (fuel : ℕ) (input : Text) :
    readValueBy (N := N) keepLast fuel input = readValue fuel input ∧
      readItemsBy (N := N) keepLast fuel input = readItems fuel input ∧
      readMembersBy (N := N) keepLast fuel input = readMembers fuel input := by
  induction fuel generalizing input with
  | zero => exact ⟨rfl, rfl, rfl⟩
  | succ fuel ih =>
    have hmembers (text : Text) :
        ((readMembersBy (N := N) keepLast fuel text).bind fun found =>
          (keepLast found.1).map fun value => (value, found.2)) =
        (readMembers fuel text).map fun found => (.object (Document.lastWins found.1), found.2) := by
      rw [(ih text).2.2]
      cases readMembers (N := N) fuel text <;> rfl
    refine ⟨?_, ?_, ?_⟩
    · simp only [readValueBy, readValue, hmembers, fun text => (ih text).2.1]
    · simp only [readItemsBy, readItems, fun text => (ih text).1, fun text => (ih text).2.1]
    · simp only [readMembersBy, readMembers, fun text => (ih text).1, fun text => (ih text).2.2]

/-! ### Reading a document back -/

/-- Blanks are skipped. -/
theorem skip_gap (n : ℕ) (input : Text) : skip (List.replicate n 32 ++ input) = skip input := by
  induction n with
  | zero => rfl
  | succ n ih =>
    rw [List.replicate_succ, List.cons_append, skip, List.dropWhile_cons_of_pos rfl]
    exact ih

theorem skip_cons (h : space c = false) (rest : Text) :
    skip (c :: rest) = c :: rest := by
  rw [skip, List.dropWhile_cons_of_neg (by rw [h]; exact Bool.false_ne_true)]

/-- What follows a number does not go on with it. -/
def Stops (rest : Text) : Prop := ∀ c left, rest = c :: left → numeric c = false

theorem stops_cons (h : numeric c = false) (left : Text) : Stops (c :: left) := by
  rintro _ _ ⟨⟩
  exact h

theorem stops_nil : Stops [] := fun _ _ h => by cases h

/-- A value may follow blanks. -/
theorem readValueBy_gap (build : Build N) (fuel n : ℕ) (input : Text) :
    readValueBy build fuel (List.replicate n 32 ++ input) = readValueBy build fuel input := by
  cases fuel with
  | zero => rw [readValueBy, readValueBy]
  | succ fuel => rw [readValueBy, readValueBy, skip_gap]

theorem readItemsBy_gap (build : Build N) (fuel n : ℕ) (input : Text) :
    readItemsBy build fuel (List.replicate n 32 ++ input) = readItemsBy build fuel input := by
  cases fuel with
  | zero => rw [readItemsBy, readItemsBy]
  | succ fuel => rw [readItemsBy, readItemsBy, readValueBy_gap]

theorem readMembersBy_gap (build : Build N) (fuel n : ℕ) (input : Text) :
    readMembersBy build fuel (List.replicate n 32 ++ input) = readMembersBy build fuel input := by
  cases fuel with
  | zero => rw [readMembersBy, readMembersBy]
  | succ fuel => rw [readMembersBy, readMembersBy, skip_gap]

theorem takeWhile_append_of_stops {digits rest : Text} (h : digits.all numeric = true)
    (hstops : Stops rest) : (digits ++ rest).takeWhile numeric = digits ∧
      (digits ++ rest).dropWhile numeric = rest := by
  have hall := List.all_eq_true.mp h
  rw [List.takeWhile_append_of_pos hall, List.dropWhile_append_of_pos hall]
  cases rest with
  | nil => exact ⟨List.append_nil digits, rfl⟩
  | cons c left =>
    have hc : ¬numeric c = true := by
      rw [hstops c left rfl]
      exact Bool.false_ne_true
    rw [List.takeWhile_cons_of_neg hc, List.dropWhile_cons_of_neg hc, List.append_nil]
    exact ⟨rfl, rfl⟩

section Reading

variable (build : Build N) (format : Format)

/-- The document is read back, with every fuel that its text is not longer than. -/
def ReadsBack (document : Document Text N) : Prop :=
  ∀ fuel rest, (write format document).length ≤ fuel → Stops rest →
    readValueBy build fuel (write format document ++ rest) = some (document, rest)

variable {build} {format}

/-- The items of a list are read back. -/
theorem readItemsBy_writeItems {items : List (Document Text N)} (hne : items ≠ [])
    (hback : ∀ item ∈ items, ReadsBack build format item) {fuel : ℕ}
    (hfuel : (writeItems format items).length ≤ fuel) (rest : Text) :
    readItemsBy build fuel (writeItems format items ++ rest) = some (items, rest) := by
  induction items generalizing fuel with
  | nil => exact absurd rfl hne
  | cons item items ih =>
    have hitem := hback item List.mem_cons_self
    rw [writeItems, List.length_append] at hfuel
    obtain _ | fuel := fuel
    · cases items <;> simp [separator] at hfuel
    rw [writeItems, List.append_assoc, readItemsBy]
    cases items with
    | nil =>
      rw [List.isEmpty_nil, if_pos rfl] at hfuel ⊢
      rw [List.length_singleton] at hfuel
      rw [List.singleton_append, hitem fuel _ (by omega) (stops_cons (by decide) _),
        Option.bind_some, skip_cons (by decide)]
      exact if_pos (by decide)
    | cons next items =>
      rw [List.isEmpty_cons, if_neg Bool.false_ne_true] at hfuel ⊢
      rw [separator, List.cons_append, List.length_cons, List.length_append] at hfuel
      rw [separator, List.cons_append, List.cons_append, List.append_assoc,
        hitem fuel _ (by omega) (stops_cons (by decide) _), Option.bind_some,
        skip_cons (by decide)]
      dsimp only
      rw [if_neg (by decide), if_pos (by decide), readItemsBy_gap,
        ih (List.cons_ne_nil _ _) (fun item hmem => hback item (List.mem_cons_of_mem _ hmem))
          (by omega)]
      rfl

/-- The members of an object are read back. -/
theorem readMembersBy_writeMembers {members : List (Text × Document Text N)} (hne : members ≠ [])
    (hkeys : ∀ member ∈ members, apart member.1 = true)
    (hback : ∀ member ∈ members, ReadsBack build format member.2) {fuel : ℕ}
    (hfuel : (writeMembers format members).length ≤ fuel) (rest : Text) :
    readMembersBy build fuel (writeMembers format members ++ rest) = some (members, rest) := by
  induction members generalizing fuel with
  | nil => exact absurd rfl hne
  | cons member members ih =>
    obtain ⟨key, value⟩ := member
    have hkey : apart key = true := hkeys _ List.mem_cons_self
    have hvalue : ReadsBack build format value := hback _ List.mem_cons_self
    rw [writeMembers, quote, colon] at hfuel ⊢
    simp only [List.cons_append, List.append_assoc, List.length_cons, List.length_append,
      List.nil_append] at hfuel ⊢
    obtain _ | fuel := fuel
    · omega
    rw [readMembersBy, skip_cons (by decide)]
    dsimp only
    rw [if_pos (by decide), readText_quote format hkey, Option.bind_some, skip_cons (by decide)]
    dsimp only
    rw [if_pos (by decide), readValueBy_gap]
    cases members with
    | nil =>
      rw [List.isEmpty_nil, if_pos rfl] at hfuel ⊢
      rw [List.length_singleton] at hfuel
      rw [List.singleton_append, hvalue fuel _ (by omega) (stops_cons (by decide) _),
        Option.bind_some, skip_cons (by decide)]
      exact if_pos (by decide)
    | cons next members =>
      rw [List.isEmpty_cons, if_neg Bool.false_ne_true] at hfuel ⊢
      rw [separator, List.cons_append, List.length_cons, List.length_append] at hfuel
      rw [separator, List.cons_append, List.cons_append, List.append_assoc,
        hvalue fuel _ (by omega) (stops_cons (by decide) _), Option.bind_some,
        skip_cons (by decide)]
      dsimp only
      rw [if_neg (by decide), if_pos (by decide), readMembersBy_gap,
        ih (List.cons_ne_nil _ _) (fun member hmem => hkeys member (List.mem_cons_of_mem _ hmem))
          (fun member hmem => hback member (List.mem_cons_of_mem _ hmem)) (by omega)]
      rfl

omit [Numeral N] in
theorem readWord_append (word : Text) (value : Document Text N) (rest : Text) :
    readWord word value (word ++ rest) = some (value, rest) := by
  rw [readWord, if_pos (List.isPrefixOf_iff_prefix.mpr (List.prefix_append word rest)),
    List.drop_left]

variable [DecidableEq N]

/-- The number is written with the code points of numbers and read back. -/
def legible (value : N) : Bool :=
  !(Numeral.print value).isEmpty && (Numeral.print value).all numeric &&
    Numeral.parse (Numeral.print value) == some value

/-- The documents that are read back. -/
def readable : Document.Rules Text N where
  text := whole
  key := whole
  number := legible
  keys keys := keys.Nodup

/-- The documents that are read back by a reader that keeps the members of an object without
repeated keys. -/
def settled : Document.Rules Text N where
  text := apart
  key := apart
  number := legible
  keys keys := keys.Nodup

variable {document : Document Text N}

/-- What one reader takes, the other takes. -/
theorem settled_of_readable (h : Document.every readable document = true) :
    Document.every settled document = true :=
  Document.every_mono h (fun _ => apart_of_whole) (fun _ => apart_of_whole) (fun _ h => h)
    fun _ _ h => h

theorem space_of_numeric {c : CodePoint} (h : numeric c = true) : space c = false := by
  simp only [numeric, Bool.or_eq_true, Bool.and_eq_true, decide_eq_true_eq] at h
  simp only [space, Bool.or_eq_false_iff, decide_eq_false_iff_not]
  omega

theorem print_eq_cons {value : N} (h : legible value = true) :
    ∃ c left, Numeral.print value = c :: left ∧ numeric c = true := by
  simp only [legible, Bool.and_eq_true, Bool.not_eq_true'] at h
  cases hprint : Numeral.print value with
  | nil => simp [hprint] at h
  | cons c left =>
    have hall := h.1.2
    rw [hprint, List.all_cons, Bool.and_eq_true] at hall
    exact ⟨c, left, rfl, hall.1⟩

/-- A value starts neither with a blank nor as a container ends. -/
theorem write_eq_cons (format : Format) (h : Document.every settled document = true) :
    ∃ c left, write format document = c :: left ∧ space c = false ∧ c.val ≠ 93 ∧ c.val ≠ 125 := by
  cases document with
  | null => exact ⟨_, _, by rw [write], by decide⟩
  | bool value => cases value <;> exact ⟨_, _, by rw [write], by decide⟩
  | text value => exact ⟨_, _, by rw [write, quote], by decide⟩
  | list items => exact ⟨_, _, by rw [write], by decide⟩
  | object members => exact ⟨_, _, by rw [write], by decide⟩
  | number value =>
    rw [Document.every] at h
    obtain ⟨c, left, hprint, hnumeric⟩ := print_eq_cons h
    refine ⟨c, left, by rw [write, hprint], space_of_numeric hnumeric, ?_⟩
    simp only [numeric, Bool.or_eq_true, Bool.and_eq_true, decide_eq_true_eq] at hnumeric
    omega

/-- A number is read back. -/
theorem readNumber_print {value : N} (h : legible value = true) {rest : Text}
    (hstops : Stops rest) :
    readNumber (Numeral.print value ++ rest) = some (.number value, rest) := by
  simp only [legible, Bool.and_eq_true, beq_iff_eq] at h
  obtain ⟨htake, hdrop⟩ := takeWhile_append_of_stops h.1.2 hstops
  rw [readNumber, htake, hdrop, h.2]
  rfl

/-- The first code point of the items after an opening bracket. -/
theorem writeItems_eq_cons {items : List (Document Text N)} (hne : items ≠ [])
    (h : ∀ item ∈ items, Document.every settled item = true) :
    ∃ c left, writeItems format items = c :: left ∧ space c = false ∧ c.val ≠ 93 := by
  obtain _ | ⟨item, items⟩ := items
  · exact absurd rfl hne
  · obtain ⟨c, left, hwrite, hspace, hbracket, -⟩ := write_eq_cons format (h item List.mem_cons_self)
    exact ⟨c, _, by rw [writeItems, hwrite, List.cons_append], hspace, hbracket⟩

/-- A document is read back. -/
theorem readValueBy_write
    (hbuild : ∀ members : List (Text × Document Text N), (members.map Prod.fst).Nodup → build members = some (.object members))
    (h : Document.every settled document = true) : ReadsBack build format document := by
  induction document using Document.induct with
  | null =>
    rintro (_ | fuel) rest hfuel -
    · simp [write] at hfuel
    rw [write, readValueBy, List.cons_append, skip_cons (by decide)]
    exact readWord_append [110, 117, 108, 108] .null rest
  | bool value =>
    rintro (_ | fuel) rest hfuel -
    · cases value <;> simp [write] at hfuel
    cases value with
    | false =>
      rw [write, readValueBy, List.cons_append, skip_cons (by decide)]
      exact readWord_append [102, 97, 108, 115, 101] (.bool false) rest
    | true =>
      rw [write, readValueBy, List.cons_append, skip_cons (by decide)]
      exact readWord_append [116, 114, 117, 101] (.bool true) rest
  | number value =>
    rintro (_ | fuel) rest hfuel hstops
    · obtain ⟨c, left, hwrite, -⟩ := write_eq_cons format h
      rw [hwrite, List.length_cons] at hfuel
      omega
    rw [Document.every] at h
    obtain ⟨c, left, hprint, hnumeric⟩ := print_eq_cons h
    have hread := readNumber_print h hstops
    rw [hprint, List.cons_append] at hread
    rw [write, hprint, readValueBy, List.cons_append, skip_cons (space_of_numeric hnumeric)]
    simp only [numeric, Bool.or_eq_true, Bool.and_eq_true, decide_eq_true_eq] at hnumeric
    dsimp only
    -- A number starts like no other value.
    rw [if_neg (by omega), if_neg (by omega), if_neg (by omega), if_neg (by omega),
      if_neg (by omega), if_neg (by omega), hread]
  | text value =>
    rintro (_ | fuel) rest hfuel -
    · simp [write, quote] at hfuel
    rw [Document.every] at h
    rw [write, quote, readValueBy, List.cons_append, skip_cons (by decide), List.append_assoc,
      List.singleton_append]
    dsimp only
    rw [if_pos (by decide), readText_quote format h]
    rfl
  | list items ih =>
    rintro (_ | fuel) rest hfuel -
    · simp [write] at hfuel
    rw [Document.every_list] at h
    rw [write, List.length_cons] at hfuel
    rw [write, readValueBy, List.cons_append, skip_cons (by decide)]
    dsimp only
    rw [if_neg (by decide), if_pos (by decide)]
    by_cases hne : items = []
    · subst hne
      rw [writeItems, List.singleton_append, skip_cons (by decide)]
      exact if_pos (by decide)
    · obtain ⟨c, left, hwrite, hspace, hbracket⟩ := writeItems_eq_cons hne h
      have hread := readItemsBy_writeItems hne (fun item hitem => ih item hitem (h item hitem))
        (Nat.le_of_succ_le_succ hfuel) rest
      rw [hwrite, List.cons_append] at hread ⊢
      rw [skip_cons hspace]
      dsimp only
      rw [if_neg hbracket, hread]
      rfl
  | object members ih =>
    rintro (_ | fuel) rest hfuel -
    · simp [write] at hfuel
    rw [Document.every_object] at h
    obtain ⟨hkeys, hmembers⟩ := h
    rw [write, List.length_cons] at hfuel
    rw [write, readValueBy, List.cons_append, skip_cons (by decide)]
    dsimp only
    rw [if_neg (by decide), if_neg (by decide), if_pos (by decide)]
    by_cases hne : members = []
    · subst hne
      rw [writeMembers, List.singleton_append, skip_cons (by decide)]
      exact if_pos (by decide)
    · have hwrite : ∃ left, writeMembers format members = 34 :: left := by
        obtain _ | ⟨⟨key, value⟩, members⟩ := members
        · exact absurd rfl hne
        · exact ⟨_, by rw [writeMembers, quote, List.cons_append]⟩
      obtain ⟨left, hwrite⟩ := hwrite
      have hread := readMembersBy_writeMembers hne (fun member hmem => (hmembers member hmem).1)
        (fun member hmem => ih member hmem (hmembers member hmem).2)
        (Nat.le_of_succ_le_succ hfuel) rest
      rw [hwrite, List.cons_append] at hread ⊢
      rw [skip_cons (by decide)]
      dsimp only
      rw [if_neg (by decide), hread, Option.bind_some, hbuild _ (of_decide_eq_true hkeys)]
      rfl

/-- A document is read back from its text. -/
theorem readBy_write
    (hbuild : ∀ members : List (Text × Document Text N), (members.map Prod.fst).Nodup → build members = some (.object members))
    (h : Document.every settled document = true) :
    readBy build (write format document) = some document := by
  have hback : ReadsBack build format document := readValueBy_write hbuild h
  have hread := hback ((write format document).length + 1) [] (Nat.le_succ _) stops_nil
  rw [List.append_nil] at hread
  rw [readBy, hread, Option.bind_some]
  exact if_pos rfl

/-- A document is read back by the reader that keeps the last value of a repeated key. -/
theorem read_write (h : Document.every readable document = true) :
    read (write format document) = some document := by
  have hread : readBy keepLast (write format document) = some document :=
    readBy_write (fun members hnodup => by rw [keepLast, Document.lastWins_eq_self hnodup])
      (settled_of_readable h)
  rwa [readBy, (readValueBy_keepLast _ _).1] at hread

end Reading

/-! ### The text has no halves of pairs -/

theorem whole_append (first second : Text) :
    whole (first ++ second) = (whole first && whole second) := List.all_append

/-- A writer that escapes what is outside of ASCII writes no halves of pairs, whatever the text. -/
theorem whole_escape {format : Format} (hascii : format.ensureAscii = true) (c : CodePoint) :
    whole (escape format c) = true := by
  have hunit : ∀ d : Fin 16, isSurrogate (hexDigit d) = false := by decide
  rw [escape]
  split
  · next letter hlookup =>
    have hall : ∀ pair ∈ shortEscapes, whole [92, Fin.ofNat 1114112 pair.2] = true := by decide
    exact hall _ (mem_of_lookup_eq_some hlookup)
  · split_ifs with hescaped
    · rw [whole, List.all_eq_true]
      intro x hx
      obtain ⟨u, -, hx⟩ := List.mem_flatMap.mp hx
      simp only [hexDigits, List.mem_cons, List.not_mem_nil, or_false] at hx
      obtain rfl | rfl | rfl | rfl | rfl | rfl := hx
      · decide
      · decide
      all_goals rw [hunit]; rfl
    · rw [hascii] at hescaped
      simp only [true_and, not_or, Nat.not_lt] at hescaped
      have hc : isSurrogate c = false := by
        rw [isSurrogate, Bool.and_eq_false_iff, decide_eq_false_iff_not, decide_eq_false_iff_not]
        omega
      rw [whole, List.all_cons, hc]
      rfl

/-- Quoted as ASCII, a text has no surrogates. -/
theorem whole_quote {format : Format} (hascii : format.ensureAscii = true) (text : Text) :
    whole (quote format text) = true := by
  have htext : whole (text.flatMap (escape format)) = true := by
    rw [whole, List.all_eq_true]
    intro x hx
    obtain ⟨c, -, hx⟩ := List.mem_flatMap.mp hx
    exact List.all_eq_true.mp (whole_escape hascii c) x hx
  rw [quote, ← List.singleton_append, whole_append, whole_append, htext]
  decide

theorem whole_gap (n : ℕ) : whole (List.replicate n 32) = true := by
  rw [whole, List.all_eq_true]
  intro c hc
  rw [List.eq_of_mem_replicate hc]
  decide

theorem whole_cons (hc : isSurrogate c = false) (text : Text) :
    whole (c :: text) = whole text := by
  rw [whole, List.all_cons, hc]
  rfl

section Whole

variable {format : Format}

theorem whole_of_numeric {text : Text} (h : text.all numeric = true) : whole text = true := by
  rw [whole, List.all_eq_true]
  intro c hc
  have hnumeric := List.all_eq_true.mp h c hc
  simp only [numeric, Bool.or_eq_true, Bool.and_eq_true, decide_eq_true_eq] at hnumeric
  simp only [isSurrogate, Bool.not_eq_true', Bool.and_eq_false_iff, decide_eq_false_iff_not]
  omega

/-- Nor have the items of a list. -/
theorem whole_writeItems {items : List (Document Text N)}
    (h : ∀ item ∈ items, whole (write format item) = true) :
    whole (writeItems format items) = true := by
  induction items with
  | nil => rw [writeItems]; decide
  | cons item items ih =>
    have hrest := ih fun other hmem => h other (List.mem_cons_of_mem _ hmem)
    rw [writeItems, whole_append, h item List.mem_cons_self, Bool.true_and]
    split
    · decide
    · rw [separator, List.cons_append, whole_cons (by decide), whole_append, whole_gap, hrest]
      rfl

/-- Nor have the members of an object. -/
theorem whole_writeMembers (hascii : format.ensureAscii = true)
    {members : List (Text × Document Text N)}
    (h : ∀ member ∈ members, whole (write format member.2) = true) :
    whole (writeMembers format members) = true := by
  induction members with
  | nil => rw [writeMembers]; decide
  | cons member members ih =>
    obtain ⟨key, value⟩ := member
    have hrest := ih fun other hmem => h other (List.mem_cons_of_mem _ hmem)
    have hvalue : whole (write format value) = true := h _ List.mem_cons_self
    rw [writeMembers, whole_append, whole_quote hascii, Bool.true_and, colon, List.cons_append,
      whole_cons (by decide), whole_append, whole_gap, Bool.true_and, whole_append, hvalue,
      Bool.true_and]
    split
    · decide
    · rw [separator, List.cons_append, whole_cons (by decide), whole_append, whole_gap, hrest]
      rfl

/-- The text of a document that is read back has bytes when it is ASCII. -/
theorem whole_write [DecidableEq N] (hascii : format.ensureAscii = true)
    {document : Document Text N} (h : Document.every settled document = true) :
    whole (write format document) = true := by
  induction document using Document.induct with
  | null => rw [write]; decide
  | bool value => cases value <;> rw [write] <;> decide
  | number value =>
    rw [Document.every] at h
    simp only [settled, legible, Bool.and_eq_true] at h
    rw [write]
    exact whole_of_numeric h.1.2
  | text value => rw [write]; exact whole_quote hascii value
  | list items ih =>
    rw [Document.every_list] at h
    rw [write, whole_cons (by decide)]
    exact whole_writeItems fun item hitem => ih item hitem (h item hitem)
  | object members ih =>
    rw [Document.every_object] at h
    rw [write, whole_cons (by decide)]
    exact whole_writeMembers hascii fun member hmem => ih member hmem (h.2 member hmem).2

end Whole

end Ficc.JsonText
