import Ficc.Foundations.Utf16

/-!
# UTF-8

A text is a list of code points. `encode` writes it as bytes, and a text with halves of surrogate
pairs has no bytes. The characters of a string are code points, none of which is such a half.

`decodeFrom` reads bytes one at a time and keeps what is owed of the last code point, so a text can
be decoded in pieces (`decodeFrom_append`). It refuses a byte as soon as no text goes on with it, so
what it reads is the shortest form of code points that are no halves.

## Main results

* `decode_encode`: what is written is read back.
* `whole_decode`: what is read has no halves of pairs.
-/

namespace Ficc.Utf8

open Utf16

/-- A text. -/
abbrev Text := List CodePoint

instance instLawfulBEqText : LawfulBEq Text := inferInstance

/-- A character as a code point. -/
def point (c : Char) : CodePoint :=
  ⟨c.toNat, by
    have h := c.valid
    simp only [Char.toNat, UInt32.isValidChar, Nat.isValidChar] at h ⊢
    omega⟩

/-- A string as a text. -/
def points (s : String) : Text := s.toList.map point

theorem point_injective : Function.Injective point := by
  intro a b h
  have hval : (point a).val = (point b).val := by rw [h]
  exact Char.toNat_inj.mp hval

theorem points_injective : Function.Injective points := fun _ _ h =>
  String.toList_inj.mp (List.map_injective_iff.mpr point_injective h)

theorem isSurrogate_point (c : Char) : isSurrogate (point c) = false := by
  have h := c.valid
  simp only [UInt32.isValidChar, Nat.isValidChar] at h
  have hval : (point c).val = c.val.toNat := rfl
  rw [isSurrogate, hval]
  simp only [Bool.and_eq_false_iff, decide_eq_false_iff_not]
  omega

/-- The text has no halves of surrogate pairs. -/
def whole (text : Text) : Bool := text.all fun c => !isSurrogate c

theorem whole_points (s : String) : whole (points s) = true := by
  rw [whole, List.all_eq_true]
  intro c hc
  obtain ⟨d, -, rfl⟩ := List.mem_map.mp hc
  rw [isSurrogate_point]
  rfl

/-- The bytes of a code point. -/
def sequence (c : CodePoint) : List UInt8 :=
  if c.val < 128 then [.ofNat c.val]
  else if c.val < 2048 then [.ofNat (192 + c.val / 64), .ofNat (128 + c.val % 64)]
  else if c.val < 65536 then
    [.ofNat (224 + c.val / 4096), .ofNat (128 + c.val / 64 % 64), .ofNat (128 + c.val % 64)]
  else
    [.ofNat (240 + c.val / 262144), .ofNat (128 + c.val / 4096 % 64),
      .ofNat (128 + c.val / 64 % 64), .ofNat (128 + c.val % 64)]

/-- Writes a text as bytes. -/
def encode (text : Text) : Option (List UInt8) :=
  if whole text then some (text.flatMap sequence) else none

/-! ### Reading -/

/-- What has been read of a code point, how many bytes are owed, and the range of the next one. -/
structure Owed where
  bits : ℕ
  count : ℕ
  low : ℕ
  high : ℕ
deriving DecidableEq

/-- Reads a byte. Between code points nothing is owed. -/
def push : Option Owed → UInt8 → Option (Option Owed × Text)
  | none, byte =>
    let b := byte.toNat
    if b < 128 then some (none, [Fin.ofNat _ b])
    else if 194 ≤ b ∧ b ≤ 223 then some (some ⟨b - 192, 1, 128, 191⟩, [])
    else if b = 224 then some (some ⟨0, 2, 160, 191⟩, [])
    else if b = 237 then some (some ⟨13, 2, 128, 159⟩, [])
    else if 225 ≤ b ∧ b ≤ 239 then some (some ⟨b - 224, 2, 128, 191⟩, [])
    else if b = 240 then some (some ⟨0, 3, 144, 191⟩, [])
    else if b = 244 then some (some ⟨4, 3, 128, 143⟩, [])
    else if 241 ≤ b ∧ b ≤ 243 then some (some ⟨b - 240, 3, 128, 191⟩, [])
    else none
  | some owed, byte =>
    let b := byte.toNat
    if owed.low ≤ b ∧ b ≤ owed.high then
      let bits := owed.bits * 64 + (b - 128)
      if owed.count ≤ 1 then some (none, [Fin.ofNat _ bits])
      else some (some ⟨bits, owed.count - 1, 128, 191⟩, [])
    else none

/-- Reads bytes. -/
def decodeFrom : Option Owed → List UInt8 → Option (Option Owed × Text)
  | owed, [] => some (owed, [])
  | owed, byte :: rest =>
    (push owed byte).bind fun first =>
      (decodeFrom first.1 rest).map fun left => (left.1, first.2 ++ left.2)

/-- Reads bytes that end between two code points. -/
def decode (bytes : List UInt8) : Option Text :=
  match decodeFrom none bytes with
  | some (none, text) => some text
  | _ => none

/-- Bytes can be read in pieces. -/
theorem decodeFrom_append (owed : Option Owed) (first second : List UInt8) :
    decodeFrom owed (first ++ second) = (decodeFrom owed first).bind fun before =>
      (decodeFrom before.1 second).map fun after => (after.1, before.2 ++ after.2) := by
  induction first generalizing owed with
  | nil =>
    rw [List.nil_append, decodeFrom, Option.bind_some]
    simp
  | cons byte first ih =>
    rw [List.cons_append, decodeFrom, decodeFrom]
    cases push owed byte with
    | none => rfl
    | some pushed =>
      rw [Option.bind_some, Option.bind_some, ih]
      cases decodeFrom pushed.1 first with
      | none => rfl
      | some before =>
        simp only [Option.bind_some, Option.map_some, Option.map_map]
        cases decodeFrom before.1 second with
        | none => rfl
        | some after => simp

variable {n : ℕ} {text : Text} {bytes : List UInt8}

theorem toNat_ofNat (h : n < 256) : (UInt8.ofNat n).toNat = n := by
  rw [UInt8.toNat_ofNat']
  exact Nat.mod_eq_of_lt h

/-- What the first byte of a code point says. -/
theorem push_none (hn : n < 256) :
    push none (.ofNat n) =
      if n < 128 then some (none, [Fin.ofNat _ n])
      else if 194 ≤ n ∧ n ≤ 223 then some (some ⟨n - 192, 1, 128, 191⟩, [])
      else if n = 224 then some (some ⟨0, 2, 160, 191⟩, [])
      else if n = 237 then some (some ⟨13, 2, 128, 159⟩, [])
      else if 225 ≤ n ∧ n ≤ 239 then some (some ⟨n - 224, 2, 128, 191⟩, [])
      else if n = 240 then some (some ⟨0, 3, 144, 191⟩, [])
      else if n = 244 then some (some ⟨4, 3, 128, 143⟩, [])
      else if 241 ≤ n ∧ n ≤ 243 then some (some ⟨n - 240, 3, 128, 191⟩, [])
      else none := by
  rw [push, toNat_ofNat hn]

/-- The last byte of a code point. -/
theorem decodeFrom_last {owed : Owed} {c : CodePoint} (hn : n < 256) (hlow : owed.low ≤ n)
    (hhigh : n ≤ owed.high) (hcount : owed.count = 1) (hc : owed.bits * 64 + (n - 128) = c.val) :
    decodeFrom (some owed) [.ofNat n] = some (none, [c]) := by
  have hsame : Fin.ofNat 1114112 c.val = c := Fin.ofNat_val_eq_self c
  rw [decodeFrom, push, toNat_ofNat hn]
  dsimp only
  rw [if_pos ⟨hlow, hhigh⟩, if_pos (Nat.le_of_eq hcount), hc, hsame]
  rfl

/-- A byte in the middle of a code point. -/
theorem decodeFrom_middle {owed : Owed} {rest : List UInt8} (hn : n < 256) (hlow : owed.low ≤ n)
    (hhigh : n ≤ owed.high) (hcount : 1 < owed.count) :
    decodeFrom (some owed) (.ofNat n :: rest) =
      decodeFrom (some ⟨owed.bits * 64 + (n - 128), owed.count - 1, 128, 191⟩) rest := by
  rw [decodeFrom, push, toNat_ofNat hn]
  dsimp only
  rw [if_pos ⟨hlow, hhigh⟩, if_neg (Nat.not_le_of_lt hcount), Option.bind_some]
  simp

/-- The first of several bytes. -/
theorem decodeFrom_first {owed : Owed} {rest : List UInt8}
    (h : push none (.ofNat n) = some (some owed, [])) :
    decodeFrom none (.ofNat n :: rest) = decodeFrom (some owed) rest := by
  rw [decodeFrom, h, Option.bind_some]
  simp

/-- A code point is read from its bytes. -/
theorem decodeFrom_sequence {c : CodePoint} (h : isSurrogate c = false) :
    decodeFrom none (sequence c) = some (none, [c]) := by
  have hbound := c.isLt
  simp only [isSurrogate, Bool.and_eq_false_iff, decide_eq_false_iff_not] at h
  rw [sequence]
  split_ifs with hone htwo hthree
  · have hc : Fin.ofNat 1114112 c.val = c := Fin.ofNat_val_eq_self c
    rw [decodeFrom, push_none (by omega), if_pos hone, hc]
    rfl
  · have hlead : push none (.ofNat (192 + c.val / 64)) = some (some ⟨c.val / 64, 1, 128, 191⟩, []) := by
      rw [push_none (by omega), if_neg (by omega), if_pos (by omega), Nat.add_sub_cancel_left]
    rw [decodeFrom_first hlead]
    exact decodeFrom_last (by omega) (by dsimp only; omega) (by dsimp only; omega) rfl
      (by dsimp only; omega)
  · -- The range of the second byte depends on the first one.
    have hlead : ∃ low high, push none (.ofNat (224 + c.val / 4096)) =
        some (some ⟨c.val / 4096, 2, low, high⟩, []) ∧
        low ≤ 128 + c.val / 64 % 64 ∧ 128 + c.val / 64 % 64 ≤ high := by
      rw [push_none (by omega), if_neg (by omega), if_neg (by omega)]
      by_cases hzero : c.val / 4096 = 0
      · rw [hzero, if_pos rfl]
        exact ⟨160, 191, rfl, by omega, by omega⟩
      · rw [if_neg (by omega)]
        by_cases hlast : c.val / 4096 = 13
        · rw [hlast, if_pos rfl]
          exact ⟨128, 159, rfl, by omega, by omega⟩
        · rw [if_neg (by omega), if_pos (by omega), Nat.add_sub_cancel_left]
          exact ⟨128, 191, rfl, by omega, by omega⟩
    obtain ⟨low, high, hpush, hlow, hhigh⟩ := hlead
    rw [decodeFrom_first hpush, decodeFrom_middle (by omega) hlow hhigh (Nat.lt_succ_self 1)]
    exact decodeFrom_last (by omega) (by dsimp only; omega) (by dsimp only; omega) rfl
      (by dsimp only; omega)
  · have hlead : ∃ low high, push none (.ofNat (240 + c.val / 262144)) =
        some (some ⟨c.val / 262144, 3, low, high⟩, []) ∧
        low ≤ 128 + c.val / 4096 % 64 ∧ 128 + c.val / 4096 % 64 ≤ high := by
      rw [push_none (by omega), if_neg (by omega), if_neg (by omega), if_neg (by omega),
        if_neg (by omega), if_neg (by omega)]
      by_cases hzero : c.val / 262144 = 0
      · rw [hzero, if_pos rfl]
        exact ⟨144, 191, rfl, by omega, by omega⟩
      · rw [if_neg (by omega)]
        by_cases hlast : c.val / 262144 = 4
        · rw [hlast, if_pos rfl]
          exact ⟨128, 143, rfl, by omega, by omega⟩
        · rw [if_neg (by omega), if_pos (by omega), Nat.add_sub_cancel_left]
          exact ⟨128, 191, rfl, by omega, by omega⟩
    obtain ⟨low, high, hpush, hlow, hhigh⟩ := hlead
    rw [decodeFrom_first hpush, decodeFrom_middle (by omega) hlow hhigh (by dsimp only; omega),
      decodeFrom_middle (by omega) (by dsimp only; omega) (by dsimp only; omega)
        (Nat.lt_succ_self 1)]
    exact decodeFrom_last (by omega) (by dsimp only; omega) (by dsimp only; omega) rfl
      (by dsimp only; omega)

theorem decodeFrom_flatMap (h : whole text = true) :
    decodeFrom none (text.flatMap sequence) = some (none, text) := by
  induction text with
  | nil => rfl
  | cons c text ih =>
    rw [whole, List.all_cons, Bool.and_eq_true, Bool.not_eq_true'] at h
    rw [List.flatMap_cons, decodeFrom_append, decodeFrom_sequence h.1, Option.bind_some, ih h.2]
    rfl

/-- What is written is read back. -/
theorem decode_encode (h : encode text = some bytes) :
    decode bytes = some text := by
  rw [encode] at h
  split at h
  · next hwhole =>
    cases h
    rw [decode, decodeFrom_flatMap hwhole]
  · cases h

/-! ### What is read has no halves of pairs -/

/-- What is owed leads to no half of a pair and to nothing beyond the last code point. -/
structure Owed.Clear (owed : Owed) : Prop where
  count : 1 ≤ owed.count ∧ owed.count ≤ 3
  range : 128 ≤ owed.low ∧ owed.high ≤ 191
  one : owed.count = 1 → (owed.bits < 864 ∨ 896 ≤ owed.bits) ∧ owed.bits < 17408
  two : owed.count = 2 → (owed.bits * 64 + (owed.high - 128) < 864 ∨
    896 ≤ owed.bits * 64 + (owed.low - 128)) ∧ owed.bits * 64 + (owed.high - 128) < 17408
  three : owed.count = 3 →
    16 ≤ owed.bits * 64 + (owed.low - 128) ∧ owed.bits * 64 + (owed.high - 128) < 272

/-- A byte leaves what is owed clear, and completes no half of a pair. -/
theorem push_clear {owed owed' : Option Owed} {byte : UInt8} (howed : ∀ o ∈ owed, o.Clear)
    (h : push owed byte = some (owed', text)) :
    (∀ o ∈ owed', o.Clear) ∧ whole text = true := by
  cases owed with
  | none =>
    have hbyte : (UInt8.ofNat byte.toNat) = byte := UInt8.ofNat_toNat
    rw [← hbyte, push_none byte.toNat_lt] at h
    have hlead (bits count low high : ℕ) (hclear : Owed.Clear ⟨bits, count, low, high⟩)
        (hsame : some (some (⟨bits, count, low, high⟩ : Owed), ([] : Text)) = some (owed', text)) :
        (∀ o ∈ owed', o.Clear) ∧ whole text = true := by
      obtain ⟨rfl, rfl⟩ := Prod.mk.inj (Option.some.inj hsame)
      exact ⟨fun o ho => Option.some.inj ho ▸ hclear, rfl⟩
    split_ifs at h with hone htwo hlow hpairs hthree hfour hlast hmiddle
    · obtain ⟨rfl, rfl⟩ := Prod.mk.inj (Option.some.inj h)
      refine ⟨fun _ ho => (nomatch ho), ?_⟩
      have hval : (Fin.ofNat 1114112 byte.toNat).val = byte.toNat := Nat.mod_eq_of_lt (by omega)
      rw [whole, List.all_cons, List.all_nil, Bool.and_true, isSurrogate, hval]
      simp only [Bool.not_eq_true', Bool.and_eq_false_iff, decide_eq_false_iff_not]
      omega
    all_goals
      exact hlead _ _ _ _ ⟨by dsimp only; omega, by dsimp only; omega, by dsimp only; omega,
        by dsimp only; omega, by dsimp only; omega⟩ h
  | some owed =>
    obtain ⟨hcount, hrange, hone, htwo, hthree⟩ := howed owed rfl
    rw [push] at h
    dsimp only at h
    split_ifs at h with hnext hlast
    · obtain ⟨rfl, rfl⟩ := Prod.mk.inj (Option.some.inj h)
      refine ⟨fun _ ho => (nomatch ho), ?_⟩
      have hbits := hone (by omega)
      have hval : (Fin.ofNat 1114112 (owed.bits * 64 + (byte.toNat - 128))).val =
          owed.bits * 64 + (byte.toNat - 128) := Nat.mod_eq_of_lt (by omega)
      rw [whole, List.all_cons, List.all_nil, Bool.and_true, isSurrogate, hval]
      simp only [Bool.not_eq_true', Bool.and_eq_false_iff, decide_eq_false_iff_not]
      omega
    · obtain ⟨rfl, rfl⟩ := Prod.mk.inj (Option.some.inj h)
      refine ⟨fun o ho => ?_, rfl⟩
      obtain rfl := Option.some.inj ho
      obtain hcase | hcase : owed.count = 2 ∨ owed.count = 3 := by omega
      · have hbits := htwo hcase
        exact ⟨by dsimp only; omega, by dsimp only; omega, by dsimp only; omega,
          by dsimp only; omega, by dsimp only; omega⟩
      · have hbits := hthree hcase
        exact ⟨by dsimp only; omega, by dsimp only; omega, by dsimp only; omega,
          by dsimp only; omega, by dsimp only; omega⟩

theorem decodeFrom_clear {owed owed' : Option Owed} (howed : ∀ o ∈ owed, o.Clear)
    (h : decodeFrom owed bytes = some (owed', text)) :
    whole text = true := by
  induction bytes generalizing owed text with
  | nil =>
    rw [decodeFrom] at h
    obtain ⟨-, rfl⟩ := Prod.mk.inj (Option.some.inj h)
    rfl
  | cons byte bytes ih =>
    rw [decodeFrom] at h
    obtain ⟨⟨next, first⟩, hpush, h⟩ := Option.bind_eq_some_iff.mp h
    obtain ⟨⟨last, rest⟩, hrest, hsame⟩ := Option.map_eq_some_iff.mp h
    obtain ⟨rfl, rfl⟩ := Prod.mk.inj hsame
    obtain ⟨hclear, hfirst⟩ := push_clear howed hpush
    have hrest := ih hclear hrest
    rw [whole] at hfirst hrest ⊢
    rw [List.all_append, hfirst, hrest]
    rfl

/-- What is read has no halves of pairs. -/
theorem whole_decode (h : decode bytes = some text) :
    whole text = true := by
  rw [decode] at h
  split at h
  · next found hfound =>
    obtain rfl := Option.some.inj h
    have hnone : ∀ o ∈ (none : Option Owed), o.Clear := fun _ ho => (nomatch ho)
    exact decodeFrom_clear hnone hfound
  · cases h

end Ficc.Utf8
