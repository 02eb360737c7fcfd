import Mathlib.Data.List.Basic

/-!
# Base64

Bytes as text with the alphabet for file names and URLs. Three bytes become four characters, and
the last group is padded. A decoder also accepts the standard alphabet.

## Main results

* `decode_encode`: what is encoded is decoded again.
* `length_encode`: the length of the text.
-/

namespace Ficc

instance instLawfulBEqBytes : LawfulBEq (List UInt8) := inferInstance

namespace Base64

/-- The 64 characters. -/
def alphabet : List Char :=
  "ABCDEFGHIJKLMNOPQRSTUVWXYZabcdefghijklmnopqrstuvwxyz0123456789-_".toList

/-- The character of six bits. -/
def digit (n : ℕ) : Char := alphabet.getD n 'A'

/-- The six bits of a character. -/
def value (c : Char) : Option ℕ :=
  if c = '+' then some 62
  else if c = '/' then some 63
  else alphabet.idxOf? c

theorem value_digit {n : ℕ} (h : n < 64) : value (digit n) = some n := by
  have hall : ∀ n < 64, value (digit n) = some n := by decide +kernel
  exact hall n h

theorem digit_ne_pad {n : ℕ} (h : n < 64) : digit n ≠ '=' := by
  have hall : ∀ n < 64, digit n ≠ '=' := by decide +kernel
  exact hall n h

/-- The text of bytes. -/
def encode : List UInt8 → List Char
  | [] => []
  | [a] => [digit (a.toNat / 4), digit (a.toNat % 4 * 16), '=', '=']
  | [a, b] =>
    [digit (a.toNat / 4), digit (a.toNat % 4 * 16 + b.toNat / 16), digit (b.toNat % 16 * 4), '=']
  | a :: b :: c :: rest =>
    digit (a.toNat / 4) :: digit (a.toNat % 4 * 16 + b.toNat / 16) ::
      digit (b.toNat % 16 * 4 + c.toNat / 64) :: digit (c.toNat % 64) :: encode rest

/-- The first byte of a group of six bits each. -/
def first (w x : ℕ) : UInt8 := UInt8.ofNat (w * 4 + x / 16)

/-- The second byte. -/
def second (x y : ℕ) : UInt8 := UInt8.ofNat (x % 16 * 16 + y / 4)

/-- The third byte. -/
def third (y z : ℕ) : UInt8 := UInt8.ofNat (y % 4 * 64 + z)

/-- The bytes of groups of four characters. After complete groups any number of pads is passed
over, while a group that pads complete has to be the last. -/
def decodeGroups (text : List Char) : Option (List UInt8) :=
  if text.all (· = '=') then some []
  else match text with
    | w :: x :: y :: z :: rest =>
      if rest = [] ∧ y = '=' ∧ z = '=' then do
        let w ← value w
        let x ← value x
        some [first w x]
      else if rest = [] ∧ z = '=' then do
        let w ← value w
        let x ← value x
        let y ← value y
        some [first w x, second x y]
      else do
        let w ← value w
        let x ← value x
        let y ← value y
        let z ← value z
        let rest ← decodeGroups rest
        some (first w x :: second x y :: third y z :: rest)
    | _ => none

/-- The bytes of a text, which does not begin with a pad. -/
def decode (text : List Char) : Option (List UInt8) :=
  if text.head? = some '=' then none else decodeGroups text

theorem ofNat_eq {a : UInt8} {n : ℕ} (h : n = a.toNat) : UInt8.ofNat n = a := by
  rw [h, UInt8.ofNat_toNat]

theorem head?_encode_ne_pad (bytes : List UInt8) : (encode bytes).head? ≠ some '=' := by
  have hpad (a : UInt8) : digit (a.toNat / 4) ≠ '=' := by
    have ha := a.toNat_lt
    exact digit_ne_pad (by omega)
  cases bytes using encode.fun_cases with
  | case1 => simp [encode]
  | case2 a => simp [encode, hpad]
  | case3 a b => simp [encode, hpad]
  | case4 a b c rest => simp [encode, hpad]

theorem decodeGroups_encode (bytes : List UInt8) : decodeGroups (encode bytes) = some bytes := by
  induction bytes using encode.induct with
  | case1 => rfl
  | case2 a =>
    have ha := a.toNat_lt
    have hfirst : first (a.toNat / 4) (a.toNat % 4 * 16) = a := ofNat_eq (by omega)
    have hpad : digit (a.toNat / 4) ≠ '=' := digit_ne_pad (by omega)
    simp [encode, decodeGroups, hpad, value_digit (show a.toNat / 4 < 64 by omega),
      value_digit (show a.toNat % 4 * 16 < 64 by omega), hfirst]
  | case3 a b =>
    have ha := a.toNat_lt
    have hb := b.toNat_lt
    have hfirst : first (a.toNat / 4) (a.toNat % 4 * 16 + b.toNat / 16) = a :=
      ofNat_eq (by omega)
    have hsecond : second (a.toNat % 4 * 16 + b.toNat / 16) (b.toNat % 16 * 4) = b :=
      ofNat_eq (by omega)
    have hpad : digit (a.toNat / 4) ≠ '=' := digit_ne_pad (by omega)
    have hlast : digit (b.toNat % 16 * 4) ≠ '=' := digit_ne_pad (by omega)
    simp [encode, decodeGroups, hpad, hlast, value_digit (show a.toNat / 4 < 64 by omega),
      value_digit (show a.toNat % 4 * 16 + b.toNat / 16 < 64 by omega),
      value_digit (show b.toNat % 16 * 4 < 64 by omega), hfirst, hsecond]
  | case4 a b c rest ih =>
    have ha := a.toNat_lt
    have hb := b.toNat_lt
    have hc := c.toNat_lt
    have hfirst : first (a.toNat / 4) (a.toNat % 4 * 16 + b.toNat / 16) = a :=
      ofNat_eq (by omega)
    have hsecond : second (a.toNat % 4 * 16 + b.toNat / 16) (b.toNat % 16 * 4 + c.toNat / 64) = b :=
      ofNat_eq (by omega)
    have hthird : third (b.toNat % 16 * 4 + c.toNat / 64) (c.toNat % 64) = c :=
      ofNat_eq (by omega)
    have hpad : digit (a.toNat / 4) ≠ '=' := digit_ne_pad (by omega)
    have hlast : digit (c.toNat % 64) ≠ '=' := digit_ne_pad (by omega)
    simp [encode, decodeGroups, hpad, hlast, ih, value_digit (show a.toNat / 4 < 64 by omega),
      value_digit (show a.toNat % 4 * 16 + b.toNat / 16 < 64 by omega),
      value_digit (show b.toNat % 16 * 4 + c.toNat / 64 < 64 by omega),
      value_digit (show c.toNat % 64 < 64 by omega), hfirst, hsecond, hthird]

/-- What is encoded is decoded again. -/
theorem decode_encode (bytes : List UInt8) : decode (encode bytes) = some bytes := by
  rw [decode, if_neg (head?_encode_ne_pad bytes), decodeGroups_encode]

-- Excess pads after complete groups are passed over, and none may come first.
example : decode "AAAA=".toList = some [0, 0, 0] ∧ decode "AA===".toList = none ∧
    decode "=".toList = none := by decide +kernel

/-- The number of characters depends on the number of bytes alone. -/
theorem length_encode (bytes : List UInt8) :
    (encode bytes).length = (bytes.length + 2) / 3 * 4 := by
  induction bytes using encode.induct with
  | case1 => rfl
  | case2 a => simp [encode]
  | case3 a b => simp [encode]
  | case4 a b c rest ih =>
    simp only [encode, List.length_cons, ih]
    omega

end Base64

end Ficc
