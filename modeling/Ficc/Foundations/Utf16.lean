import Mathlib.Data.List.Basic
import Mathlib.Algebra.GroupWithZero.Nat

/-!
# UTF-16

A text is a list of code points, surrogates included. A code point is written as one 16-bit code unit
or as a pair of surrogates, and a pair is read as one code point. A surrogate that is not part of a
pair stands for itself.
-/

namespace Ficc.Utf16

/-- A code unit. -/
abbrev CodeUnit := Fin 65536

/-- A code point. -/
abbrev CodePoint := Fin 1114112

instance instNeZeroCodePoint : NeZero 1114112 := ⟨by decide⟩

instance instLawfulBEqCodePoint : LawfulBEq CodePoint := inferInstance

/-- The unit is the first half of a pair. -/
def isHigh (u : CodeUnit) : Bool := 55296 ≤ u.val && u.val < 56320

/-- The unit is the second half of a pair. -/
def isLow (u : CodeUnit) : Bool := 56320 ≤ u.val && u.val < 57344

/-- The code point is a surrogate. -/
def isSurrogate (c : CodePoint) : Bool := 55296 ≤ c.val && c.val < 57344

/-- The unit as a code point. -/
def ofUnit (u : CodeUnit) : CodePoint := ⟨u.val, by omega⟩

/-- The code point of two halves. Halves that are no surrogates are read as if they were. -/
def combine (high low : CodeUnit) : CodePoint :=
  ⟨65536 + high.val % 1024 * 1024 + low.val % 1024, by omega⟩

/-- The units of a code point. -/
def units (c : CodePoint) : List CodeUnit :=
  if h : c.val < 65536 then [⟨c.val, h⟩]
  else
    [⟨55296 + (c.val - 65536) / 1024, by omega⟩, ⟨56320 + (c.val - 65536) % 1024, by omega⟩]

end Ficc.Utf16
