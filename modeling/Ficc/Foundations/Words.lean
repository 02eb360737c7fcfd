import Mathlib.Data.List.Basic
import Mathlib.Order.Defs.LinearOrder

/-!
# Words as keys

Identities are bit vectors. This file gives them their linear order, and decides quantifiers over
the words of a list or an option by going through these, where the instances for bit vectors would
go through all words.
-/

namespace Ficc

variable {n : ℕ} {p : BitVec n → Prop} [DecidablePred p]

instance instLinearOrderBitVec : LinearOrder (BitVec n) where
  le_refl := BitVec.le_refl
  le_trans _ _ _ := BitVec.le_trans
  le_antisymm _ _ h h' := BitVec.eq_of_toNat_eq (Nat.le_antisymm h h')
  le_total := BitVec.le_total
  lt_iff_le_not_ge _ _ := Nat.lt_iff_le_and_not_ge
  toDecidableLE := inferInstance
  toDecidableLT := inferInstance

instance instDecidableForallMemWords (words : List (BitVec n)) :
    Decidable (∀ word, word ∈ words → p word) := List.decidableBAll p words

instance instDecidableExistsMemWords (words : List (BitVec n)) :
    Decidable (∃ word, word ∈ words ∧ p word) := List.decidableBEx p words

instance instDecidableForallMemWord (found : Option (BitVec n)) :
    Decidable (∀ word, word ∈ found → p word) :=
  match found with
  | none => .isTrue fun _ h => nomatch h
  | some word => decidable_of_iff (p word) (by simp)

instance instDecidableExistsMemWord (found : Option (BitVec n)) :
    Decidable (∃ word, word ∈ found ∧ p word) :=
  match found with
  | none => .isFalse fun ⟨_, h, _⟩ => nomatch h
  | some word => decidable_of_iff (p word) (by simp)

end Ficc
