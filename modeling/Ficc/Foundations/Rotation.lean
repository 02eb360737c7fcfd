import Mathlib.Order.Lattice
import Mathlib.Data.List.Basic

/-!
# Going round a linear order

Elements are visited from the one after `last` upwards, and from the least again. `Ahead last` is
the order of these visits. Visiting an element puts it behind all others, and leaves the order of
those that it was ahead of.
-/

namespace Ficc

variable {α : Type*} [LinearOrder α]

/-- `a` is visited before `b` when the last visit was to `last`. -/
def Ahead (last : Option α) (a b : α) : Prop :=
  match last with
  | none => a < b
  | some last => last < a ∧ (b ≤ last ∨ a < b) ∨ a ≤ last ∧ a < b ∧ b ≤ last

theorem Ahead.asymm {last : Option α} {a b : α} (h : Ahead last a b) : ¬Ahead last b a := by
  cases last with
  | none => exact lt_asymm h
  | some last =>
    rintro (⟨hb, ha | hlt⟩ | ⟨hb, hlt, ha⟩)
    · rcases h with ⟨ha', -⟩ | ⟨-, -, hb'⟩
      · exact absurd ha' (not_lt.mpr ha)
      · exact absurd hb (not_lt.mpr hb')
    · rcases h with ⟨-, hb' | hlt'⟩ | ⟨-, hlt', -⟩
      · exact absurd hb (not_lt.mpr hb')
      · exact lt_asymm hlt hlt'
      · exact lt_asymm hlt hlt'
    · rcases h with ⟨ha', -⟩ | ⟨-, hlt', -⟩
      · exact absurd ha' (not_lt.mpr ha)
      · exact lt_asymm hlt hlt'

/-- What was visited is behind everything else. -/
theorem ahead_visited {a b : α} (h : a ≠ b) : Ahead (some b) a b := by
  rcases lt_or_gt_of_ne h with hlt | hgt
  · exact .inr ⟨hlt.le, hlt, le_rfl⟩
  · exact .inl ⟨hgt, .inl le_rfl⟩

/-- A visit leaves the order of what comes after it. -/
theorem Ahead.visit {last : Option α} {a b c : α} (h : Ahead last a b) (h' : Ahead last b c) :
    Ahead (some a) b c := by
  cases last with
  | none => exact .inl ⟨h, .inr h'⟩
  | some last =>
    rcases h with ⟨ha, hb | hlt⟩ | ⟨ha, hlt, hb⟩
    · -- The round has passed the greatest element between `a` and `b`.
      rcases h' with ⟨hb', -⟩ | ⟨-, hlt', hc⟩
      · exact absurd hb' (not_lt.mpr hb)
      · exact .inr ⟨hb.trans ha.le, hlt', hc.trans ha.le⟩
    · rcases h' with ⟨-, hc | hlt'⟩ | ⟨hb, -, -⟩
      · exact .inl ⟨hlt, .inl (hc.trans ha.le)⟩
      · exact .inl ⟨hlt, .inr hlt'⟩
      · exact absurd (ha.trans hlt) (not_lt.mpr hb)
    · rcases h' with ⟨hb', -⟩ | ⟨-, hlt', -⟩
      · exact absurd hb' (not_lt.mpr hb)
      · exact .inl ⟨hlt, .inr hlt'⟩

/-- A sorted list, cut after the last visit and put together the other way round. -/
theorem pairwise_ahead {list : List α} (h : list.Pairwise (· < ·)) (last : α) :
    (list.filter (last < ·) ++ list.filter (· ≤ last)).Pairwise (Ahead (some last)) := by
  rw [List.pairwise_append]
  refine ⟨?_, ?_, ?_⟩
  · refine (h.filter _).imp_of_mem ?_
    intro a b ha _ hlt
    exact .inl ⟨by simpa using (List.mem_filter.mp ha).2, .inr hlt⟩
  · refine (h.filter _).imp_of_mem ?_
    intro a b ha hb hlt
    exact .inr ⟨by simpa using (List.mem_filter.mp ha).2, hlt,
      by simpa using (List.mem_filter.mp hb).2⟩
  · intro a ha b hb
    exact .inl ⟨by simpa using (List.mem_filter.mp ha).2, .inl (by
      simpa using (List.mem_filter.mp hb).2)⟩

end Ficc
