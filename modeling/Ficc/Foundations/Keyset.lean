import Mathlib.Data.List.Sort

/-!
# Keyset pagination

A collection of keys is read page by page, and each page starts after the last key of the one
before. The collection may change between two pages. `Page P` describes a page that misses no key
of `P`, where `P` holds of the keys that are in the collection all the time.

## Main results

* `page_take`: the first elements of the sorted remaining keys are a page.
* `Walked.append` and `Walked.last_page`: pages that follow one another list every key of `P`, in
  order and without repetition.
* `smallest_concat`: a bounded collection of the smallest keys can be trimmed at any time.
-/

namespace Ficc

namespace Keyset

variable {κ : Type*} [LinearOrder κ] {P : κ → Prop} {cursor : Option κ} {keys seen : List κ}
  {more : Bool}

/-- The key comes after the cursor, or there is no cursor yet. -/
def Beyond (cursor : Option κ) (key : κ) : Prop := ∀ last ∈ cursor, last < key

instance (cursor : Option κ) : DecidablePred (Beyond cursor) :=
  fun key => inferInstanceAs (Decidable (∀ last ∈ cursor, last < key))

/-- The cursor after a page. -/
def advance (cursor : Option κ) (keys : List κ) : Option κ := keys.getLast?.or cursor

/-- A page after a cursor. It has the keys of `P` up to its last one and, unless more are
announced, all of them. -/
structure Page (P : κ → Prop) (cursor : Option κ) (keys : List κ) (more : Bool) : Prop where
  ordered : keys.Pairwise (· < ·)
  beyond : ∀ key ∈ keys, Beyond cursor key
  covers : ∀ key, P key → Beyond cursor key →
    key ∈ keys ∨ (more = true ∧ ∀ other ∈ keys, other < key)

/-- The first elements of the sorted keys beyond a cursor are a page. -/
theorem page_take {remaining : List κ} (hordered : remaining.Pairwise (· < ·))
    (hmem : ∀ key ∈ remaining, Beyond cursor key)
    (hall : ∀ key, P key → Beyond cursor key → key ∈ remaining) (n : ℕ) :
    Page P cursor (remaining.take n) (decide (n < remaining.length)) where
  ordered := hordered.sublist (List.take_sublist n remaining)
  beyond key hkey := hmem key (List.mem_of_mem_take hkey)
  covers key hkey hbeyond := by
    have hremaining : key ∈ remaining.take n ++ remaining.drop n := by
      rw [List.take_append_drop]
      exact hall key hkey hbeyond
    rcases List.mem_append.mp hremaining with htake | hdrop
    · exact .inl htake
    · have hless : n < remaining.length := by
        by_contra hle
        rw [List.drop_eq_nil_of_le (not_lt.mp hle)] at hdrop
        cases hdrop
      rw [← List.take_append_drop n remaining] at hordered
      exact .inr ⟨decide_eq_true hless,
        fun other hother => (List.pairwise_append.mp hordered).2.2 other hother key hdrop⟩

/-- The keys read so far, up to a cursor. -/
structure Walked (P : κ → Prop) (cursor : Option κ) (seen : List κ) : Prop where
  ordered : seen.Pairwise (· < ·)
  within : ∀ key ∈ seen, ∃ last ∈ cursor, key ≤ last
  covers : ∀ key, P key → key ∈ seen ∨ Beyond cursor key

theorem walked_nil : Walked P none [] where
  ordered := .nil
  within _ h := nomatch h
  covers _ _ := .inr fun _ h => nomatch h

/-- A key that is not beyond the cursor comes before all keys that are. -/
theorem lt_of_within {key other : κ} (h : ∃ last ∈ cursor, key ≤ last)
    (hbeyond : Beyond cursor other) : key < other := by
  obtain ⟨last, hlast, hle⟩ := h
  exact hle.trans_lt (hbeyond last hlast)

theorem Walked.ordered_append (h : Walked P cursor seen) (hpage : Page P cursor keys more) :
    (seen ++ keys).Pairwise (· < ·) :=
  List.pairwise_append.mpr ⟨h.ordered, hpage.ordered, fun key hkey other hother =>
    lt_of_within (h.within key hkey) (hpage.beyond other hother)⟩

/-- The last element of an ordered list bounds the others. -/
theorem le_getLast (hordered : keys.Pairwise (· < ·)) {last : κ} (hlast : keys.getLast? = some last) :
    ∀ key ∈ keys, key ≤ last := by
  intro key hkey
  obtain ⟨front, rfl⟩ := List.getLast?_eq_some_iff.mp hlast
  rcases List.mem_append.mp hkey with hfront | hself
  · exact ((List.pairwise_append.mp hordered).2.2 key hfront last (List.mem_singleton_self last)).le
  · exact (List.mem_singleton.mp hself).le

/-- What lies within the cursor lies within the next one. -/
theorem within_advance (hpage : Page P cursor keys more) {key : κ}
    (h : ∃ last ∈ cursor, key ≤ last) : ∃ last ∈ advance cursor keys, key ≤ last := by
  unfold advance
  cases hlast : keys.getLast? with
  | none => exact h
  | some last =>
    have hmem : last ∈ keys := List.mem_of_getLast? hlast
    exact ⟨last, rfl, (lt_of_within h (hpage.beyond last hmem)).le⟩

/-- A page that is not the last one extends what has been read up to the next cursor. -/
theorem Walked.append (h : Walked P cursor seen) (hpage : Page P cursor keys more) :
    Walked P (advance cursor keys) (seen ++ keys) where
  ordered := h.ordered_append hpage
  within key hkey := by
    rcases List.mem_append.mp hkey with hseen | hkeys
    · exact within_advance hpage (h.within key hseen)
    · have hlast : keys.getLast? = some _ :=
        List.getLast?_eq_some_getLast (List.ne_nil_of_mem hkeys)
      refine ⟨_, ?_, le_getLast hpage.ordered hlast key hkeys⟩
      rw [advance, hlast]
      rfl
  covers key hkey := by
    rcases h.covers key hkey with hseen | hbeyond
    · exact .inl (List.mem_append_left keys hseen)
    rcases hpage.covers key hkey hbeyond with hkeys | ⟨-, hgreater⟩
    · exact .inl (List.mem_append_right seen hkeys)
    · right
      intro last hlast
      unfold advance at hlast
      cases hgetLast : keys.getLast? with
      | none =>
        rw [hgetLast] at hlast
        exact hbeyond last hlast
      | some final =>
        rw [hgetLast] at hlast
        obtain rfl : final = last := Option.some.inj hlast
        exact hgreater final (List.mem_of_getLast? hgetLast)

/-- After the last page every key of `P` has been read, in order. -/
theorem Walked.last_page (h : Walked P cursor seen) (hpage : Page P cursor keys false) :
    (seen ++ keys).Pairwise (· < ·) ∧ ∀ key, P key → key ∈ seen ++ keys := by
  refine ⟨h.ordered_append hpage, fun key hkey => ?_⟩
  rcases h.covers key hkey with hseen | hbeyond
  · exact List.mem_append_left keys hseen
  · rcases hpage.covers key hkey hbeyond with hkeys | ⟨hfalse, -⟩
    · exact List.mem_append_right seen hkeys
    · cases hfalse

/-! ### Bounded collections -/

/-- The smallest keys in order, at most `n` of them. -/
def smallest (n : ℕ) (keys : List κ) : List κ := (keys.insertionSort (· ≤ ·)).take n

theorem insertionSort_congr {keys' : List κ} (h : keys.Perm keys') :
    keys.insertionSort (· ≤ ·) = keys'.insertionSort (· ≤ ·) := by
  refine List.Perm.eq_of_pairwise' (List.pairwise_insertionSort _ keys)
    (List.pairwise_insertionSort _ keys') ?_
  exact ((List.perm_insertionSort _ keys).trans h).trans (List.perm_insertionSort _ keys').symm

theorem smallest_congr (n : ℕ) {keys' : List κ} (h : keys.Perm keys') :
    smallest n keys = smallest n keys' := by
  rw [smallest, smallest, insertionSort_congr h]

theorem smallest_of_length_le {n : ℕ} (h : keys.length ≤ n) :
    smallest n keys = keys.insertionSort (· ≤ ·) :=
  List.take_of_length_le (by rwa [List.length_insertionSort])

/-- Only the first keys decide which keys come first after an insertion. -/
theorem take_orderedInsert (n : ℕ) (key : κ) (keys : List κ) :
    (keys.orderedInsert (· ≤ ·) key).take n =
      ((keys.take n).orderedInsert (· ≤ ·) key).take n := by
  induction keys generalizing n with
  | nil => rw [List.take_nil]
  | cons first rest ih =>
    cases n with
    | zero => rw [List.take_zero, List.take_zero]
    | succ n =>
      rw [List.take_succ_cons, List.orderedInsert_cons, List.orderedInsert_cons]
      split
      · have htrim : (first :: rest.take n).take n = (first :: rest).take n := by
          rw [← List.take_succ_cons, List.take_take, Nat.min_eq_left (Nat.le_succ n)]
        rw [List.take_succ_cons, List.take_succ_cons, htrim]
      · rw [List.take_succ_cons, List.take_succ_cons, ih]

/-- Larger keys can be left out before another key arrives. -/
theorem smallest_concat (n : ℕ) (keys : List κ) (key : κ) :
    smallest n (smallest n keys ++ [key]) = smallest n (keys ++ [key]) := by
  have hfront : ∀ keys : List κ, (keys ++ [key]).insertionSort (· ≤ ·) =
      (keys.insertionSort (· ≤ ·)).orderedInsert (· ≤ ·) key := by
    intro keys
    rw [insertionSort_congr (List.perm_append_singleton key keys), List.insertionSort_cons]
  have hsorted : (smallest n keys).insertionSort (· ≤ ·) = smallest n keys := by
    refine List.Pairwise.insertionSort_eq ?_
    exact (List.pairwise_insertionSort _ keys).sublist (List.take_sublist _ _)
  rw [smallest, hfront, hsorted, smallest, smallest, hfront, ← take_orderedInsert]

theorem insertionSort_pairwise_lt (h : keys.Nodup) :
    (keys.insertionSort (· ≤ ·)).Pairwise (· < ·) := by
  have hnodup : (keys.insertionSort (· ≤ ·)).Nodup :=
    (List.perm_insertionSort _ keys).nodup_iff.mpr h
  exact ((List.pairwise_insertionSort _ keys).and hnodup).imp fun hpair =>
    lt_of_le_of_ne hpair.1 hpair.2

end Keyset

end Ficc
