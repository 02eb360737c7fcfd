import Mathlib.Algebra.GroupWithZero.Nat
import Mathlib.Algebra.Order.BigOperators.Group.Finset
import Mathlib.Data.List.AList

/-!
# Tables with a primary key

A database table is an association list without duplicate keys. `insert` is both the `INSERT`
of a new row and the `UPDATE` of an existing one. `rows` is the whole table, `total` sums a
quantity over it, and `discard` deletes the rows that satisfy a predicate. Facts about all rows
are stated by lookup, so that the order of the rows never matters.
-/

namespace Ficc

/-- A table with primary key `κ` and rows `α`. -/
abbrev Table (κ α : Type) : Type := AList (fun _ : κ => α)

namespace Table

variable {κ α : Type}

/-- The rows of the table with their keys. -/
def rows (t : Table κ α) : List (κ × α) := t.entries.map fun entry => (entry.1, entry.2)

/-- The rows of the table without their keys. -/
def values (t : Table κ α) : List α := t.entries.map fun entry => entry.2

/-- The sum of a quantity over the rows. -/
def total (t : Table κ α) (amount : α → ℕ) : ℕ := (t.values.map amount).sum

theorem values_eq_map_rows (t : Table κ α) : t.values = t.rows.map Prod.snd := by
  simp [values, rows]

theorem nodup_map_fst_rows (t : Table κ α) : (t.rows.map Prod.fst).Nodup := by
  have hkeys : t.rows.map Prod.fst = t.keys := by
    simp only [rows, List.map_map, AList.keys, List.keys]
    rfl
  rw [hkeys]
  exact AList.keys_nodup t

variable [DecidableEq κ]

instance [DecidableEq α] : DecidableEq (Table κ α) :=
  fun s t => decidable_of_iff (s.entries = t.entries) AList.ext_iff.symm

variable {a : α} {k : κ} {t : Table κ α} {key : α → κ}

theorem mem_entries :
    (⟨k, a⟩ : Sigma fun _ : κ => α) ∈ t.entries ↔ t.lookup k = some a := by
  rw [← AList.mem_lookup_iff, Option.mem_def]

theorem mem_rows {row : κ × α} : row ∈ t.rows ↔ t.lookup row.1 = some row.2 := by
  simp only [rows, List.mem_map]
  constructor
  · rintro ⟨entry, hentry, rfl⟩
    exact mem_entries.mp hentry
  · intro h
    exact ⟨⟨row.1, row.2⟩, mem_entries.mpr h, rfl⟩

/-- The values are those that are found. -/
theorem mem_values : a ∈ t.values ↔ ∃ k, t.lookup k = some a := by
  simp only [values, List.mem_map]
  constructor
  · rintro ⟨entry, hentry, rfl⟩
    exact ⟨entry.1, mem_entries.mp hentry⟩
  · rintro ⟨k, h⟩
    exact ⟨⟨k, a⟩, mem_entries.mpr h, rfl⟩

/-- Searching the rows, or what is kept of each, is looking up the key. -/
theorem lookup_map_rows {β : Type} (t : Table κ α) (f : α → β) (k : κ) :
    (t.rows.map fun row => (row.1, f row.2)).lookup k = (t.lookup k).map f := by
  have hall (entries : List (Sigma fun _ : κ => α)) :
      (entries.map fun entry => (entry.1, f entry.2)).lookup k =
        (List.dlookup k entries).map f := by
    induction entries with
    | nil => rfl
    | cons entry rest ih =>
      obtain ⟨key, value⟩ := entry
      by_cases hk : key = k
      · subst hk
        simp
      · have hne : (k == key) = false := by simpa using Ne.symm hk
        simp only [List.map_cons, List.lookup_cons, hne, ih]
        exact congrArg (Option.map f) (List.dlookup_cons_ne rest _ (Ne.symm hk)).symm
  rw [rows, List.map_map]
  exact hall t.entries

/-- The row under a key after a row has been written. -/
theorem lookup_insert_eq (t : Table κ α) (k k' : κ) (a : α) :
    (t.insert k a).lookup k' = if k' = k then some a else t.lookup k' := by
  by_cases h : k' = k
  · subst h
    simp
  · simp [h, AList.lookup_insert_ne h]

/-- Writing a row adds its amount to the total and takes the amount of the old row away. -/
theorem total_insert (t : Table κ α) (k : κ) (a : α) (amount : α → ℕ) :
    total (t.insert k a) amount + (t.lookup k).elim 0 amount = t.total amount + amount a := by
  cases hlookup : t.lookup k with
  | none =>
    have hentries : (t.insert k a).entries = ⟨k, a⟩ :: t.entries :=
      AList.entries_insert_of_notMem (AList.lookup_eq_none.mp hlookup)
    simp only [total, values, hentries, List.map_cons, List.sum_cons, Option.elim_none]
    omega
  | some old =>
    have hmem : k ∈ t.entries.keys := by
      refine AList.mem_keys.mp (AList.lookup_isSome.mp ?_)
      rw [hlookup]
      rfl
    -- Erasing the key splits the entries around the old row.
    obtain ⟨found, before, after, -, hentries, herased⟩ := List.exists_of_kerase hmem
    have hfound : found = old := by
      have hentry : (⟨k, found⟩ : Sigma fun _ : κ => α) ∈ t.entries := by simp [hentries]
      rw [mem_entries, hlookup] at hentry
      exact (Option.some.inj hentry).symm
    subst hfound
    simp only [total, values, AList.entries_insert, herased]
    rw [hentries]
    simp only [List.map_cons, List.map_append, List.sum_cons, List.sum_append, Option.elim_some]
    omega

/-- The total is the sum over any set of keys that has the keys of all rows. -/
theorem total_eq_sum (t : Table κ α) (amount : α → ℕ) {keys : Finset κ}
    (h : ∀ k a, t.lookup k = some a → k ∈ keys) :
    t.total amount = ∑ k ∈ keys, (t.lookup k).elim 0 amount := by
  induction t using AList.insertRec with
  | H0 => simp [total, values]
  | IH k a rest habsent ih =>
    have hnone : rest.lookup k = none := AList.lookup_eq_none.mpr habsent
    have hkey : k ∈ keys := h k a (AList.lookup_insert rest)
    have hrest : ∀ k' a', rest.lookup k' = some a' → k' ∈ keys := by
      intro k' a' hlookup
      have hne : k' ≠ k := by
        rintro rfl
        rw [hnone] at hlookup
        cases hlookup
      exact h k' a' ((AList.lookup_insert_ne hne).trans hlookup)
    have htotal := total_insert rest k a amount
    rw [hnone, Option.elim_none, Nat.add_zero] at htotal
    rw [htotal, ih hrest, ← Finset.add_sum_erase keys _ hkey, ← Finset.add_sum_erase keys _ hkey,
      hnone, AList.lookup_insert, Option.elim_none, Option.elim_some, Nat.zero_add, Nat.add_comm]
    congr 1
    refine Finset.sum_congr rfl fun k' hk' => ?_
    rw [AList.lookup_insert_ne (Finset.ne_of_mem_erase hk')]

/-- A table whose rows come from rows of at least the same amount has no larger total. -/
theorem total_le_of_lookup {t' : Table κ α} {amount : α → ℕ}
    (h : ∀ k a', t'.lookup k = some a' → ∃ a, t.lookup k = some a ∧ amount a' ≤ amount a) :
    t'.total amount ≤ t.total amount := by
  have hmem (t : Table κ α) (k : κ) (a : α) (hlookup : t.lookup k = some a) :
      k ∈ t.keys.toFinset := by
    refine List.mem_toFinset.mpr (AList.mem_keys.mp (AList.lookup_isSome.mp ?_))
    rw [hlookup]
    rfl
  have hkeys : ∀ k a', t'.lookup k = some a' → k ∈ t.keys.toFinset := by
    intro k a' hlookup
    obtain ⟨a, ha, -⟩ := h k a' hlookup
    exact hmem t k a ha
  rw [total_eq_sum t' amount hkeys, total_eq_sum t amount (hmem t)]
  refine Finset.sum_le_sum fun k _ => ?_
  cases hlookup : t'.lookup k with
  | none => exact Nat.zero_le _
  | some a' =>
    obtain ⟨a, ha, hle⟩ := h k a' hlookup
    rw [ha]
    exact hle

/-- Deletes the rows that satisfy a predicate. -/
def discard (t : Table κ α) (doomed : κ → α → Bool) : Table κ α :=
  ⟨t.entries.filter fun entry => !doomed entry.1 entry.2,
    (List.Sublist.map Sigma.fst List.filter_sublist).nodup t.nodupKeys⟩

/-- Only what is doomed is gone. -/
theorem lookup_discard (t : Table κ α) (doomed : κ → α → Bool) (k : κ) :
    (t.discard doomed).lookup k = (t.lookup k).filter fun a => !doomed k a := by
  ext a
  rw [← mem_entries, Option.filter_eq_some_iff, ← mem_entries]
  simp [discard]

/-- The row under a key after a row has been deleted. -/
theorem lookup_erase_eq (t : Table κ α) (k k' : κ) :
    (t.erase k).lookup k' = if k' = k then none else t.lookup k' := by
  by_cases h : k' = k
  · subst h
    simp
  · simp [h, AList.lookup_erase_ne h]

omit [DecidableEq κ] in
/-- The number of rows is the total of one for each row. -/
theorem total_one (t : Table κ α) : (t.total fun _ => 1) = t.entries.length := by
  rw [total, values, List.map_map]
  induction t.entries with
  | nil => rfl
  | cons entry rest ih =>
    rw [List.map_cons, List.sum_cons, ih, List.length_cons]
    exact Nat.add_comm _ _

/-- Writing a row under a key of the table keeps the number of rows. -/
theorem length_insert_of_isSome (h : (t.lookup k).isSome) (a : α) :
    (t.insert k a).entries.length = t.entries.length := by
  obtain ⟨old, hold⟩ := Option.isSome_iff_exists.mp h
  have htotal := total_insert t k a fun _ => 1
  rw [total_one, total_one, hold, Option.elim_some] at htotal
  omega

/-- Writing a row under a new key adds one to the number of rows. -/
theorem length_insert_of_none (h : t.lookup k = none) (a : α) :
    (t.insert k a).entries.length = t.entries.length + 1 := by
  have htotal := total_insert t k a fun _ => 1
  rwa [total_one, total_one, h, Option.elim_none, Nat.add_zero] at htotal

/-- Deleting a row does not add to a total. -/
theorem total_erase_le (t : Table κ α) (k : κ) (amount : α → ℕ) :
    total (t.erase k) amount ≤ t.total amount := by
  refine total_le_of_lookup fun k' a' hlookup => ⟨a', ?_, le_refl _⟩
  rw [lookup_erase_eq] at hlookup
  split_ifs at hlookup
  exact hlookup

theorem length_erase_le (t : Table κ α) (k : κ) :
    (t.erase k).entries.length ≤ t.entries.length := by
  have htotal := total_erase_le t k fun _ => 1
  rwa [total_one, total_one] at htotal

/-- A table that differs in one missing row has one row less. -/
theorem length_of_lookup_erased {s : Table κ α}
    (h : ∀ k', t.lookup k' = if k' = k then none else s.lookup k') (hk : (s.lookup k).isSome = true) :
    t.entries.length = s.entries.length - 1 := by
  have hkeys : t.keys.Perm (s.keys.erase k) := by
    refine (List.perm_ext_iff_of_nodup (AList.keys_nodup t)
      ((AList.keys_nodup s).erase k)).mpr fun k' => ?_
    rw [(AList.keys_nodup s).mem_erase_iff, ← AList.mem_keys, ← AList.mem_keys,
      ← AList.lookup_isSome, ← AList.lookup_isSome, h]
    by_cases hsame : k' = k <;> simp [hsame]
  have hlength := hkeys.length_eq
  rw [List.length_erase_of_mem (AList.mem_keys.mp (AList.lookup_isSome.mp hk))] at hlength
  simpa [AList.keys, List.keys] using hlength

/-- Changes the row under a key when there is one, as an `UPDATE` with the key does. -/
def modify (t : Table κ α) (k : κ) (f : α → α) : Table κ α :=
  match t.lookup k with
  | none => t
  | some a => t.insert k (f a)

/-- One row is changed. -/
theorem lookup_modify (t : Table κ α) (k k' : κ) (f : α → α) :
    (t.modify k f).lookup k' = if k' = k then (t.lookup k).map f else t.lookup k' := by
  unfold modify
  cases hlookup : t.lookup k with
  | none =>
    by_cases hk : k' = k
    · rw [if_pos hk, hk, Option.map_none]
      exact hlookup
    · rw [if_neg hk]
  | some a => exact lookup_insert_eq t k k' (f a)

/-- Changes every row. -/
def mapRows (t : Table κ α) (f : α → α) : Table κ α :=
  ⟨t.entries.map (Sigma.map id fun _ => f), List.NodupKeys.map₂ _ _ t.nodupKeys⟩

theorem lookup_mapRows (t : Table κ α) (f : α → α) (k : κ) :
    (t.mapRows f).lookup k = (t.lookup k).map f :=
  List.dlookup_map₂ k

omit [DecidableEq κ] in
/-- Every row is under the key that it names. -/
structure KeyedBy (key : α → κ) (t : Table κ α) : Prop where
  key_eq : ∀ {k a}, t.lookup k = some a → key a = k

theorem KeyedBy.insert (h : t.KeyedBy key) (hkey : key a = k) : KeyedBy key (t.insert k a) := by
  refine ⟨fun {k' a'} hlookup => ?_⟩
  rw [lookup_insert_eq] at hlookup
  split_ifs at hlookup with hk
  · obtain rfl := Option.some.inj hlookup
    exact hkey.trans hk.symm
  · exact h.key_eq hlookup

theorem KeyedBy.erase (h : t.KeyedBy key) (k : κ) :
    KeyedBy key (t.erase k) := by
  refine ⟨fun {k' a'} hlookup => ?_⟩
  rw [lookup_erase_eq] at hlookup
  split_ifs at hlookup
  exact h.key_eq hlookup

theorem KeyedBy.discard (h : t.KeyedBy key) (doomed : κ → α → Bool) :
    KeyedBy key (t.discard doomed) := by
  refine ⟨fun {k a} hlookup => ?_⟩
  rw [lookup_discard, Option.filter_eq_some_iff] at hlookup
  exact h.key_eq hlookup.1

theorem KeyedBy.mapRows (h : t.KeyedBy key) {f : α → α} (hf : ∀ a, key (f a) = key a) :
    KeyedBy key (t.mapRows f) := by
  refine ⟨fun {k a} hlookup => ?_⟩
  rw [lookup_mapRows, Option.map_eq_some_iff] at hlookup
  obtain ⟨old, hold, rfl⟩ := hlookup
  exact (hf old).trans (h.key_eq hold)

end Table

end Ficc
