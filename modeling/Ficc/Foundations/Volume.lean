import Mathlib.Data.List.Basic

/-!
# A volume that can lose what was not synced

A folder of files on a volume, with what a loss of power may take away. The bytes of a file are
durable up to some length, and a sync makes all of them durable. The names of the folder are changed
in an order, and a loss of power goes back to the names at some time since the folder was synced
(`past` has the earlier ones). So after a loss a file has its durable bytes and perhaps some more,
and the folder has the names that it had at one time.

The folder has no two names for one file (`Sound`), which every operation keeps.
-/

namespace Ficc

/-- The content of a file, and how many of its bytes are durable. -/
structure Contents where
  bytes : List UInt8
  durable : ℕ
deriving DecidableEq

/-- A file after a loss of power, when it is found with these bytes: as it is, when they are not
among those that it may have. -/
def Contents.after (contents : Contents) (found : List UInt8) : Contents :=
  let bytes :=
    if contents.bytes.take contents.durable <+: found ∧ found.length ≤ contents.bytes.length then
      found
    else contents.bytes
  ⟨bytes, bytes.length⟩

/-- A file whose bytes are all durable keeps them. -/
theorem Contents.after_of_durable {contents : Contents}
    (h : contents.durable = contents.bytes.length) (found : List UInt8) :
    (Contents.after contents found).bytes = contents.bytes := by
  rw [Contents.after, h, List.take_length]
  dsimp only
  split_ifs with hfound
  · exact (hfound.1.eq_of_length (Nat.le_antisymm hfound.1.length_le hfound.2)).symm
  · rfl

/-- The names of a folder, with the files that they stand for. -/
abbrev Names (P : Type) := P → Option ℕ

/-- A volume with one folder. -/
structure Volume (P : Type) where
  files : ℕ → Contents
  /-- The number of the next file. -/
  fresh : ℕ
  now : Names P
  /-- The names at earlier times, since the folder was last synced. -/
  past : List (Names P)

namespace Volume

variable {P : Type}

/-- A volume with an empty folder. -/
def empty : Volume P := ⟨fun _ => ⟨[], 0⟩, 0, fun _ => none, []⟩

/-- The names that the folder may have after a loss of power. -/
def images (v : Volume P) : List (Names P) := v.now :: v.past

/-- The file of a name. -/
def file (v : Volume P) (p : P) : Option Contents := (v.now p).map v.files

/-- Changes the names. -/
def enter (v : Volume P) (names : Names P) : Volume P := { v with now := names, past := v.images }

/-- Changes the content of a file. -/
def alter (v : Volume P) (p : P) (f : Contents → Contents) : Volume P :=
  match v.now p with
  | some i => { v with files := Function.update v.files i (f (v.files i)) }
  | none => v

section Operations

variable [DecidableEq P]

/-- Makes an empty file, unless the name stands for one. -/
def create (v : Volume P) (p : P) : Volume P :=
  match v.now p with
  | some _ => v
  | none =>
    { v.enter (Function.update v.now p (some v.fresh)) with
      files := Function.update v.files v.fresh ⟨[], 0⟩
      fresh := v.fresh + 1 }

/-- Writes bytes at the end of a file. -/
def append (v : Volume P) (p : P) (bytes : List UInt8) : Volume P :=
  v.alter p fun contents => { contents with bytes := contents.bytes ++ bytes }

/-- Makes the bytes of a file durable. -/
def sync (v : Volume P) (p : P) : Volume P :=
  v.alter p fun contents => { contents with durable := contents.bytes.length }

/-- Takes a name away. -/
def unlink (v : Volume P) (p : P) : Volume P :=
  if v.now p = none then v else v.enter (Function.update v.now p none)

/-- Moves a file to another name, in the place of the file that had it. -/
def rename (v : Volume P) (p q : P) : Volume P :=
  v.enter (Function.update (Function.update v.now p none) q (v.now p))

/-- Makes the names durable. -/
def syncFolder (v : Volume P) : Volume P := { v with past := [] }

/-- A loss of power: the names of an earlier time, and the bytes that each file is found with. -/
def lose (v : Volume P) (time : ℕ) (found : ℕ → List UInt8) : Volume P where
  files i := Contents.after (v.files i) (found i)
  fresh := v.fresh
  now := v.images.getD time v.now
  past := []

end Operations

/-! ### No file has two names -/

/-- The numbers of files are below the next one, and no file has two names at one time. -/
structure Sound (v : Volume P) : Prop where
  below : ∀ names ∈ v.images, ∀ p i, names p = some i → i < v.fresh
  once : ∀ names ∈ v.images, ∀ p q i, names p = some i → names q = some i → p = q

theorem sound_empty : Sound (empty : Volume P) := by
  constructor
  · intro names hnames p i hi
    rw [images, empty, List.mem_singleton] at hnames
    rw [hnames] at hi
    cases hi
  · intro names hnames p q i hi
    rw [images, empty, List.mem_singleton] at hnames
    rw [hnames] at hi
    cases hi

theorem now_mem_images (v : Volume P) : v.now ∈ v.images := List.mem_cons_self

theorem Sound.enter {v : Volume P} (h : v.Sound) {names : Names P}
    (hbelow : ∀ p i, names p = some i → i < v.fresh)
    (honce : ∀ p q i, names p = some i → names q = some i → p = q) : (v.enter names).Sound := by
  constructor
  · intro other hother p i hi
    obtain rfl | hother := List.mem_cons.mp hother
    · exact hbelow p i hi
    · exact h.below other hother p i hi
  · intro other hother p q i hp hq
    obtain rfl | hother := List.mem_cons.mp hother
    · exact honce p q i hp hq
    · exact h.once other hother p q i hp hq

theorem alter_of_some {v : Volume P} {p : P} {i : ℕ} (h : v.now p = some i)
    (f : Contents → Contents) :
    v.alter p f = { v with files := Function.update v.files i (f (v.files i)) } := by
  rw [alter, h]

@[simp]
theorem alter_now (v : Volume P) (p : P) (f : Contents → Contents) : (v.alter p f).now = v.now := by
  rw [alter]
  split <;> rfl

@[simp]
theorem alter_images (v : Volume P) (p : P) (f : Contents → Contents) :
    (v.alter p f).images = v.images := by
  rw [alter]
  split <;> rfl

@[simp]
theorem alter_fresh (v : Volume P) (p : P) (f : Contents → Contents) :
    (v.alter p f).fresh = v.fresh := by
  rw [alter]
  split <;> rfl

theorem alter_files_of_ne {v : Volume P} {p : P} {i : ℕ} (h : v.now p ≠ some i)
    (f : Contents → Contents) : (v.alter p f).files i = v.files i := by
  rw [alter]
  split
  · next j hj =>
    refine Function.update_of_ne (fun hij => h ?_) _ _
    rw [hj, hij]
  · rfl

theorem Sound.alter {v : Volume P} (h : v.Sound) (p : P) (f : Contents → Contents) :
    (v.alter p f).Sound := by
  constructor
  · rw [alter_images, alter_fresh]
    exact h.below
  · rw [alter_images]
    exact h.once

section Operations

variable [DecidableEq P]

theorem create_eq {v : Volume P} {p : P} (h : v.now p = none) :
    v.create p = { v.enter (Function.update v.now p (some v.fresh)) with
      files := Function.update v.files v.fresh ⟨[], 0⟩
      fresh := v.fresh + 1 } := by
  rw [create, h]

theorem create_of_some {v : Volume P} {p : P} {i : ℕ} (h : v.now p = some i) : v.create p = v := by
  rw [create, h]

theorem Sound.create {v : Volume P} (h : v.Sound) (p : P) : (v.create p).Sound := by
  cases hp : v.now p with
  | some i => rwa [create_of_some hp]
  | none =>
    rw [create_eq hp]
    have hnow := h.below v.now v.now_mem_images
    constructor
    · intro names hnames q i hi
      obtain rfl | hnames := List.mem_cons.mp hnames
      · change Function.update v.now p (some v.fresh) q = some i at hi
        by_cases hq : q = p
        · subst hq
          rw [Function.update_self] at hi
          cases hi
          exact Nat.lt_succ_self _
        · rw [Function.update_of_ne hq] at hi
          exact Nat.lt_succ_of_lt (hnow q i hi)
      · exact Nat.lt_succ_of_lt (h.below names hnames q i hi)
    · intro names hnames q r i hq hr
      obtain rfl | hnames := List.mem_cons.mp hnames
      · change Function.update v.now p (some v.fresh) q = some i at hq
        change Function.update v.now p (some v.fresh) r = some i at hr
        -- The new number is below itself nowhere, so an old name has another one.
        by_cases hqp : q = p
        · by_cases hrp : r = p
          · rw [hqp, hrp]
          · subst hqp
            rw [Function.update_self] at hq
            rw [Function.update_of_ne hrp] at hr
            cases hq
            exact absurd (hnow r _ hr) (Nat.lt_irrefl _)
        · rw [Function.update_of_ne hqp] at hq
          by_cases hrp : r = p
          · subst hrp
            rw [Function.update_self] at hr
            cases hr
            exact absurd (hnow q _ hq) (Nat.lt_irrefl _)
          · rw [Function.update_of_ne hrp] at hr
            exact h.once v.now v.now_mem_images q r i hq hr
      · exact h.once names hnames q r i hq hr

theorem Sound.unlink {v : Volume P} (h : v.Sound) (p : P) : (v.unlink p).Sound := by
  rw [Volume.unlink]
  split
  · exact h
  · have hold : ∀ q i, Function.update v.now p none q = some i → v.now q = some i := by
      intro q i hi
      by_cases hq : q = p
      · subst hq
        rw [Function.update_self] at hi
        cases hi
      · rwa [Function.update_of_ne hq] at hi
    exact h.enter (fun q i hi => h.below v.now v.now_mem_images q i (hold q i hi))
      fun q r i hq hr => h.once v.now v.now_mem_images q r i (hold q i hq) (hold r i hr)

theorem rename_now_eq {v : Volume P} {p q r : P} {i : ℕ} (hr : (v.rename p q).now r = some i) :
    (r = q ∧ v.now p = some i) ∨ (r ≠ q ∧ r ≠ p ∧ v.now r = some i) := by
  change Function.update (Function.update v.now p none) q (v.now p) r = some i at hr
  by_cases hrq : r = q
  · subst hrq
    rw [Function.update_self] at hr
    exact .inl ⟨rfl, hr⟩
  · rw [Function.update_of_ne hrq] at hr
    by_cases hrp : r = p
    · subst hrp
      rw [Function.update_self] at hr
      cases hr
    · rw [Function.update_of_ne hrp] at hr
      exact .inr ⟨hrq, hrp, hr⟩

theorem Sound.rename {v : Volume P} (h : v.Sound) (p q : P) : (v.rename p q).Sound := by
  refine h.enter (fun r i hr => ?_) fun r s i hr hs => ?_
  · obtain ⟨-, hi⟩ | ⟨-, -, hi⟩ := rename_now_eq hr
    · exact h.below v.now v.now_mem_images p i hi
    · exact h.below v.now v.now_mem_images r i hi
  · have honce := h.once v.now v.now_mem_images
    obtain ⟨rfl, hi⟩ | ⟨-, hrp, hi⟩ := rename_now_eq hr <;>
      obtain ⟨rfl, hj⟩ | ⟨-, hsp, hj⟩ := rename_now_eq hs
    · rfl
    · exact absurd (honce _ _ _ hj hi) hsp
    · exact absurd (honce _ _ _ hi hj) hrp
    · exact honce _ _ _ hi hj

end Operations

theorem Sound.syncFolder {v : Volume P} (h : v.Sound) : v.syncFolder.Sound := by
  constructor
  · intro names hnames
    rw [images, Volume.syncFolder, List.mem_singleton] at hnames
    exact h.below names (hnames ▸ v.now_mem_images)
  · intro names hnames
    rw [images, Volume.syncFolder, List.mem_singleton] at hnames
    exact h.once names (hnames ▸ v.now_mem_images)

theorem lose_now_mem (v : Volume P) (time : ℕ) (found : ℕ → List UInt8) :
    (v.lose time found).now ∈ v.images := by
  rw [lose, List.getD_eq_getElem?_getD]
  cases hget : v.images[time]? with
  | none => exact v.now_mem_images
  | some names => exact List.mem_of_getElem? hget

theorem Sound.lose {v : Volume P} (h : v.Sound) (time : ℕ) (found : ℕ → List UInt8) :
    (v.lose time found).Sound := by
  have hmem := v.lose_now_mem time found
  constructor
  · intro names hnames
    obtain rfl : names = (v.lose time found).now := List.mem_singleton.mp hnames
    exact h.below _ hmem
  · intro names hnames
    obtain rfl : names = (v.lose time found).now := List.mem_singleton.mp hnames
    exact h.once _ hmem

end Volume

end Ficc
