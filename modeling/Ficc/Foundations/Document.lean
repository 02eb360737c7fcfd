import Mathlib.Data.List.Nodup

/-!
# Documents over arbitrary texts and numbers

A document is a tree of lists and objects whose leaves are texts and numbers of given types, so that
one definition serves for the values of several languages. `every` checks all texts, keys, numbers and
lists of keys of a document, `normalize` rewrites the lists of members, and `accepts` is a validator
with a limit on the depth and on the size of a collection. The limits are about the shape of a
document only (`accepts_iff`).
-/

namespace Ficc

/-- A document with texts in `T` and numbers in `N`. -/
inductive Document (T N : Type)
  | null
  | bool (value : Bool)
  | number (value : N)
  | text (value : T)
  | list (items : List (Document T N))
  | object (members : List (T × Document T N))

namespace Document

variable {T N : Type}

/-- Induction over documents. -/
theorem induct {P : Document T N → Prop} (null : P .null) (bool : ∀ value, P (.bool value))
    (number : ∀ value, P (.number value)) (text : ∀ value, P (.text value))
    (list : ∀ items, (∀ item ∈ items, P item) → P (.list items))
    (object : ∀ members, (∀ member ∈ members, P member.2) → P (.object members))
    (document : Document T N) : P document := by
  refine @Document.rec T N P (fun items => ∀ item ∈ items, P item)
    (fun members => ∀ member ∈ members, P member.2) (fun member => P member.2)
    null bool number text list object ?_ ?_ ?_ ?_ ?_ document
  · exact nofun
  · intro item items hitem hitems
    exact List.forall_mem_cons.mpr ⟨hitem, hitems⟩
  · exact nofun
  · intro member members hmember hmembers
    exact List.forall_mem_cons.mpr ⟨hmember, hmembers⟩
  · exact fun _ _ h => h

/-! ### Checking every node -/

/-- What is checked of the nodes of a document. -/
structure Rules (T N : Type) where
  text : T → Bool
  key : T → Bool
  number : N → Bool
  keys : List T → Bool

/-- The rules that accept everything. -/
def Rules.any : Rules T N where
  text _ := true
  key _ := true
  number _ := true
  keys _ := true

mutual

/-- Every node passes the rules. -/
def every (rules : Rules T N) : Document T N → Bool
  | .null => true
  | .bool _ => true
  | .number value => rules.number value
  | .text value => rules.text value
  | .list items => everyItem rules items
  | .object members => rules.keys (members.map Prod.fst) && everyMember rules members

def everyItem (rules : Rules T N) : List (Document T N) → Bool
  | [] => true
  | item :: rest => every rules item && everyItem rules rest

def everyMember (rules : Rules T N) : List (T × Document T N) → Bool
  | [] => true
  | (key, value) :: rest => rules.key key && every rules value && everyMember rules rest

end

variable {rules : Rules T N} {members : List (T × Document T N)} {document : Document T N}

theorem every_list {items : List (Document T N)} :
    every rules (.list items) = true ↔ ∀ item ∈ items, every rules item = true := by
  rw [every]
  induction items with
  | nil => simp [everyItem]
  | cons item rest ih => rw [everyItem, Bool.and_eq_true, ih, List.forall_mem_cons]

theorem every_object :
    every rules (.object members) = true ↔ rules.keys (members.map Prod.fst) = true ∧
      ∀ member ∈ members, rules.key member.1 = true ∧ every rules member.2 = true := by
  rw [every, Bool.and_eq_true]
  refine and_congr Iff.rfl ?_
  generalize members = rest
  induction rest with
  | nil => simp [everyMember]
  | cons member rest ih =>
    rw [everyMember, Bool.and_eq_true, Bool.and_eq_true, ih, List.forall_mem_cons]

/-- What passes rules passes weaker ones. -/
theorem every_mono {rules' : Rules T N} (h : every rules document = true)
    (htext : ∀ t, rules.text t = true → rules'.text t = true)
    (hkey : ∀ t, rules.key t = true → rules'.key t = true)
    (hnumber : ∀ n, rules.number n = true → rules'.number n = true)
    (hkeys : ∀ keys, (∀ t ∈ keys, rules.key t = true) → rules.keys keys = true → rules'.keys keys = true)
    :
    every rules' document = true := by
  induction document using induct with
  | null => rw [every]
  | bool value => rw [every]
  | number value => rw [every] at h ⊢; exact hnumber value h
  | text value => rw [every] at h ⊢; exact htext value h
  | list items ih =>
    rw [every_list] at h ⊢
    exact fun item hitem => ih item hitem (h item hitem)
  | object members ih =>
    rw [every_object] at h ⊢
    refine ⟨hkeys _ ?_ h.1, fun member hmember => ?_⟩
    · exact List.forall_mem_map.mpr fun member hmember => (h.2 member hmember).1
    · exact ⟨hkey _ (h.2 member hmember).1, ih member hmember (h.2 member hmember).2⟩

/-- The nodes that pass two rules. -/
theorem every_and {rules' : Rules T N} :
    every ⟨fun t => rules.text t && rules'.text t, fun t => rules.key t && rules'.key t,
        fun n => rules.number n && rules'.number n,
        fun keys => rules.keys keys && rules'.keys keys⟩ document = true ↔
      every rules document = true ∧ every rules' document = true := by
  induction document using induct with
  | null => simp [every]
  | bool value => simp [every]
  | number value => simp [every]
  | text value => simp [every]
  | list items ih =>
    rw [every_list, every_list, every_list, ← forall₂_and]
    exact forall₂_congr ih
  | object members ih =>
    rw [every_object, every_object, every_object]
    simp only [Bool.and_eq_true]
    constructor
    · intro h
      exact ⟨⟨h.1.1, fun m hm => ⟨(h.2 m hm).1.1, ((ih m hm).mp (h.2 m hm).2).1⟩⟩,
        h.1.2, fun m hm => ⟨(h.2 m hm).1.2, ((ih m hm).mp (h.2 m hm).2).2⟩⟩
    · intro h
      exact ⟨⟨h.1.1, h.2.1⟩, fun m hm => ⟨⟨(h.1.2 m hm).1, (h.2.2 m hm).1⟩,
        (ih m hm).mpr ⟨(h.1.2 m hm).2, (h.2.2 m hm).2⟩⟩⟩

/-! ### Rewriting the members of objects -/

mutual

/-- Rewrites the list of members of every object, the inner ones first. -/
def normalize (f : List (T × Document T N) → List (T × Document T N)) :
    Document T N → Document T N
  | .null => .null
  | .bool value => .bool value
  | .number value => .number value
  | .text value => .text value
  | .list items => .list (normalizeItems f items)
  | .object members => .object (f (normalizeMembers f members))

def normalizeItems (f : List (T × Document T N) → List (T × Document T N)) :
    List (Document T N) → List (Document T N)
  | [] => []
  | item :: rest => normalize f item :: normalizeItems f rest

def normalizeMembers (f : List (T × Document T N) → List (T × Document T N)) :
    List (T × Document T N) → List (T × Document T N)
  | [] => []
  | (key, value) :: rest => (key, normalize f value) :: normalizeMembers f rest

end

theorem normalizeItems_eq_map (f : List (T × Document T N) → List (T × Document T N))
    (items : List (Document T N)) : normalizeItems f items = items.map (normalize f) := by
  induction items with
  | nil => rw [normalizeItems, List.map_nil]
  | cons item rest ih => rw [normalizeItems, List.map_cons, ih]

theorem normalizeMembers_eq_map (f : List (T × Document T N) → List (T × Document T N))
    (members : List (T × Document T N)) :
    normalizeMembers f members = members.map fun member => (member.1, normalize f member.2) := by
  induction members with
  | nil => rw [normalizeMembers, List.map_nil]
  | cons member rest ih => rw [normalizeMembers, List.map_cons, ih]

/-- Members in which the last value given for a key takes the place of the earlier ones. -/
def lastWins [DecidableEq T] (members : List (T × Document T N)) : List (T × Document T N) :=
  members.foldl
    (fun kept member =>
      if member.1 ∈ kept.map Prod.fst then
        kept.map fun other => if other.1 = member.1 then member else other
      else kept ++ [member]) []

theorem lastWins_eq_self [DecidableEq T] (h : (members.map Prod.fst).Nodup) :
    lastWins members = members := by
  have hall : ∀ rest kept : List (T × Document T N), ((kept ++ rest).map Prod.fst).Nodup →
      rest.foldl (fun kept member =>
        if member.1 ∈ kept.map Prod.fst then
          kept.map fun other => if other.1 = member.1 then member else other
        else kept ++ [member]) kept = kept ++ rest := by
    intro rest
    induction rest with
    | nil => exact fun kept _ => (List.append_nil kept).symm
    | cons member rest ih =>
      intro kept hnodup
      have hnew : member.1 ∉ kept.map Prod.fst := by
        rw [List.map_append, List.map_cons, List.nodup_append] at hnodup
        exact fun hmem => hnodup.2.2 _ hmem _ List.mem_cons_self rfl
      rw [List.foldl_cons, if_neg hnew, ih (kept ++ [member])]
      · rw [List.append_assoc, List.singleton_append]
      · rwa [List.append_assoc, List.singleton_append]
  exact hall members [] h

/-! ### A validator with limits -/

/-- The limits of a validator. -/
structure Limits where
  depth : ℕ
  size : ℕ

mutual

/-- Every node passes the rules, and the document is not too deep and has no collection that is too
large. `depth` is the depth of the node. -/
def accepts (limits : Limits) (rules : Rules T N) (depth : ℕ) : Document T N → Bool
  | .null => depth ≤ limits.depth
  | .bool _ => depth ≤ limits.depth
  | .number value => depth ≤ limits.depth && rules.number value
  | .text value => depth ≤ limits.depth && rules.text value
  | .list items =>
    depth ≤ limits.depth && items.length ≤ limits.size &&
      acceptsItems limits rules (depth + 1) items
  | .object members =>
    depth ≤ limits.depth && members.length ≤ limits.size && rules.keys (members.map Prod.fst) &&
      acceptsMembers limits rules (depth + 1) members

def acceptsItems (limits : Limits) (rules : Rules T N) (depth : ℕ) :
    List (Document T N) → Bool
  | [] => true
  | item :: rest => accepts limits rules depth item && acceptsItems limits rules depth rest

def acceptsMembers (limits : Limits) (rules : Rules T N) (depth : ℕ) :
    List (T × Document T N) → Bool
  | [] => true
  | (key, value) :: rest =>
    rules.key key && accepts limits rules depth value && acceptsMembers limits rules depth rest

end

variable {limits : Limits} {depth : ℕ}

theorem accepts_list {items : List (Document T N)} :
    accepts limits rules depth (.list items) = true ↔
      (depth ≤ limits.depth ∧ items.length ≤ limits.size) ∧
        ∀ item ∈ items, accepts limits rules (depth + 1) item = true := by
  rw [accepts, Bool.and_eq_true, Bool.and_eq_true, decide_eq_true_eq, decide_eq_true_eq]
  refine and_congr Iff.rfl ?_
  generalize items = rest
  induction rest with
  | nil => simp [acceptsItems]
  | cons item rest ih => rw [acceptsItems, Bool.and_eq_true, ih, List.forall_mem_cons]

theorem accepts_object :
    accepts limits rules depth (.object members) = true ↔
      ((depth ≤ limits.depth ∧ members.length ≤ limits.size) ∧
        rules.keys (members.map Prod.fst) = true) ∧
        ∀ member ∈ members, rules.key member.1 = true ∧
          accepts limits rules (depth + 1) member.2 = true := by
  rw [accepts, Bool.and_eq_true, Bool.and_eq_true, Bool.and_eq_true, decide_eq_true_eq,
    decide_eq_true_eq]
  refine and_congr Iff.rfl ?_
  generalize members = rest
  induction rest with
  | nil => simp [acceptsMembers]
  | cons member rest ih =>
    rw [acceptsMembers, Bool.and_eq_true, Bool.and_eq_true, ih, List.forall_mem_cons]

/-- The limits are about the shape of a document and the rules about its nodes. -/
theorem accepts_iff :
    accepts limits rules depth document = true ↔
      accepts limits Rules.any depth document = true ∧ every rules document = true := by
  induction document using induct generalizing depth with
  | null => simp [accepts, every]
  | bool value => simp [accepts, every]
  | number value => simp [accepts, every, Rules.any]
  | text value => simp [accepts, every, Rules.any]
  | list items ih =>
    have hitems := forall₂_congr fun item hitem => @ih item hitem (depth + 1)
    rw [accepts_list, accepts_list, every_list, hitems, forall₂_and, ← and_assoc]
  | object members ih =>
    rw [accepts_object, accepts_object, every_object]
    constructor
    · intro h
      refine ⟨⟨⟨h.1.1, rfl⟩, fun member hmember => ⟨rfl, ?_⟩⟩, h.1.2, fun member hmember => ?_⟩
      · exact ((ih member hmember).mp (h.2 member hmember).2).1
      · exact ⟨(h.2 member hmember).1, ((ih member hmember).mp (h.2 member hmember).2).2⟩
    · intro h
      refine ⟨⟨h.1.1.1, h.2.1⟩, fun member hmember => ⟨(h.2.2 member hmember).1, ?_⟩⟩
      exact (ih member hmember).mpr ⟨(h.1.2 member hmember).2, (h.2.2 member hmember).2⟩

/-- What is accepted passes the rules. -/
theorem every_of_accepts (h : accepts limits rules depth document = true) :
    every rules document = true :=
  (accepts_iff.mp h).2

end Document

end Ficc
