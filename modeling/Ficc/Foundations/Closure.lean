import Mathlib.Data.Finset.Card
import Mathlib.Data.Finset.Union
import Mathlib.Data.List.Sort

/-!
# Reachability in a finite graph

A recursive query with `UNION` starts from one node and adds the ends of the edges that leave what
it has found, until nothing is new. `closure edges start` is that set: one round of `expand` for
each edge is enough, because a round that adds nothing is the last one. `mem_closure` says that the
set is the reflexive and transitive closure of the edges, cycles included.
-/

namespace Ficc.Graph

variable {α : Type*} [DecidableEq α]

/-- Adds the ends of the edges that leave the set. -/
def expand (edges : List (α × α)) (seen : Finset α) : Finset α :=
  seen ∪ ((edges.filter fun edge => edge.1 ∈ seen).map Prod.snd).toFinset

/-- What is reached from `start` along the edges. -/
def closure (edges : List (α × α)) (start : α) : Finset α :=
  (expand edges)^[edges.length] {start}

variable {edges : List (α × α)} {seen : Finset α} {start : α}

theorem mem_expand {a : α} : a ∈ expand edges seen ↔ a ∈ seen ∨ ∃ b ∈ seen, (b, a) ∈ edges := by
  simp only [expand, Finset.mem_union, List.mem_toFinset, List.mem_map, List.mem_filter,
    decide_eq_true_eq]
  constructor
  · rintro (h | ⟨⟨b, c⟩, ⟨hedge, hb⟩, rfl⟩)
    · exact .inl h
    · exact .inr ⟨b, hb, hedge⟩
  · rintro (h | ⟨b, hb, hedge⟩)
    · exact .inl h
    · exact .inr ⟨(b, a), ⟨hedge, hb⟩, rfl⟩

theorem subset_expand : seen ⊆ expand edges seen := fun _ h => mem_expand.mpr (.inl h)

/-- The set after some rounds. -/
def rounds (edges : List (α × α)) (start : α) (n : ℕ) : Finset α := (expand edges)^[n] {start}

@[simp]
theorem rounds_zero : rounds edges start 0 = {start} := rfl

theorem rounds_succ (n : ℕ) :
    rounds edges start (n + 1) = expand edges (rounds edges start n) :=
  Function.iterate_succ_apply' (expand edges) n {start}

theorem rounds_subset (n : ℕ) : rounds edges start n ⊆ rounds edges start (n + 1) := by
  rw [rounds_succ]
  exact subset_expand

/-- A round finds the start and ends of edges only. -/
theorem rounds_bounded (n : ℕ) :
    rounds edges start n ⊆ insert start (edges.map Prod.snd).toFinset := by
  induction n with
  | zero => simp
  | succ n ih =>
    intro a ha
    rw [rounds_succ, mem_expand] at ha
    obtain ha | ⟨b, -, hedge⟩ := ha
    · exact ih ha
    · refine Finset.mem_insert_of_mem (List.mem_toFinset.mpr ?_)
      exact List.mem_map.mpr ⟨(b, a), hedge, rfl⟩

theorem card_rounds_le (n : ℕ) : (rounds edges start n).card ≤ edges.length + 1 := by
  have hends : (edges.map Prod.snd).toFinset.card ≤ edges.length := by
    have hcard := List.toFinset_card_le (edges.map Prod.snd)
    rwa [List.length_map] at hcard
  have hbounded : rounds edges start n ⊆ _ := rounds_bounded n
  have hall := Finset.card_le_card hbounded
  have hinsert := Finset.card_insert_le start (edges.map Prod.snd).toFinset
  omega

/-- Until a round adds nothing, every round adds something. -/
theorem rounds_grow (n : ℕ) :
    rounds edges start (n + 1) = rounds edges start n ∨ n + 1 ≤ (rounds edges start n).card := by
  induction n with
  | zero => exact .inr (by simp)
  | succ n ih =>
    obtain hsame | hcard := ih
    · left
      rw [rounds_succ (n + 1), hsame, ← rounds_succ, hsame]
    · by_cases hsame : rounds edges start (n + 1) = rounds edges start n
      · left
        rw [rounds_succ (n + 1), hsame, ← rounds_succ, hsame]
      · right
        have hstrict := (rounds_subset n).ssubset_of_ne (Ne.symm hsame)
        have hlt := Finset.card_lt_card hstrict
        omega

/-- The closure is left by no edge. -/
theorem expand_closure : expand edges (closure edges start) = closure edges start := by
  show expand edges (rounds edges start edges.length) = rounds edges start edges.length
  rw [← rounds_succ]
  have hgrow : rounds edges start _ = _ ∨ _ := rounds_grow edges.length
  obtain hsame | hcard := hgrow
  · exact hsame
  · -- The last round is as large as a round can be.
    refine (Finset.eq_of_subset_of_card_le (rounds_subset edges.length) ?_).symm
    exact (card_rounds_le (edges.length + 1)).trans hcard

theorem start_mem_closure : start ∈ closure edges start := by
  have hall (n : ℕ) : start ∈ rounds edges start n := by
    induction n with
    | zero => simp
    | succ n ih => exact rounds_subset n ih
  exact hall edges.length

/-- The closure is the set of the nodes that are reached along the edges. -/
theorem mem_closure {a : α} :
    a ∈ closure edges start ↔ Relation.ReflTransGen (fun b c => (b, c) ∈ edges) start a := by
  constructor
  · -- Every round adds ends of edges that leave reached nodes.
    have hall (n : ℕ) : ∀ b ∈ rounds edges start n,
        Relation.ReflTransGen (fun b c => (b, c) ∈ edges) start b := by
      induction n with
      | zero =>
        intro b hb
        rw [rounds_zero, Finset.mem_singleton] at hb
        rw [hb]
      | succ n ih =>
        intro b hb
        rw [rounds_succ, mem_expand] at hb
        obtain hb | ⟨c, hc, hedge⟩ := hb
        · exact ih b hb
        · exact (ih c hc).tail hedge
    exact hall edges.length a
  · intro h
    induction h with
    | refl => exact start_mem_closure
    | tail _ hedge ih =>
      rw [← expand_closure]
      exact mem_expand.mpr (.inr ⟨_, ih, hedge⟩)

end Ficc.Graph
