import Mathlib.Data.List.Basic

/-!
# Runs of a transition function

A machine is a total transition function `step : σ → α → σ`. An action that the machine
refuses leaves the state as it is, so a run is a list of actions and nothing else. This file
gives the rules by which facts about one step become facts about every run:

* `run_invariant` for a predicate that every step keeps;
* `run_relates` for a reflexive and transitive relation that every step respects;
* `Along.of_invariant` for properties of the steps themselves, where a step may use an
  invariant and a condition that all the earlier steps met;
* `Along.run_until` for a fact that lasts until something ends it.
-/

namespace Ficc

section Transition

variable {σ α : Type*} (step : σ → α → σ)

/-- The state reached from `s` by performing the actions in order. -/
def run (s : σ) (actions : List α) : σ := actions.foldl step s

@[simp]
theorem run_nil (s : σ) : run step s [] = s := rfl

@[simp]
theorem run_cons (s : σ) (a : α) (actions : List α) :
    run step s (a :: actions) = run step (step s a) actions := rfl

theorem run_append (s : σ) (first second : List α) :
    run step s (first ++ second) = run step (run step s first) second := by
  simp [run, List.foldl_append]

/-- Every action of the run satisfies `P` in the state in which it is performed. -/
def Along (P : σ → α → Prop) : σ → List α → Prop
  | _, [] => True
  | s, a :: actions => P s a ∧ Along P (step s a) actions

instance Along.instDecidable (P : σ → α → Prop) [∀ s a, Decidable (P s a)] :
    ∀ (s : σ) (actions : List α), Decidable (Along step P s actions)
  | _, [] => .isTrue trivial
  | s, a :: actions =>
    haveI := Along.instDecidable P (step s a) actions
    inferInstanceAs (Decidable (P s a ∧ Along step P (step s a) actions))

@[simp]
theorem along_nil (P : σ → α → Prop) (s : σ) : Along step P s [] := trivial

@[simp]
theorem along_cons (P : σ → α → Prop) (s : σ) (a : α) (actions : List α) :
    Along step P s (a :: actions) ↔ P s a ∧ Along step P (step s a) actions := Iff.rfl

variable {step}

variable {s : σ} {actions : List α} {cond : σ → α → Prop}

theorem along_append {P : σ → α → Prop} {first second : List α} :
    Along step P s (first ++ second) ↔
      Along step P s first ∧ Along step P (run step s first) second := by
  induction first generalizing s with
  | nil => simp
  | cons a first ih => simp [ih, and_assoc]

/-- Every run meets the condition that asks nothing. -/
theorem Along.trivial (s : σ) (actions : List α) : Along step (fun _ _ => True) s actions := by
  induction actions generalizing s with
  | nil => exact True.intro
  | cons a actions ih => exact ⟨True.intro, ih (step s a)⟩

theorem Along.and {P Q : σ → α → Prop} (hP : Along step P s actions) (hQ : Along step Q s actions) :
    Along step (fun s a => P s a ∧ Q s a) s actions := by
  induction actions generalizing s with
  | nil => exact True.intro
  | cons a actions ih => exact ⟨⟨hP.1, hQ.1⟩, ih hP.2 hQ.2⟩

theorem Along.mono {P Q : σ → α → Prop} (h : ∀ s a, P s a → Q s a) (hP : Along step P s actions) :
    Along step Q s actions := by
  induction actions generalizing s with
  | nil => exact True.intro
  | cons a actions ih => exact ⟨h s a hP.1, ih hP.2⟩

/-- A predicate that every step keeps holds after every run. -/
theorem run_invariant {I : σ → Prop} (keeps : ∀ s a, I s → I (step s a)) (h : I s)
    (actions : List α) : I (run step s actions) := by
  induction actions generalizing s with
  | nil => exact h
  | cons a actions ih => exact ih (keeps s a h)

/-- A reflexive and transitive relation that every step respects relates the two ends of every
run. The step may use an invariant. -/
theorem run_relates {I : σ → Prop} {R : σ → σ → Prop} (refl : ∀ s, R s s)
    (trans : ∀ {a b c}, R a b → R b c → R a c) (keeps : ∀ s a, I s → I (step s a))
    (respects : ∀ s a, I s → R s (step s a)) (h : I s) (actions : List α) :
    R s (run step s actions) := by
  induction actions generalizing s with
  | nil => exact refl s
  | cons a actions ih => exact trans (respects s a h) (ih (keeps s a h))

/-- A step property that follows from an invariant and a condition on the step holds of every
step of a run whose steps all meet the condition. -/
theorem Along.of_invariant {I : σ → Prop} {P : σ → α → Prop}
    (keeps : ∀ s a, I s → cond s a → I (step s a)) (gives : ∀ s a, I s → cond s a → P s a) (h : I s)
    (hrun : Along step cond s actions) :
    Along step P s actions := by
  induction actions generalizing s with
  | nil => exact True.intro
  | cons a actions ih =>
    obtain ⟨ha, hrest⟩ := hrun
    exact ⟨gives s a h ha, ih (keeps s a h ha) hrest⟩

/-- An invariant kept by the steps that meet a condition holds after every run whose steps all
meet it. -/
theorem Along.run_invariant {I : σ → Prop} (keeps : ∀ s a, I s → cond s a → I (step s a)) (h : I s)
    (hrun : Along step cond s actions) : I (run step s actions) := by
  induction actions generalizing s with
  | nil => exact h
  | cons a actions ih => exact ih (keeps s a h hrun.1) hrun.2

/-- A fact about the past and the present that every step keeps holds after every run of all its
actions. -/
theorem Along.run_history {I : List α → σ → Prop}
    (keeps : ∀ past s a, I past s → cond s a → I (past ++ [a]) (step s a)) (h : I [] s)
    (hrun : Along step cond s actions) : I actions (run step s actions) := by
  -- The past is anything that has been kept so far.
  have hall (rest : List α) : ∀ {past s}, I past s → Along step cond s rest →
      I (past ++ rest) (run step s rest) := by
    induction rest with
    | nil =>
      intro past s h _
      simpa using h
    | cons a rest ih =>
      intro past s h hrun
      have hnext := ih (keeps past s a h hrun.1) hrun.2
      rwa [List.append_assoc] at hnext
  exact hall actions h hrun

/-- A fact that every step keeps or ends lasts to the end of the run or has ended in it. -/
theorem Along.run_until {I P : σ → Prop} (ended : σ → Prop)
    (keeps : ∀ s a, I s → cond s a → I (step s a))
    (lasts : ∀ s a, I s → cond s a → P s → P (step s a) ∨ ended (step s a)) (h : I s) (hP : P s)
    (hrun : Along step cond s actions) :
    P (run step s actions) ∨ ∃ first, first <+: actions ∧ ended (run step s first) := by
  induction actions generalizing s with
  | nil => exact .inl hP
  | cons a actions ih =>
    obtain hP | hended := lasts s a h hrun.1 hP
    · obtain hP | ⟨first, hfirst, hended⟩ := ih (keeps s a h hrun.1) hP hrun.2
      · exact .inl hP
      · exact .inr ⟨a :: first, (List.cons_prefix_cons).mpr ⟨rfl, hfirst⟩, hended⟩
    · exact .inr ⟨[a], (List.cons_prefix_cons).mpr ⟨rfl, List.nil_prefix⟩, hended⟩

end Transition

end Ficc
