import Mathlib.Control.Monad.Basic
import Mathlib.Data.Prod.Basic

/-!
# Operations that raise

An operation that can raise is an `Except` computation, written as the source writes it: a
sequence of guards `raiseIf condition error` and lookups `orRaise value error`, and then the
result. The lemmas turn the statement that such a sequence returned, or that it raised, into
the conjunction of what its guards said, so unfolding an operation and simplifying with them
inverts it.
-/

namespace Ficc

variable {ε α β : Type}

/-- Raises `error` when `condition` holds. -/
def raiseIf (condition : Prop) [Decidable condition] (error : ε) : Except ε Unit :=
  if condition then .error error else .ok ()

/-- The value, or `error` when there is none. -/
def orRaise (value : Option α) (error : ε) : Except ε α :=
  match value with
  | some found => .ok found
  | none => .error error

variable {b : β} {e : ε} {o : Option α} {items l : List α}

theorem bind_eq_ok {x : Except ε α} {f : α → Except ε β} :
    (x >>= f) = .ok b ↔ ∃ a, x = .ok a ∧ f a = .ok b := by
  cases x <;> simp [bind, Except.bind]

/-- A check with something after it. -/
theorem unit_bind_eq_ok {x : Except ε Unit} {f : Unit → Except ε β} :
    (x >>= f) = .ok b ↔ x = .ok () ∧ f () = .ok b := by
  rw [bind_eq_ok]
  exact ⟨fun ⟨(), h⟩ => h, fun h => ⟨(), h⟩⟩

theorem bind_eq_error {x : Except ε α} {f : α → Except ε β} :
    (x >>= f) = .error e ↔ x = .error e ∨ ∃ a, x = .ok a ∧ f a = .error e := by
  cases x <;> simp [bind, Except.bind]

theorem map_eq_ok {x : Except ε α} {f : α → β} :
    x.map f = .ok b ↔ ∃ a, x = .ok a ∧ f a = b := by
  cases x <;> simp [Except.map]

theorem map_eq_error {x : Except ε α} {f : α → β} :
    x.map f = .error e ↔ x = .error e := by
  cases x <;> simp [Except.map]

@[simp]
theorem ok_bind (a : α) (f : α → Except ε β) : (Except.ok a >>= f) = f a := rfl

@[simp]
theorem raiseIf_eq_ok {c : Prop} [Decidable c] {u : Unit} :
    raiseIf c e = .ok u ↔ ¬c := by
  by_cases h : c <;> simp [raiseIf, h]

@[simp]
theorem raiseIf_eq_error {c : Prop} [Decidable c] {e' : ε} :
    raiseIf c e = .error e' ↔ c ∧ e = e' := by
  by_cases h : c <;> simp [raiseIf, h]

@[simp]
theorem orRaise_eq_ok {a : α} : orRaise o e = .ok a ↔ o = some a := by
  cases o <;> simp [orRaise]

@[simp]
theorem orRaise_eq_error {e' : ε} :
    orRaise o e = .error e' ↔ o = none ∧ e = e' := by
  cases o <;> simp [orRaise]

/-- A lookup with something after it. -/
theorem orRaise_bind_eq_ok {f : α → Except ε β} :
    (orRaise o e >>= f) = .ok b ↔ ∃ a, o = some a ∧ f a = .ok b := by
  simp only [bind_eq_ok, orRaise_eq_ok]

/-- What a list of operations returns comes from one of them. -/
theorem of_mem_mapM {f : α → Except ε β} {results : List β} (h : items.mapM f = .ok results) :
    ∀ b ∈ results, ∃ a ∈ items, f a = .ok b := by
  induction items generalizing results with
  | nil =>
    simp only [List.mapM_nil, pure, Except.pure, Except.ok.injEq] at h
    simp [← h]
  | cons a rest ih =>
    simp only [List.mapM_cons, bind_eq_ok, pure, Except.pure, Except.ok.injEq] at h
    obtain ⟨b, hb, others, hothers, rfl⟩ := h
    intro c hc
    obtain rfl | hc := List.mem_cons.mp hc
    · exact ⟨a, List.mem_cons_self, hb⟩
    · obtain ⟨item, hitem, hresult⟩ := ih hothers c hc
      exact ⟨item, List.mem_cons_of_mem a hitem, hresult⟩

/-- A loop returns when every round does. -/
theorem forM_eq_ok {round : α → Except ε Unit} :
    items.forM round = .ok () ↔ ∀ item ∈ items, round item = .ok () := by
  induction items with
  | nil => simp [List.forM, pure, Except.pure]
  | cons item items ih =>
    rw [List.forM, unit_bind_eq_ok, ih, List.forall_mem_cons]

/-- What a loop raises, one of its rounds raises. -/
theorem exists_of_forM_eq_error {round : α → Except ε Unit} (h : items.forM round = .error e) :
    ∃ item ∈ items, round item = .error e := by
  induction items with
  | nil => cases h
  | cons item items ih =>
    rw [List.forM, bind_eq_error] at h
    obtain h | ⟨-, -, h⟩ := h
    · exact ⟨item, List.mem_cons_self, h⟩
    · obtain ⟨other, hother, hround⟩ := ih h
      exact ⟨other, List.mem_cons_of_mem item hother, hround⟩

/-- What a list of operations raises, one of them raises. -/
theorem exists_of_mapM_eq_error {f : α → Except ε β} (h : items.mapM f = .error e) :
    ∃ item ∈ items, f item = .error e := by
  induction items with
  | nil => cases h
  | cons item items ih =>
    simp only [List.mapM_cons, bind_eq_error, pure, Except.pure, reduceCtorEq, and_false,
      exists_false, or_false] at h
    obtain h | ⟨-, -, h⟩ := h
    · exact ⟨item, List.mem_cons_self, h⟩
    · obtain ⟨other, hother, hround⟩ := ih h
      exact ⟨other, List.mem_cons_of_mem item hother, hround⟩

/-- A loop whose accumulator is a function of what has been read. -/
theorem foldlM_eq_ok {f : β → α → Except ε β} (g : List α → β)
    (h : ∀ done a rest, l = done ++ a :: rest → f (g done) a = .ok (g (done ++ [a]))) :
    l.foldlM f (g []) = .ok (g l) := by
  have hall (rest : List α) : ∀ done, l = done ++ rest →
      rest.foldlM f (g done) = .ok (g (done ++ rest)) := by
    induction rest with
    | nil =>
      intro done _
      rw [List.append_nil]
      rfl
    | cons a rest ih =>
      intro done hl
      rw [List.foldlM_cons, h done a rest hl]
      have hnext := ih (done ++ [a]) (by simpa using hl)
      rwa [List.append_assoc] at hnext
  exact hall l [] rfl

/-- What every step of a loop keeps, about what has been read and the accumulator, holds at its
end. -/
theorem foldlM_ok_induction {f : β → α → Except ε β} {I : List α → β → Prop}
    (h : ∀ done b a b', I done b → f b a = .ok b' → I (done ++ [a]) b') :
    ∀ {done b b'}, I done b → l.foldlM f b = .ok b' → I (done ++ l) b' := by
  induction l with
  | nil =>
    intro done b b' hI hfold
    obtain rfl : b = b' := Except.ok.inj hfold
    rwa [List.append_nil]
  | cons a l ih =>
    intro done b b' hI hfold
    rw [List.foldlM_cons, bind_eq_ok] at hfold
    obtain ⟨next, hnext, hrest⟩ := hfold
    have hend := ih (h done b a next hI hnext) hrest
    rwa [List.append_assoc] at hend

/-- A loop that returns has performed every step. -/
theorem foldlM_ok_mem {f : β → α → Except ε β} {a : α} (ha : a ∈ l) :
    ∀ {b b'}, l.foldlM f b = .ok b' → ∃ c d, f c a = .ok d := by
  induction l with
  | nil => cases ha
  | cons first l ih =>
    intro b b' hfold
    rw [List.foldlM_cons, bind_eq_ok] at hfold
    obtain ⟨next, hnext, hrest⟩ := hfold
    obtain rfl | ha := List.mem_cons.mp ha
    · exact ⟨b, next, hnext⟩
    · exact ih ha hrest

section Loops

variable {σ : Type}

/-- A loop over a list. The body changes a state, and what it has changed stays when it raises. -/
def forEach (body : α → σ → σ × Except ε Unit) : List α → σ → σ × Except ε Unit
  | [], s => (s, .ok ())
  | a :: rest, s =>
    match body a s with
    | (s, .error e) => (s, .error e)
    | (s, .ok _) => forEach body rest s

/-- The rule for a loop that ends: what the body does to the state composes over the list. -/
theorem forEach_relates {body : α → σ → σ × Except ε Unit} {R : List α → σ → σ → Prop}
    (nil : ∀ s, R [] s s)
    (cons : ∀ a rest s middle s', body a s = (middle, .ok ()) → R rest middle s' →
      R (a :: rest) s s') {items : List α} {s s' : σ} {u : Unit}
    (h : forEach body items s = (s', .ok u)) : R items s s' := by
  induction items generalizing s with
  | nil =>
    obtain ⟨rfl, -⟩ := Prod.mk.inj h
    exact nil s
  | cons a rest ih =>
    unfold forEach at h
    split at h
    · cases (Prod.mk.inj h).2
    · next middle _ hbody => exact cons a rest s middle s' hbody (ih h)

end Loops

end Ficc
