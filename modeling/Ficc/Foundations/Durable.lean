import Ficc.Foundations.Raising
import Mathlib.Data.List.Basic

/-!
# Programs with durable steps

A program that changes a durable state in several steps can be stopped between any two of them, by
a crash or by an error of the operating system. `Durable σ ε α` is a program that returns an `α` or
raises an `ε`, and that leads the durable state through a list of states on the way. Where it stops
is given afterwards: `cut p s n` is the state that `p` leaves behind when it stops after `n` durable
steps, and `cut p s none` when it does not stop.

`wp p ok raised during s` says that `p`, started in `s`, leads only through states with `during`,
and ends in a state with `ok` when it returns and with `raised` when it raises. The simp lemmas
compute it along a program, and `cut_of_wp` makes it a statement about every stop.
-/

namespace Ficc

/-- What a program did: the states after its durable steps, and how it ended. -/
structure Course (σ ε α : Type) where
  states : List σ
  result : Except ε α

/-- A program on durable states. -/
def Durable (σ ε α : Type) : Type := σ → Course σ ε α

namespace Durable

variable {σ ε α β : Type}

/-- The state after the given ones. -/
def last (s : σ) (states : List σ) : σ := states.getLastD s

@[simp]
theorem last_nil (s : σ) : last s [] = s := rfl

@[simp]
theorem last_singleton (s t : σ) : last s [t] = t := rfl

theorem last_cons (s t : σ) (rest : List σ) : last s (t :: rest) = last t rest := by
  cases rest <;> rfl

/-- The last state of a longer course. -/
theorem last_append (s : σ) (first second : List σ) :
    last s (first ++ second) = last (last s first) second := by
  simp only [last, List.getLastD_eq_getLast?, List.getLast?_append]
  cases second.getLast? <;> rfl

theorem last_mem (s : σ) (states : List σ) : last s states = s ∨ last s states ∈ states := by
  cases states with
  | nil => exact .inl rfl
  | cons t rest =>
    refine .inr ?_
    rw [last, List.getLastD_eq_getLast?, List.getLast?_eq_some_getLast (List.cons_ne_nil t rest)]
    exact List.getLast_mem _

/-- The program that does nothing and returns. -/
def returns (a : α) : Durable σ ε α := fun _ => ⟨[], .ok a⟩

/-- One program after the other, unless the first raises. -/
def followedBy (p : Durable σ ε α) (f : α → Durable σ ε β) : Durable σ ε β := fun s =>
  match (p s).result with
  | .error e => ⟨(p s).states, .error e⟩
  | .ok a =>
    let next := f a (last s (p s).states)
    ⟨(p s).states ++ next.states, next.result⟩

instance : Monad (Durable σ ε) where
  pure := returns
  bind := followedBy

/-- One durable step. -/
def perform (f : σ → σ) : Durable σ ε Unit := fun s => ⟨[f s], .ok ()⟩

/-- Reads the durable state. -/
def disk : Durable σ ε σ := fun s => ⟨[], .ok s⟩

/-- A check that needs no durable step. -/
def check (x : Except ε α) : Durable σ ε α := fun _ => ⟨[], x⟩

/-- Raises `error` when `condition` holds. -/
def refuseIf (condition : Prop) [Decidable condition] (error : ε) : Durable σ ε Unit :=
  check (raiseIf condition error)

/-- The value, or `error` when there is none. -/
def demand (value : Option α) (error : ε) : Durable σ ε α := check (orRaise value error)

/-- Runs a program and returns something else when it raises. -/
def recovering (p : Durable σ ε α) (instead : α) : Durable σ ε α := fun s =>
  ⟨(p s).states, .ok (match (p s).result with | .ok a => a | .error _ => instead)⟩

/-- Runs a program and returns how it ended, so that the next program can handle an error. -/
def attempt (p : Durable σ ε α) : Durable σ ε (Except ε α) := fun s =>
  ⟨(p s).states, .ok (p s).result⟩

/-- Runs a program on a part of the state. -/
def onPart {τ : Type} (part : σ → τ) (put : τ → σ → σ) (p : Durable τ ε α) : Durable σ ε α :=
  fun s => ⟨(p (part s)).states.map fun t => put t s, (p (part s)).result⟩

/-- A program for each entry of a list, one after the other. -/
def each {α : Type} (list : List α) (p : α → Durable σ ε Unit) : Durable σ ε Unit :=
  match list with
  | [] => pure ()
  | a :: rest => do
    p a
    each rest p

/-- The state after a program that is stopped after some durable steps, or not at all. -/
def cut (p : Durable σ ε α) (s : σ) : Option ℕ → σ
  | none => last s (p s).states
  | some n => last s ((p s).states.take n)

variable {a : α} {states : List σ} {e : ε} {c : Prop}

/-- The course of one program after another. -/
theorem bind_eq_of_ok {p : Durable σ ε α} {f : α → Durable σ ε β} {s : σ}
    (h : p s = ⟨states, .ok a⟩) :
    (p >>= f) s = ⟨states ++ (f a (last s states)).states, (f a (last s states)).result⟩ := by
  simp [bind, followedBy, h]

/-- A program that only reads before another one. -/
theorem bind_eq_of_read {p : Durable σ ε α} {f : α → Durable σ ε β} {s : σ} (h : p s = ⟨[], .ok a⟩) :
    (p >>= f) s = f a s := by
  rw [bind_eq_of_ok h]
  rfl

/-- A program that raises before another one. -/
theorem bind_eq_of_error {p : Durable σ ε α} {f : α → Durable σ ε β} {s : σ}
    (h : p s = ⟨states, .error e⟩) : (p >>= f) s = ⟨states, .error e⟩ := by
  simp [bind, followedBy, h]

theorem refuseIf_pos [Decidable c] (h : c) (e : ε) (s : σ) :
    refuseIf c e s = ⟨[], .error e⟩ := by
  simp [refuseIf, check, raiseIf, h]

theorem refuseIf_neg [Decidable c] (h : ¬c) (e : ε) (s : σ) :
    refuseIf c e s = ⟨[], .ok ()⟩ := by
  simp [refuseIf, check, raiseIf, h]

/-- What a program leads through and where it ends. -/
def wp (p : Durable σ ε α) (ok : α → σ → Prop) (raised : ε → σ → Prop) (during : σ → Prop)
    (s : σ) : Prop :=
  (∀ t ∈ (p s).states, during t) ∧
    match (p s).result with
    | .ok a => ok a (last s (p s).states)
    | .error e => raised e (last s (p s).states)

variable {ok : α → σ → Prop} {raised : ε → σ → Prop} {during : σ → Prop} {s : σ}

@[simp]
theorem wp_pure : wp (pure a : Durable σ ε α) ok raised during s ↔ ok a s := by
  simp [wp, pure, returns]

/-- One program after the other. -/
@[simp]
theorem wp_bind {p : Durable σ ε α} {f : α → Durable σ ε β} {ok : β → σ → Prop} :
    wp (p >>= f) ok raised during s ↔
      wp p (fun a => wp (f a) ok raised during) raised during s := by
  simp only [wp, bind, followedBy]
  cases (p s).result with
  | error e => rfl
  | ok a =>
    simp only [List.mem_append, or_imp, forall_and, last_append, and_assoc]

@[simp]
theorem wp_perform {f : σ → σ} {ok : Unit → σ → Prop} :
    wp (perform f : Durable σ ε Unit) ok raised during s ↔ during (f s) ∧ ok () (f s) := by
  simp [wp, perform]

@[simp]
theorem wp_disk {ok : σ → σ → Prop} :
    wp (disk : Durable σ ε σ) ok raised during s ↔ ok s s := by
  simp [wp, disk]

@[simp]
theorem wp_check {x : Except ε α} :
    wp (check x : Durable σ ε α) ok raised during s ↔
      (∀ a, x = .ok a → ok a s) ∧ ∀ e, x = .error e → raised e s := by
  cases x <;> simp [wp, check]

@[simp]
theorem wp_refuseIf [Decidable c] {ok : Unit → σ → Prop} :
    wp (refuseIf c e : Durable σ ε Unit) ok raised during s ↔
      (c → raised e s) ∧ (¬c → ok () s) := by
  by_cases h : c <;> simp [refuseIf, wp, check, raiseIf, h]

@[simp]
theorem wp_demand {o : Option α} :
    wp (demand o e : Durable σ ε α) ok raised during s ↔
      (o = none → raised e s) ∧ ∀ a, o = some a → ok a s := by
  cases o <;> simp [demand, orRaise]

@[simp]
theorem wp_ite [Decidable c] {p q : Durable σ ε α} :
    wp (if c then p else q) ok raised during s ↔
      (c → wp p ok raised during s) ∧ (¬c → wp q ok raised during s) := by
  by_cases h : c <;> simp [h]

@[simp]
theorem wp_recovering {p : Durable σ ε α} {instead : α} :
    wp (recovering p instead) ok raised during s ↔ wp p ok (fun _ => ok instead) during s := by
  simp only [wp, recovering]
  cases (p s).result <;> rfl

@[simp]
theorem wp_attempt {p : Durable σ ε α} {ok : Except ε α → σ → Prop} :
    wp (attempt p) ok raised during s ↔
      wp p (fun a => ok (.ok a)) (fun e => ok (.error e)) during s := by
  simp only [wp, attempt]
  cases (p s).result <;> rfl

/-- A program on a part of the state leaves the rest as it is. -/
theorem wp_onPart {τ : Type} {part : σ → τ} {put : τ → σ → σ} (hput : put (part s) s = s)
    {p : Durable τ ε α} :
    wp (onPart part put p) ok raised during s ↔
      wp p (fun a t => ok a (put t s)) (fun e t => raised e (put t s))
        (fun t => during (put t s)) (part s) := by
  have hlast (states : List τ) :
      last s (states.map fun t => put t s) = put (last (part s) states) s := by
    cases states with
    | nil => exact hput.symm
    | cons t rest =>
      simp only [last, List.map_cons, List.getLastD_cons]
      induction rest generalizing t with
      | nil => rfl
      | cons u rest ih =>
        rw [List.map_cons, List.getLastD_cons, List.getLastD_cons]
        exact ih u
  simp only [wp, onPart, hlast, List.forall_mem_map]

/-- Weaker conditions hold as well. -/
theorem wp_mono {ok' : α → σ → Prop} {raised' : ε → σ → Prop} {during' : σ → Prop}
    {p : Durable σ ε α} (h : wp p ok raised during s) (hok : ∀ a t, ok a t → ok' a t)
    (hraised : ∀ e t, raised e t → raised' e t) (hduring : ∀ t, during t → during' t) :
    wp p ok' raised' during' s := by
  refine ⟨fun t ht => hduring t (h.1 t ht), ?_⟩
  have hend := h.2
  cases hresult : (p s).result with
  | ok a =>
    rw [hresult] at hend
    exact hok a _ hend
  | error e =>
    rw [hresult] at hend
    exact hraised e _ hend

theorem wp_and {ok' : α → σ → Prop} {raised' : ε → σ → Prop} {during' : σ → Prop}
    {p : Durable σ ε α} (h : wp p ok raised during s) (h' : wp p ok' raised' during' s) :
    wp p (fun a t => ok a t ∧ ok' a t) (fun e t => raised e t ∧ raised' e t)
      (fun t => during t ∧ during' t) s := by
  refine ⟨fun t ht => ⟨h.1 t ht, h'.1 t ht⟩, ?_⟩
  have hend := h.2
  have hend' := h'.2
  cases hresult : (p s).result with
  | ok a =>
    rw [hresult] at hend hend'
    exact ⟨hend, hend'⟩
  | error e =>
    rw [hresult] at hend hend'
    exact ⟨hend, hend'⟩

/-- What is known before a program holds when it returns. -/
theorem wp_known {known : Prop} (h : known) (p : Durable σ ε α) :
    wp p (fun _ _ => known) (fun _ _ => True) (fun _ => True) s := by
  refine ⟨fun _ _ => trivial, ?_⟩
  cases (p s).result with
  | ok a => exact h
  | error e => trivial

/-- A program leads where it leads. -/
theorem wp_course (p : Durable σ ε α) (s : σ) :
    wp p (fun a t => (p s).result = .ok a ∧ t = last s (p s).states)
      (fun e t => (p s).result = .error e ∧ t = last s (p s).states) (fun t => t ∈ (p s).states)
      s := by
  refine ⟨fun _ ht => ht, ?_⟩
  cases (p s).result with
  | ok a => exact ⟨rfl, rfl⟩
  | error e => exact ⟨rfl, rfl⟩

/-- The rule for one program after the other, with what holds between them. -/
theorem wp_seq {p : Durable σ ε α} {f : α → Durable σ ε β} {M : α → σ → Prop}
    {ok : β → σ → Prop} (h : wp p M raised during s)
    (hnext : ∀ a t, M a t → wp (f a) ok raised during t) :
    wp (p >>= f) ok raised during s :=
  wp_bind.mpr (wp_mono h hnext (fun _ _ h => h) fun _ h => h)

/-- What every program of the list keeps, all of them keep. -/
theorem wp_each {list : List α} {p : α → Durable σ ε Unit} {I : σ → Prop}
    (h : ∀ a ∈ list, ∀ t, I t → wp (p a) (fun _ => I) raised during t) (hs : I s) :
    wp (each list p) (fun _ => I) raised during s := by
  induction list generalizing s with
  | nil => exact wp_pure.mpr hs
  | cons a rest ih =>
    refine wp_seq (h a List.mem_cons_self s hs) fun _ t ht => ?_
    exact ih (fun b hb => h b (List.mem_cons_of_mem a hb)) ht

/-- A stop leaves the first state behind, or one that the program leads through. -/
theorem cut_mem (p : Durable σ ε α) (s : σ) (n : Option ℕ) :
    cut p s n = s ∨ cut p s n ∈ (p s).states := by
  cases n with
  | none => exact last_mem s (p s).states
  | some n =>
    obtain h | h := last_mem s ((p s).states.take n)
    · exact .inl h
    · exact .inr (List.mem_of_mem_take h)

/-- What holds at the start and of every state on the way holds wherever the program stops. -/
theorem cut_of_wp {p : Durable σ ε α} (h : wp p ok raised during s) (hs : during s)
    (n : Option ℕ) : during (cut p s n) := by
  obtain heq | hmem := cut_mem p s n
  · rw [heq]
    exact hs
  · exact h.1 _ hmem

/-- A stop depends only on the course of the program. -/
theorem cut_congr {p q : Durable σ ε α} (h : p s = q s) (n : Option ℕ) :
    cut p s n = cut q s n := by
  cases n <;> simp only [cut, h]

/-- A program that makes no durable step leaves the state as it is. -/
theorem cut_of_read {p : Durable σ ε α} {result : Except ε α} (h : p s = ⟨[], result⟩)
    (n : Option ℕ) : cut p s n = s := by
  cases n <;> simp [cut, h]

theorem cut_perform (f : σ → σ) (s : σ) (n : Option ℕ) :
    cut (perform f : Durable σ ε Unit) s n = if n = some 0 then s else f s := by
  cases n with
  | none => rfl
  | some k => cases k <;> simp [cut, perform]

/-- A program that is stopped in its first part. -/
theorem cut_bind_of_le {p : Durable σ ε α} {f : α → Durable σ ε β} {n : ℕ}
    (h : n ≤ (p s).states.length) : cut (p >>= f) s (some n) = cut p s (some n) := by
  simp only [cut, bind, followedBy]
  cases (p s).result with
  | error e => rfl
  | ok a => rw [List.take_append_of_le_length h]

/-- A program that is stopped in its second part, or not at all. -/
theorem cut_bind_of_ok {p : Durable σ ε α} {f : α → Durable σ ε β} (h : p s = ⟨states, .ok a⟩)
    {n : Option ℕ} (hn : ∀ k, n = some k → states.length ≤ k) :
    cut (p >>= f) s n = cut (f a) (last s states) (n.map fun k => k - states.length) := by
  cases n with
  | none => simp only [cut, bind_eq_of_ok h, last_append, Option.map_none]
  | some k =>
    simp only [cut, bind_eq_of_ok h, Option.map_some]
    rw [List.take_append, List.take_of_length_le (hn k rfl), last_append]

/-- A stop after the first durable step leaves a state behind that the program leads through. -/
theorem cut_mem_of_pos {p : Durable σ ε α} {n : ℕ} (hn : 0 < n) (hp : (p s).states ≠ []) :
    cut p s (some n) ∈ (p s).states := by
  obtain ⟨t, rest, hstates⟩ := List.exists_cons_of_ne_nil hp
  obtain ⟨k, rfl⟩ := Nat.exists_eq_succ_of_ne_zero (Nat.pos_iff_ne_zero.mp hn)
  simp only [cut, hstates, List.take_succ_cons, last_cons]
  obtain h | h := last_mem t (rest.take k)
  · rw [h]
    exact List.mem_cons_self
  · exact List.mem_cons_of_mem t (List.mem_of_mem_take h)

/-- Durable steps one after the other. -/
theorem each_perform (list : List α) (f : α → σ → σ) (s : σ) :
    ∃ states, each list (fun a => (perform (f a) : Durable σ ε Unit)) s = ⟨states, .ok ()⟩ ∧
      states.length = list.length ∧ last s states = list.foldl (fun t a => f a t) s := by
  induction list generalizing s with
  | nil => exact ⟨[], rfl, rfl, rfl⟩
  | cons a rest ih =>
    obtain ⟨states, hstates, hlength, hlast⟩ := ih (f a s)
    refine ⟨f a s :: states, ?_, by rw [List.length_cons, hlength, List.length_cons], ?_⟩
    · rw [each, bind_eq_of_ok (p := perform (f a)) rfl, last_singleton, hstates]
      rfl
    · rw [last_cons, hlast, List.foldl_cons]

/-- How a program that does not stop returns. -/
theorem result_of_wp {p : Durable σ ε α} (h : wp p ok raised during s)
    (hresult : (p s).result = .ok a) : ok a (cut p s none) := by
  have hend := h.2
  rw [hresult] at hend
  exact hend

/-- A program that cannot raise returns. -/
theorem returns_of_wp {p : Durable σ ε α} (h : wp p ok (fun _ _ => False) during s) :
    ∃ a, (p s).result = .ok a ∧ ok a (cut p s none) := by
  have hend := h.2
  cases hresult : (p s).result with
  | ok a =>
    rw [hresult] at hend
    exact ⟨a, rfl, hend⟩
  | error e =>
    rw [hresult] at hend
    exact hend.elim

end Durable

end Ficc
