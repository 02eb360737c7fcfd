import Ficc.StateProvider.Connection

/-!
# When outermost blocks are all-or-nothing

An outermost block should make all of its writes durable and exit normally, or raise and make
none of them durable, then or through a later block (`AllOrNothing`). `AtomicConnection` does so
in every run in which two things do not happen (`Surfaces`):

* a statement fails inside the block, SQLite rolls the whole transaction back, and the program
  handles the exception and goes on. `execute` then clears `rollback_only`, because no
  transaction is open, and the block commits whatever is written afterwards;
* the commit fails and leaves the transaction open. Nothing records the failure, so the next
  block joins that transaction and commits the writes of the block that raised.

The positive result is `allOrNothing_of_surfaces`, by `Within`, which says what a program does
between the entry and the exit of an outermost block.
-/

namespace Ficc.StateProvider

open AtomicConnection

variable {D : Type}

/-- The effects of completed statements, applied in order. -/
def applied (writes : List (D → D)) (database : D) : D :=
  writes.foldl (fun view effect => effect view) database

@[simp]
theorem applied_nil (database : D) : applied [] database = database := rfl

@[simp]
theorem applied_singleton (effect : D → D) (database : D) :
    applied [effect] database = effect database := rfl

theorem applied_append (first second : List (D → D)) (database : D) :
    applied (first ++ second) database = applied second (applied first database) := by
  simp [applied, List.foldl_append]

/-- The block makes exactly its own writes durable when it exits normally, and changes nothing
durable when it raises. Required of every block of a run, this also excludes that a block makes
the writes of an earlier one durable. -/
def AllOrNothing (c : AtomicConnection D) (b : Block D) : Prop :=
  (Block.step c b).durable =
    if (b.run c).exit = .normal then applied (b.run c).writes c.durable else c.durable

instance [DecidableEq D] (c : AtomicConnection D) (b : Block D) :
    Decidable (AllOrNothing c b) :=
  inferInstanceAs (Decidable (_ = _))

/-- Once SQLite has rolled the transaction of the block back, no statement and no nested block
follows, and the block is left by an exception; and its commit does not fail with the
transaction left open. -/
def Surfaces (c : AtomicConnection D) (b : Block D) : Prop :=
  let done := b.body.run (c.enter b.beginFails).2
  done.adrift = false ∧ (done.connection.transaction.isNone → done.exit = .raised) ∧
    b.commitFault ≠ some .leavesOpen

instance (c : AtomicConnection D) (b : Block D) : Decidable (Surfaces c b) :=
  inferInstanceAs (Decidable (_ ∧ _ ∧ _))

/-- No block is open, no transaction is open, and no earlier failure is remembered. -/
structure Idle (c : AtomicConnection D) : Prop where
  transaction : c.transaction = none
  depth : c.depth = 0
  rollbackOnly : c.rollbackOnly = false

theorem idle_opened (database : D) : Idle (opened database) := ⟨rfl, rfl, rfl⟩

/-! ## Inside a block -/

/-- The transaction as a program inside a block leaves it. A lost transaction stays lost; an
open one is lost, or holds exactly the completed writes whenever `rollback_only` is clear. -/
def Carries (before after : AtomicConnection D) (writes : List (D → D)) : Prop :=
  match before.transaction with
  | none => after.transaction = none
  | some view => after.transaction = none ∨ ∃ final, after.transaction = some final ∧
      (after.rollbackOnly = false →
        before.rollbackOnly = false ∧ final = applied writes view)

/-- What a program does inside a block: the depth is restored, and as long as it does not go on
without a transaction, nothing becomes durable and the transaction is carried along. -/
structure Within (c : AtomicConnection D) (o : Outcome D) : Prop where
  depth : o.connection.depth = c.depth
  durable : o.adrift = false → o.connection.durable = c.durable
  carries : o.adrift = false → Carries c o.connection o.writes

theorem Carries.refl (c : AtomicConnection D) : Carries c c [] := by
  unfold Carries
  split
  · assumption
  · exact .inr ⟨_, by assumption, fun h => ⟨h, rfl⟩⟩

variable {writes : List (D → D)} {c : AtomicConnection D}

theorem Carries.append {first second third : AtomicConnection D} {more : List (D → D)}
    (h₁ : Carries first second writes) (h₂ : Carries second third more) :
    Carries first third (writes ++ more) := by
  unfold Carries at h₁ h₂ ⊢
  cases hfirst : first.transaction with
  | none => simpa [hfirst] using by rw [hfirst] at h₁; simpa [h₁] using h₂
  | some view =>
    simp only [hfirst] at h₁ ⊢
    rcases h₁ with hlost | ⟨middle, hmiddle, hclear⟩
    · exact .inl (by simpa [hlost] using h₂)
    · simp only [hmiddle] at h₂
      rcases h₂ with hlost | ⟨final, hfinal, hdone⟩
      · exact .inl hlost
      · refine .inr ⟨final, hfinal, fun hflag => ?_⟩
        obtain ⟨hmid, heq⟩ := hdone hflag
        obtain ⟨hstart, hview⟩ := hclear hmid
        exact ⟨hstart, by rw [heq, hview, applied_append]⟩

/-- Two programs one after the other. -/
theorem Within.append {first second : Outcome D} (hfirst : Within c first)
    (hsecond : Within first.connection second) :
    Within c ⟨second.exit, first.writes ++ second.writes, first.adrift || second.adrift,
      second.connection⟩ := by
  refine ⟨hsecond.depth.trans hfirst.depth, ?_, ?_⟩
  · intro h
    obtain ⟨ha, hb⟩ := Bool.or_eq_false_iff.mp h
    exact (hsecond.durable hb).trans (hfirst.durable ha)
  · intro h
    obtain ⟨ha, hb⟩ := Bool.or_eq_false_iff.mp h
    exact (hfirst.carries ha).append (hsecond.carries hb)

/-- A statement inside a block. -/
theorem within_execute (c : AtomicConnection D) (statement : Statement D)
    (fault : Option (Fault D)) : Within c ((Script.execute statement fault).run c) := by
  cases hview : c.transaction with
  | none =>
    cases fault with
    | none =>
      constructor <;> simp only [Script.run, AtomicConnection.execute, superExecute, begun, hview,
        inTransaction]
      · split <;> rfl
      · simp
      · simp
    | some fault =>
      cases fault <;> constructor <;>
        simp [Script.run, AtomicConnection.execute, superFails, hview, inTransaction]
  | some view =>
    cases fault with
    | none =>
      constructor <;> simp [Script.run, AtomicConnection.execute, superExecute, begun, hview,
        Carries]
    | some fault =>
      cases fault <;> constructor <;>
        simp [Script.run, AtomicConnection.execute, superFails, begun, hview, inTransaction,
          Carries]

/-- Leaving a nested block only adjusts the counter and the flag. -/
theorem exit_nested (c : AtomicConnection D) (kind : Exit) (fault : Option CommitFault)
    (hdepth : 2 ≤ c.depth) :
    c.exit kind fault =
      (kind, { c with depth := c.depth - 1, rollbackOnly := c.rollbackOnly || kind = .raised }) := by
  have hleft : c.depth - 1 ≠ 0 := by omega
  simp [AtomicConnection.exit, hleft]

/-- Setting `rollback_only` while leaving a block keeps the transaction carried. -/
theorem Carries.leave {before after : AtomicConnection D} {entry : ℕ}
    (h : Carries { before with depth := entry } after writes) (exited : ℕ) (raised : Bool) :
    Carries before { after with depth := exited, rollbackOnly := after.rollbackOnly || raised }
      writes := by
  unfold Carries at h ⊢
  cases hbefore : before.transaction with
  | none => simpa [hbefore] using h
  | some view =>
    simp only [hbefore] at h ⊢
    rcases h with hlost | ⟨final, hfinal, hdone⟩
    · exact .inl hlost
    · refine .inr ⟨final, hfinal, fun hflag => hdone ?_⟩
      exact (Bool.or_eq_false_iff.mp hflag).1

/-- Every program that runs inside a block stays within it. The induction is on the program; a
nested block that is entered without a transaction only has to restore the depth. -/
theorem within_run (program : Script D) (c : AtomicConnection D) (hdepth : 1 ≤ c.depth) :
    Within c (program.run c) := by
  induction program generalizing c with
  | skip => exact ⟨rfl, fun _ => rfl, fun _ => Carries.refl c⟩
  | raise => exact ⟨rfl, fun _ => rfl, fun _ => Carries.refl c⟩
  | execute statement fault => exact within_execute c statement fault
  | seq first second ihfirst ihsecond =>
    have hfirst := ihfirst c hdepth
    rw [Script.run]
    dsimp only
    split
    · exact hfirst
    · exact hfirst.append (ihsecond _ (by rw [hfirst.depth]; exact hdepth))
  | attempt body handler ihbody ihhandler =>
    have hbody := ihbody c hdepth
    rw [Script.run]
    dsimp only
    split
    · exact hbody
    · exact hbody.append (ihhandler _ (by rw [hbody.depth]; exact hdepth))
  | block beginFails body commitFault ih =>
    rw [Script.run]
    by_cases hopen : c.inTransaction
    · -- the nested block joins the transaction that is already open
      have henter : c.enter beginFails = (.normal, { c with depth := c.depth + 1 }) := by
        simp [AtomicConnection.enter, hopen]
      have hbody := ih { c with depth := c.depth + 1 } (by simp)
      have hleave : 2 ≤ (body.run { c with depth := c.depth + 1 }).connection.depth := by
        rw [hbody.depth]
        simpa using hdepth
      simp only [henter, exit_nested _ _ _ hleave, hopen, Bool.not_true, Bool.false_or]
      refine ⟨?_, fun h => hbody.durable h, fun h => ?_⟩
      · simp [hbody.depth]
      · exact (hbody.carries h).leave _ _
    · -- the block is entered adrift
      by_cases hfails : beginFails
      · have henter : c.enter beginFails = (.raised, { c with rollbackOnly := false }) := by
          simp [AtomicConnection.enter, hopen, hfails]
        simp only [henter]
        exact ⟨rfl, by simp [hopen], by simp [hopen]⟩
      · have henter : c.enter beginFails =
            (.normal, { c with transaction := some c.durable, depth := c.depth + 1 }) := by
          simp [AtomicConnection.enter, hopen, hfails]
        have hbody := ih { c with transaction := some c.durable, depth := c.depth + 1 } (by simp)
        have hleave : 2 ≤ (body.run
            { c with transaction := some c.durable, depth := c.depth + 1 }).connection.depth := by
          rw [hbody.depth]
          simpa using hdepth
        simp only [henter, exit_nested _ _ _ hleave]
        exact ⟨by simp [hbody.depth], by simp [hopen], by simp [hopen]⟩

/-! ## Outermost blocks -/

/-- An idle connection enters an outermost block with a new transaction, unless
`BEGIN IMMEDIATE` fails. -/
theorem enter_idle (hidle : Idle c) (fails : Bool) :
    c.enter fails =
      if fails then (.raised, c) else (.normal, ⟨c.durable, some c.durable, 1, false⟩) := by
  obtain ⟨durable, transaction, depth, rollbackOnly⟩ := c
  obtain ⟨rfl, rfl, rfl⟩ : transaction = none ∧ depth = 0 ∧ rollbackOnly = false :=
    ⟨hidle.transaction, hidle.depth, hidle.rollbackOnly⟩
  simp [AtomicConnection.enter, inTransaction]

/-- Leaving an outermost block that has not lost its transaction unnoticed. -/
theorem exit_outermost (entered : AtomicConnection D) {kind : Exit} {fault : Option CommitFault}
    (hdepth : c.depth = 1) (hclear : entered.rollbackOnly = false)
    (hview : entered.transaction = some entered.durable) (hdurable : c.durable = entered.durable)
    (hcarries : Carries entered c writes) (hlost : c.transaction.isNone → kind = .raised)
    (hfault : fault ≠ some .leavesOpen) :
    Idle (c.exit kind fault).2 ∧ (c.exit kind fault).2.durable =
      if (c.exit kind fault).1 = .normal then applied writes entered.durable
      else entered.durable := by
  obtain ⟨durable, transaction, depth, rollbackOnly⟩ := c
  obtain rfl : depth = 1 := hdepth
  obtain rfl : durable = entered.durable := hdurable
  cases kind with
  | raised =>
    exact ⟨by constructor <;> simp [AtomicConnection.exit, rollback, superRollback],
      by simp [AtomicConnection.exit, rollback, superRollback]⟩
  | normal =>
    cases rollbackOnly with
    | true =>
      exact ⟨by constructor <;> simp [AtomicConnection.exit, rollback, superRollback],
        by simp [AtomicConnection.exit, rollback, superRollback]⟩
    | false =>
      simp only [Carries, hview, hclear] at hcarries
      rcases hcarries with hnone | ⟨final, hfinal, hdone⟩
      · exact absurd (hlost (by simp [hnone])) (by decide)
      · obtain ⟨-, rfl⟩ := hdone trivial
        obtain rfl : transaction = some (applied writes entered.durable) := hfinal
        rcases fault with - | - | -
        · exact ⟨by constructor <;> simp [AtomicConnection.exit, commit, superCommit],
            by simp [AtomicConnection.exit, commit, superCommit]⟩
        · exact absurd rfl hfault
        · exact ⟨by constructor <;> simp [AtomicConnection.exit, commit, superCommitFails],
            by simp [AtomicConnection.exit, commit, superCommitFails]⟩

/-- One outermost block that meets the condition, from an idle connection. -/
theorem block_of_surfaces {b : Block D} (hidle : Idle c) (hcond : Surfaces c b) :
    Idle (Block.step c b) ∧ AllOrNothing c b := by
  obtain ⟨hadrift, hlost, hfault⟩ := hcond
  unfold AllOrNothing Block.step Block.run
  rw [enter_idle hidle] at hadrift hlost ⊢
  cases hfails : b.beginFails with
  | true => simpa using hidle
  | false =>
    simp only [hfails, Bool.false_eq_true, if_false] at hadrift hlost ⊢
    have hwithin := within_run b.body ⟨c.durable, some c.durable, 1, false⟩ (Nat.le_refl 1)
    exact exit_outermost ⟨c.durable, some c.durable, 1, false⟩ hwithin.depth rfl rfl
      (hwithin.durable hadrift) (hwithin.carries hadrift) hlost hfault

/-- In every run of outermost blocks on an opened connection whose blocks all meet `Surfaces`,
every block either makes exactly all of its writes durable and exits normally, or raises and
makes none of them durable, then or through any later block. -/
theorem allOrNothing_of_surfaces (database : D) (blocks : List (Block D))
    (hcond : Along Block.step Surfaces (opened database) blocks) :
    Along Block.step AllOrNothing (opened database) blocks :=
  Along.of_invariant (I := Idle) (fun _ _ hidle h => (block_of_surfaces hidle h).1)
    (fun _ _ hidle h => (block_of_surfaces hidle h).2) (idle_opened database) hcond

/-- An `INSERT` into a database that is a list of rows. -/
def insertRow (row : ℕ) : Statement (List ℕ) := ⟨true, fun rows => rows ++ [row]⟩

/-- A run that meets the condition: a block with a nested one commits, and a block that handles
the failure of a statement rolls back. -/
def nestedRun : List (Block (List ℕ)) :=
  [⟨false, .seq (.execute (insertRow 1) none) (.block false (.execute (insertRow 2) none) none),
      none⟩,
    ⟨false, .seq (.execute (insertRow 3) none)
      (.attempt (.execute (insertRow 4) (some (.stopped id))) (.execute (insertRow 5) none)),
      none⟩]

theorem allOrNothing_nestedRun :
    Along Block.step Surfaces (opened []) nestedRun ∧
      Along Block.step AllOrNothing (opened []) nestedRun ∧
      (run Block.step (opened []) nestedRun).durable = [1, 2] :=
  ⟨by decide, allOrNothing_of_surfaces [] nestedRun (by decide), by decide⟩

/-- One block whose second statement fails with an automatic rollback that the program handles:
the third statement is committed without the first. -/
def swallowedRollback : List (Block (List ℕ)) :=
  [⟨false, .seq (.execute (insertRow 1) none)
      (.seq (.attempt (.execute (insertRow 2) (some .rolledBack)) .skip)
        (.execute (insertRow 3) none)), none⟩]

/-- Two blocks, the first of which fails to commit and leaves its transaction open: the second
commits the writes of both. -/
def failedCommit : List (Block (List ℕ)) :=
  [⟨false, .execute (insertRow 1) none, some .leavesOpen⟩,
    ⟨false, .execute (insertRow 2) none, none⟩]

theorem not_allOrNothing_swallowedRollback_failedCommit :
    ¬Along Block.step AllOrNothing (opened []) swallowedRollback ∧
      (run Block.step (opened []) swallowedRollback).durable = [3] ∧
      ¬Along Block.step AllOrNothing (opened []) failedCommit ∧
      (run Block.step (opened []) failedCommit).durable = [1, 2] := by
  decide

end Ficc.StateProvider
