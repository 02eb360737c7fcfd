import Ficc.Foundations.Transition

/-!
# Nested transactions over one SQLite connection

`state_provider.AtomicConnection` keeps nested `with` blocks inside one outer transaction. The
model has three layers.

* `sqlite3.Connection`: `superExecute`, `superFails`, `superCommit` and `superRollback` say what
  the library does to the durable database and to the open transaction. The connection is in
  the default isolation mode, so a data-modifying statement opens a transaction when none is
  open, and any other statement outside a transaction takes effect at once.
* `AtomicConnection`: `execute`, `enter`, `exit`, `commit` and `rollback` are the methods of the
  class, with its `depth` counter and its `rollback_only` flag.
* `Script`: a program that uses the connection, with nested blocks, statements, raised
  exceptions and exceptions that the program handles. Which calls fail, and how, is part of the
  script, so a theorem about every script is a theorem about every failure.

The database is an arbitrary type `D`, and the effect of a statement is a function on it.
-/

namespace Ficc.StateProvider

/-- A statement: its effect on the database, and whether it is one of the data-modifying
statements before which `sqlite3` opens a transaction. -/
structure Statement (D : Type) where
  /-- Whether the statement is an `INSERT`, `UPDATE`, `DELETE` or `REPLACE`. -/
  modifies : Bool
  /-- What a completed statement does to the database. -/
  effect : D → D

/-- How a statement fails. -/
inductive Fault (D : Type)
  /-- The call raises before SQLite runs anything. -/
  | refused
  /-- The statement fails inside the transaction, which stays open. The effect is that of the
  parameter rows a batched statement completed before the failing one. -/
  | stopped (completed : D → D)
  /-- The statement fails and SQLite rolls the whole transaction back. -/
  | rolledBack

/-- How a commit fails. -/
inductive CommitFault
  /-- The transaction stays open, as after a busy database. -/
  | leavesOpen
  /-- SQLite rolls the transaction back. -/
  | rolledBack
deriving DecidableEq

/-- The connection and the two attributes that `AtomicConnection` adds to it. -/
structure AtomicConnection (D : Type) where
  /-- The committed database: what another connection, or a reopened one, reads. -/
  durable : D
  /-- The database as seen inside the open transaction. -/
  transaction : Option D
  /-- The number of `with` blocks entered and not left. -/
  depth : ℕ
  /-- Whether the outermost block has to roll back. -/
  rollbackOnly : Bool
deriving DecidableEq

namespace AtomicConnection

variable {D : Type}

/-- A newly opened connection. -/
def opened (database : D) : AtomicConnection D :=
  { durable := database, transaction := none, depth := 0, rollbackOnly := false }

/-- The `in_transaction` attribute of the library. -/
def inTransaction (c : AtomicConnection D) : Bool := c.transaction.isSome

/-- The transaction in which a statement runs: the open one, or a new one before a
data-modifying statement. -/
def begun (c : AtomicConnection D) (statement : Statement D) : Option D :=
  match c.transaction with
  | some view => some view
  | none => if statement.modifies then some c.durable else none

/-- A statement that completes, as the library runs it. -/
def superExecute (c : AtomicConnection D) (statement : Statement D) : AtomicConnection D :=
  match c.begun statement with
  | some view => { c with transaction := some (statement.effect view) }
  | none => { c with durable := statement.effect c.durable }

/-- A statement that fails, as the library leaves the connection. -/
def superFails (c : AtomicConnection D) (statement : Statement D) :
    Fault D → AtomicConnection D
  | .refused => c
  | .stopped completed => { c with transaction := (c.begun statement).map completed }
  | .rolledBack => { c with transaction := none }

/-- A commit of the library. Without an open transaction there is nothing to do. -/
def superCommit (c : AtomicConnection D) : AtomicConnection D :=
  match c.transaction with
  | some view => { c with durable := view, transaction := none }
  | none => c

/-- A failing commit of the library. -/
def superCommitFails (c : AtomicConnection D) : CommitFault → AtomicConnection D
  | .leavesOpen => c
  | .rolledBack => { c with transaction := none }

/-- A rollback of the library. -/
def superRollback (c : AtomicConnection D) : AtomicConnection D :=
  { c with transaction := none }

/-- How a call or a block ends. -/
inductive Exit
  | normal
  | raised
deriving DecidableEq

/-- `execute` and `executemany`: a failure recomputes `rollback_only` from `in_transaction`. -/
def execute (c : AtomicConnection D) (statement : Statement D) :
    Option (Fault D) → Exit × AtomicConnection D
  | none => (.normal, c.superExecute statement)
  | some fault =>
    let failed := c.superFails statement fault
    (.raised, { failed with rollbackOnly := failed.inTransaction })

/-- `rollback`. -/
def rollback (c : AtomicConnection D) : AtomicConnection D :=
  { c.superRollback with rollbackOnly := false }

/-- `commit`. Inside a block it does nothing. -/
def commit (c : AtomicConnection D) (fault : Option CommitFault) :
    Exit × AtomicConnection D :=
  if c.depth = 0 then
    if c.rollbackOnly then (.raised, c.rollback)
    else match fault with
      | none => (.normal, c.superCommit)
      | some fault => (.raised, c.superCommitFails fault)
  else (.normal, c)

/-- `__enter__`. `BEGIN IMMEDIATE` runs through `execute`, and only when no transaction is
open; `fails` says that it raises. -/
def enter (c : AtomicConnection D) (fails : Bool) : Exit × AtomicConnection D :=
  if c.inTransaction then (.normal, { c with depth := c.depth + 1 })
  else if fails then (.raised, { c with rollbackOnly := c.inTransaction })
  else (.normal, { c with transaction := some c.durable, depth := c.depth + 1 })

/-- `__exit__`. `kind` says whether an exception leaves the block; the result says whether one
leaves the `with` statement. -/
def exit (c : AtomicConnection D) (kind : Exit) (fault : Option CommitFault) :
    Exit × AtomicConnection D :=
  let left := { c with depth := c.depth - 1, rollbackOnly := c.rollbackOnly || kind = .raised }
  if left.depth = 0 then
    if left.rollbackOnly then (.raised, left.rollback)
    else left.commit fault
  else (kind, left)

end AtomicConnection

open AtomicConnection

/-- A program that uses the connection. -/
inductive Script (D : Type)
  /-- The empty program. -/
  | skip
  /-- A statement, with its failure if it has one. -/
  | execute (statement : Statement D) (fault : Option (Fault D))
  /-- An exception raised by the program itself. -/
  | raise
  | seq (first second : Script D)
  /-- A `with` block: whether its `BEGIN IMMEDIATE` would fail, its body, and the failure of its
  commit, which matters only when the block is the outermost one. -/
  | block (beginFails : Bool) (body : Script D) (commitFault : Option CommitFault)
  /-- An exception leaving `body` is caught and `handler` runs. -/
  | attempt (body handler : Script D)

/-- What a program did inside a block: how it ended, the effects of the statements that
completed, whether it went on without a transaction, and the connection it left. -/
structure Outcome (D : Type) where
  exit : Exit
  writes : List (D → D)
  /-- A statement ran, or a nested block was entered, while no transaction was open. -/
  adrift : Bool
  connection : AtomicConnection D

namespace Script

variable {D : Type}

/-- Runs a program inside a block. -/
def run : Script D → AtomicConnection D → Outcome D
  | .skip, c => ⟨.normal, [], false, c⟩
  | .execute statement fault, c =>
    let (kind, after) := c.execute statement fault
    ⟨kind, if kind = .normal then [statement.effect] else [], !c.inTransaction, after⟩
  | .raise, c => ⟨.raised, [], false, c⟩
  | .seq first second, c =>
    let done := first.run c
    match done.exit with
    | .raised => done
    | .normal =>
      let rest := second.run done.connection
      ⟨rest.exit, done.writes ++ rest.writes, done.adrift || rest.adrift, rest.connection⟩
  | .block beginFails body commitFault, c =>
    match c.enter beginFails with
    | (.raised, refused) => ⟨.raised, [], !c.inTransaction, refused⟩
    | (.normal, entered) =>
      let done := body.run entered
      let (kind, left) := done.connection.exit done.exit commitFault
      ⟨kind, done.writes, !c.inTransaction || done.adrift, left⟩
  | .attempt body handler, c =>
    let done := body.run c
    match done.exit with
    | .normal => done
    | .raised =>
      let rest := handler.run done.connection
      ⟨rest.exit, done.writes ++ rest.writes, done.adrift || rest.adrift, rest.connection⟩

end Script

/-- An outermost `with` block. -/
structure Block (D : Type) where
  /-- Whether `BEGIN IMMEDIATE` fails. -/
  beginFails : Bool
  /-- The statements, nested blocks and handled exceptions inside the block. -/
  body : Script D
  /-- How the commit fails, if it does. -/
  commitFault : Option CommitFault

namespace Block

variable {D : Type}

/-- Runs an outermost block. -/
def run (b : Block D) (c : AtomicConnection D) : Outcome D :=
  match c.enter b.beginFails with
  | (.raised, refused) => ⟨.raised, [], false, refused⟩
  | (.normal, entered) =>
    let done := b.body.run entered
    let (kind, left) := done.connection.exit done.exit b.commitFault
    ⟨kind, done.writes, done.adrift, left⟩

/-- The connection after an outermost block; the exception it may raise is handled outside. -/
def step (c : AtomicConnection D) (b : Block D) : AtomicConnection D := (b.run c).connection

end Block

end Ficc.StateProvider
