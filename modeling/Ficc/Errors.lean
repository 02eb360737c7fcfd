import Ficc.Foundations.Raising

/-!
# Errors

The exceptions that the modelled operations raise. The controller raises `Failure`, the executor
raises `Conflict`, and both let validation errors, operating-system errors and database errors
through. A `Conflict` is a `ValueError` in the source, so a handler for `ValueError` catches both.
-/

namespace Ficc

/-- An exception, with the data that the source gives it. -/
inductive Error
  /-- A controller `Failure` with its code, message and HTTP status. -/
  | failure (code message : String) (status : ℕ)
  /-- An executor `Conflict`. -/
  | conflict (text : String)
  /-- A `ValueError`, such as a failed validation of a record. -/
  | value (text : String)
  /-- An `OSError`. -/
  | os
  /-- A violated constraint of the database. -/
  | integrity
deriving DecidableEq, Repr

end Ficc
