/-!
# Errors of the worker

The error classes that the modelled functions construct. Texts are those of the source;
a missing or `null` id is written into a text as the language writes it.
-/

namespace Common

inductive ErrClass where
  | taskFailedErr
  | taskValidityErr
  | taskVerificationErr
  | workerSelectionVerificationErr
  | taskTimeoutErr
  | taskCancelledErr
  | taskEthereumFailureErr
  | typeErr
  deriving DecidableEq, Repr

structure Err where
  cls : ErrClass
  message : String
  deriving DecidableEq, Repr

/-- A text that may be `null` inside another text. -/
def orNull (text : Option String) : String :=
  text.getD "null"

end Common
