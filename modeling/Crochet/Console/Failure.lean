import Crochet.Fault

/-!
# Failures of the program

Why the program stops without having done what it was asked to do.
-/

namespace Crochet

/-- Why the program stops. -/
inductive Failure where
  /-- Something is wrong with a document, the settings or a file. -/
  | fault (fault : Fault)
  /-- A document builds no part that could be relaxed. -/
  | noParts
  /-- A document to be described cannot be read. -/
  | unreadable (reason : String)
  deriving Repr

/-- The text of a failure. -/
def Failure.message : Failure → String
  | fault f => f.message
  | noParts => "document builds no parts"
  | unreadable reason => reason

end Crochet
