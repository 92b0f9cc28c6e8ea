import MeasuredIdentity.Error

/-!
Failures as they are reported to a user: a message, and what caused it.
-/
namespace MeasuredIdentity.Enrollment

inductive Cause where
  | domain (error : Error)
  | other (text : String)
  deriving DecidableEq, Repr

def Cause.message : Cause → String
  | .domain error => error.message
  | .other text => text

structure Report where
  message : String
  cause : Option Cause := none
  deriving DecidableEq, Repr

namespace Report

/-- The messages, outermost first. -/
def chain (r : Report) : List String := r.message :: (r.cause.map Cause.message).toList

/-- The domain error at the root, if there is one. -/
def root? (r : Report) : Option Error :=
  match r.cause with
  | some (.domain error) => some error
  | _ => none

/-- The text for the error stream of a terminal. -/
def render (r : Report) : String :=
  "Error: " ++ r.message ++ "\n" ++
    match r.cause with
    | some cause => "\nCaused by:\n    " ++ cause.message ++ "\n"
    | none => ""

end Report

end MeasuredIdentity.Enrollment
