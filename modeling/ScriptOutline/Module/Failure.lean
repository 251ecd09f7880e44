/-
ScriptOutline/Module/Failure.lean

Why a script that can be read cannot be compiled.  Each cause belongs to one phase and has
one wording.
-/
import ScriptOutline.Code.Type
import ScriptOutline.Phase

namespace ScriptOutline

/-- What is wrong with a script. -/
inductive Cause where
  | duplicateClass (name : String)
  | misnamedConstructor (name className : String)
  | duplicateField (name className : String)
  | unknownClass (name : String)
  | strayBreak
  | strayContinue
  deriving DecidableEq, Repr

/-- The phase that finds the cause. -/
def Cause.phase : Cause → Phase
  | .duplicateClass _ | .misnamedConstructor .. | .duplicateField .. => .conversion
  | .unknownClass _ | .strayBreak | .strayContinue => .semanticAnalysis

def Cause.message : Cause → String
  | .duplicateClass name => "invalid duplicate class definition of `" ++ name ++ "`"
  | .misnamedConstructor name className =>
    "invalid constructor `" ++ name ++ "` in class `" ++ className ++
      "`; method declarations need a return type or `def`"
  | .duplicateField name className =>
    "the field `" ++ name ++ "` is declared multiple times in class `" ++ className ++ "`"
  | .unknownClass name => "unable to resolve class `" ++ name ++ "`"
  | .strayBreak => "the break statement is only allowed inside loops or switches"
  | .strayContinue => "the continue statement is only allowed inside loops"

/-- A cause and the place in the source where it shows. -/
structure Failure where
  cause : Cause
  span : Span
  deriving DecidableEq, Repr

/-- The report of a failure: `SemanticAnalysis failed: ..`. -/
def Failure.message (f : Failure) : String :=
  f.cause.phase.name ++ " failed: " ++ f.cause.message

end ScriptOutline
