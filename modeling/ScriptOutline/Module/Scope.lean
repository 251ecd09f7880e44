/-
ScriptOutline/Module/Scope.lean

Nested lexical scopes.  A scope is a stack of frames; a frame holds the names declared in it
with their origins.  A name is looked up from the innermost frame outwards, and in a frame
from the last declaration back to the first.
-/
import ScriptOutline.Code.Tree

namespace ScriptOutline

/-- The names of one frame, the last declaration first. -/
abbrev Frame := List (String × Origin)

/-- The declared names, in the order of declaration. -/
def Frame.names (frame : Frame) : List String := (frame.map Prod.fst).reverse

/-- Frames, the innermost one first. -/
abbrev Scope := List Frame

namespace Scope

/-- Opens a new innermost frame. -/
def enter (scope : Scope) : Scope := [] :: scope

/-- Closes the innermost frame. -/
def leave (scope : Scope) : Scope := scope.drop 1

/-- The names declared in the innermost frame. -/
def innermostNames (scope : Scope) : List String := (scope.head?.getD []).names

/-- Declares a name in the innermost frame.  Outside of all frames nothing is declared. -/
def declare (name : String) (origin : Origin) : Scope → Scope
  | [] => []
  | frame :: outer => ((name, origin) :: frame) :: outer

/-- The origin of a name that is declared in some frame. -/
def search (name : String) (scope : Scope) : Option Origin :=
  scope.findSome? (·.lookup name)

end Scope

end ScriptOutline
