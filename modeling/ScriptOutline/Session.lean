/-
ScriptOutline/Session.lean

A session answers the outlines of sources at a phase.  While a source is compiled, an outline
grows in the session: an operation adds every class that it is handed, and the first class
brings the top-level statements along.  The next source starts a new outline.  The sources are
named `Script1`, `Script2`, ..., those that fail included.
-/
import ScriptOutline.Compilation
import ScriptOutline.Outline.Class

namespace ScriptOutline

/-! ### An outline that grows -/

/-- An outline to which classes are added. -/
structure Growth where
  root : Outline
  /-- The top-level statements have been added, if there are any to show. -/
  topLevelShown : Bool

namespace Growth

/-- Nothing has been added yet. -/
def start (name : String) : Growth := ⟨.ofLabel name [], false⟩

/-- Adds a class of a module.  The top-level statements stand before the first class. -/
def addClass (labels : LabelMapping) (m : CompiledModule) (c : CompiledClass) (g : Growth) :
    Growth :=
  let topLevel := if g.topLevelShown then [] else m.topLevelOutline labels
  { root := { g.root with children := g.root.children ++ (topLevel ++ [c.outline labels]) }
    topLevelShown := true }

end Growth

/-! ### Sessions -/

structure Session where
  labels : LabelMapping
  growth : Growth
  /-- The number of sources so far. -/
  count : Nat

namespace Session

/-- A session that has seen no source. -/
def new (labels : LabelMapping) : Session := ⟨labels, ⟨default, false⟩, 0⟩

/-- The name of the `n`-th source. -/
def unitName (n : Nat) : String := "Script" ++ toString n

/-- Compiles a source up to and with a phase.  The grown outline is handed out. -/
def compile (s : Session) (source : String) (phase : Phase) :
    Session × Except CompileError Outline :=
  let count := s.count + 1
  let name := unitName count
  let c := (Compilation.new name source).addOperation (Growth.addClass s.labels)
  match (c.compile phase).2 with
  | .ok steps =>
    let grown := steps.foldl (fun g step => step g) (.start name)
    ({ s with growth := { grown with root := default }, count }, .ok grown.root)
  | .error error => ({ s with growth := .start name, count }, .error error)

end Session

end ScriptOutline
