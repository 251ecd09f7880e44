/-
ScriptOutline/Compilation.lean

A source on its way through the phases.  A compilation keeps what the phases have made so
far, and each phase runs once: compiling again goes on after the last completed phase, and
compiling to an earlier phase runs nothing.  When the asked phase is reached, every
registered operation is run on every class of the module, whether a phase ran or not.

A phase that fails is not completed.  Conversion uses up the script it was given even then,
so a later attempt passes it with no module at all.
-/
import ScriptOutline.Grammar.Declaration
import ScriptOutline.Module.Canonical
import ScriptOutline.Module.Conversion
import ScriptOutline.Module.Emission
import ScriptOutline.Module.Resolution
import ScriptOutline.Module.Typing

namespace ScriptOutline

/-- Why a compilation stops. -/
inductive CompileError where
  | parse (fault : Grammar.Fault)
  | failure (failure : Failure)
  deriving DecidableEq, Repr

/-- The number of faults is always one: reading stops at the first. -/
def CompileError.message : CompileError → String
  | .parse _ => "source failed to parse (1 error(s))"
  | .failure f => f.message

/-- The state of a compilation.  An operation answers a value of type `α` for a class and its
module. -/
structure Compilation (α : Type) where
  name : String
  source : String
  /-- The source as read, until the module is made from it. -/
  script : Option Script
  module : Option CompiledModule
  completed : Option Phase
  operations : List (CompiledModule → CompiledClass → α)

namespace Compilation

variable {α : Type}

/-- A source that no phase has seen yet. -/
def new (name source : String) : Compilation α :=
  { name, source, script := none, module := none, completed := none, operations := [] }

/-- Adds an operation after those there are. -/
def addOperation (c : Compilation α) (operation : CompiledModule → CompiledClass → α) :
    Compilation α :=
  { c with operations := c.operations ++ [operation] }

/-- The phase has been completed. -/
def hasCompleted (c : Compilation α) (phase : Phase) : Bool :=
  match c.completed with
  | some completed => phase ≤ completed
  | none => false

/-- The compilation with its module, if there is one, changed. -/
def mapModule (c : Compilation α) (f : CompiledModule → CompiledModule) : Compilation α :=
  { c with module := c.module.map f }

/-- The work of one phase, and why it fails if it does. -/
def perform (c : Compilation α) : Phase → Compilation α × Option CompileError
  | .initialization | .output | .finalization => (c, none)
  | .parsing =>
    match Script.parse c.source with
    | .ok script => ({ c with script := some script }, none)
    | .error fault => (c, some (.parse fault))
  | .conversion =>
    match c.script with
    | none => (c, none)
    | some script =>
      match CompiledModule.ofScript c.name script with
      | .ok m => ({ c with script := none, module := some m }, none)
      | .error failure => ({ c with script := none }, some (.failure failure))
  | .semanticAnalysis =>
    match c.module with
    | none => (c, none)
    | some m =>
      let (m, failure) := m.resolve
      ({ c with module := some m }, failure.map .failure)
  | .canonicalization => (c.mapModule .canonical, none)
  | .instructionSelection => (c.mapModule .infer, none)
  | .classGeneration => (c.mapModule .emit, none)

/-- Runs the phases of a list that are not completed yet, up to the first that fails. -/
def performAll (c : Compilation α) : List Phase → Compilation α × Option CompileError
  | [] => (c, none)
  | phase :: rest =>
    if c.hasCompleted phase then c.performAll rest
    else
      match c.perform phase with
      | (c, none) => { c with completed := some phase }.performAll rest
      | (c, some error) => (c, some error)

/-- The answers of the operations: for each operation in turn, one for each class. -/
def visits (c : Compilation α) : List α :=
  match c.module with
  | none => []
  | some m => c.operations.flatMap fun operation => m.classes.map (operation m)

/-- Compiles up to and with a phase. -/
def compile (c : Compilation α) (target : Phase) :
    Compilation α × Except CompileError (List α) :=
  match c.performAll (Phase.all.takeWhile (· ≤ target)) with
  | (c, none) => (c, .ok c.visits)
  | (c, some error) => (c, .error error)

end Compilation

end ScriptOutline
