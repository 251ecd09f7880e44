/-
ScriptOutline/Main.lean

The program: the command line in the real world.
-/
import ScriptOutline.CommandLine

open ScriptOutline

/-- The content of a file, if it can be read as text. -/
def readText? (path : String) : IO (Option String) := do
  try
    let text ← IO.FS.readFile path
    pure (some text)
  catch _ => pure none

/-- The world as far as a request looks at it: its two files, and the label file of the home
directory. -/
def environmentFor (r : CommandLine.Request) : IO CommandLine.Environment := do
  let source ← readText? r.file
  let labels ←
    match r.labels with
    | some path => readText? path
    | none => pure none
  let homeLabels ←
    match ← IO.getEnv "HOME" with
    | some home => readText? (home ++ "/.scriptview/labels.toml")
    | none => pure none
  pure ⟨fun path => if path = r.file then source else labels, homeLabels⟩

/-- Reads what the arguments ask for, runs the request and writes what it leaves behind. -/
def main (arguments : List String) : IO UInt32 := do
  let outcome ←
    match CommandLine.request arguments with
    | .error outcome => pure outcome
    | .ok r => do
      let env ← environmentFor r
      pure (r.run env)
  IO.print outcome.output
  IO.eprint outcome.report
  pure (UInt32.ofNat outcome.exitCode)
