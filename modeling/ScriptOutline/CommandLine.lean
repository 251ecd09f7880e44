/-
ScriptOutline/CommandLine.lean

The command line: `scriptview [OPTIONS] <FILE>`.  Arguments are read from left to right.  An
option with a value takes it from the same argument (`-p3`, `-p=3`, `--phase=3`) or from the
next one, which must not look like an option; no option may be given twice; after `--`
everything is a file.  The first thing that is wrong, or that asks for the help or the
version, decides the outcome.  Then the file is read, its outline is made and written.
-/
import ScriptOutline.Label.File
import ScriptOutline.Session

namespace ScriptOutline.CommandLine

/-! ### Outcomes -/

/-- What the program can see of the world around it. -/
structure Environment where
  /-- The content of the file at a path, if it can be read. -/
  read : String → Option String
  /-- The content of the label file in the home directory, if there is one. -/
  homeLabels : Option String

/-- What the program leaves behind. -/
structure Outcome where
  exitCode : Nat
  output : String
  report : String

/-- The exit code of a failure. -/
def failureCode : Nat := 1

/-- The exit code of arguments that make no sense. -/
def usageCode : Nat := 2

def Outcome.success (output : String) : Outcome := ⟨0, output, ""⟩

def Outcome.failed (report : String) : Outcome := ⟨failureCode, "", report⟩

def Outcome.misused (report : String) : Outcome := ⟨usageCode, "", report⟩

def versionText : String := "scriptview 0.1.0\n"

def helpText : String :=
  "Show the AST of a script as the compiler sees it at a given phase\n\n" ++
  "Usage: scriptview [OPTIONS] <FILE>\n\n" ++
  "Arguments:\n" ++
  "  <FILE>  Path to the script\n\n" ++
  "Options:\n" ++
  "  -p, --phase <PHASE>    Phase to compile up to, by name (`semantic-analysis`) or number " ++
    "(`4`) [default: class-generation]\n" ++
  "  -l, --labels <LABELS>  Label template file to use instead of `~/.scriptview/labels.toml`\n" ++
  "      --properties       Also print the property table of every node\n" ++
  "  -h, --help             Print help\n" ++
  "  -V, --version          Print version\n"

/-! ### Arguments -/

/-- The options that take a value. -/
inductive ValueOption where
  | phase
  | labels
  deriving DecidableEq

/-- The options that take none. -/
inductive Flag where
  | properties
  | help
  | version
  deriving DecidableEq

/-- An option of either kind. -/
inductive Opt where
  | value (option : ValueOption)
  | flag (flag : Flag)
  deriving DecidableEq

/-- The option of a long name. -/
def long? : List Char → Option Opt
  | ['p', 'h', 'a', 's', 'e'] => some (.value .phase)
  | ['l', 'a', 'b', 'e', 'l', 's'] => some (.value .labels)
  | ['p', 'r', 'o', 'p', 'e', 'r', 't', 'i', 'e', 's'] => some (.flag .properties)
  | ['h', 'e', 'l', 'p'] => some (.flag .help)
  | ['v', 'e', 'r', 's', 'i', 'o', 'n'] => some (.flag .version)
  | _ => none

/-- The option of a letter. -/
def short? : Char → Option Opt
  | 'p' => some (.value .phase)
  | 'l' => some (.value .labels)
  | 'h' => some (.flag .help)
  | 'V' => some (.flag .version)
  | _ => none

/-- The arguments as read so far. -/
structure Settings where
  file : Option String := none
  phase : Option Phase := none
  labels : Option String := none
  properties : Bool := false

/-- Reading stops early with an outcome, or goes on. -/
abbrev Step := Except Outcome

def refuse {α : Type} (what : String) : Step α := .error (.misused ("error: " ++ what ++ "\n"))

namespace Settings

/-- The file, which must not be named twice. -/
def addFile (s : Settings) (path : String) : Step Settings :=
  if s.file.isSome then refuse "unexpected argument"
  else if path = "" then refuse "a file is required"
  else .ok { s with file := some path }

/-- The value of an option. -/
def addValue (s : Settings) (option : ValueOption) (value : String) : Step Settings :=
  match option with
  | .phase =>
    if s.phase.isSome then refuse "the phase is given twice"
    else
      match Phase.parse value with
      | .ok phase => .ok { s with phase := some phase }
      | .error text => refuse ("unknown compile phase `" ++ text ++ "`")
  | .labels =>
    if s.labels.isSome then refuse "the labels are given twice"
    else if value = "" then refuse "a label file is required"
    else .ok { s with labels := some value }

/-- A flag. -/
def addFlag (s : Settings) : Flag → Step Settings
  | .properties =>
    if s.properties then refuse "the properties are asked for twice"
    else .ok { s with properties := true }
  | .help => .error (.success helpText)
  | .version => .error (.success versionText)

end Settings

/-- The text behind an `=`, which separates an option from its value and is not part of
either. -/
def dropEquals : List Char → List Char
  | '=' :: rest => rest
  | cs => cs

/-- Letters behind a single dash.  The answer says whether an option still wants a value. -/
def readLetters (s : Settings) : List Char → Step (Settings × Option ValueOption)
  | [] => .ok (s, none)
  | c :: rest =>
    match short? c with
    | none => refuse "unexpected argument"
    | some (.flag flag) => do
      let s ← s.addFlag flag
      readLetters s rest
    | some (.value option) =>
      if rest.isEmpty then .ok (s, some option)
      else do
        let s ← s.addValue option (String.ofList (dropEquals rest))
        .ok (s, none)

/-- A name behind two dashes, possibly with a value.  The answer says whether the option
still wants a value. -/
def readLong (s : Settings) (cs : List Char) : Step (Settings × Option ValueOption) :=
  let name := cs.takeWhile (· != '=')
  match long? name, cs.dropWhile (· != '=') with
  | none, _ => refuse "unexpected argument"
  | some (.flag flag), [] => do
    let s ← s.addFlag flag
    .ok (s, none)
  | some (.flag _), _ => refuse "unexpected value"
  | some (.value option), [] => .ok (s, some option)
  | some (.value option), value => do
    let s ← s.addValue option (String.ofList (dropEquals value))
    .ok (s, none)

/-- Files, all of them behind `--`. -/
def readFiles (s : Settings) : List String → Step Settings
  | [] => .ok s
  | path :: rest => do
    let s ← s.addFile path
    readFiles s rest

/-- An option that wants a value does not get one. -/
def noValue : Option ValueOption → Step Unit
  | none => .ok ()
  | some _ => refuse "a value is required"

/-- The arguments, one after the other; `wanting` is the option that the next one belongs
to. -/
def readArguments (s : Settings) (wanting : Option ValueOption) :
    List String → Step Settings
  | [] => do
    noValue wanting
    .ok s
  | argument :: rest =>
    match argument.toList with
    | ['-', '-'] => do
      noValue wanting
      readFiles s rest
    | '-' :: '-' :: cs => do
      noValue wanting
      let (s, wanting) ← readLong s cs
      readArguments s wanting rest
    | '-' :: c :: cs => do
      noValue wanting
      let (s, wanting) ← readLetters s (c :: cs)
      readArguments s wanting rest
    | _ =>
      match wanting with
      | some option => do
        let s ← s.addValue option argument
        readArguments s none rest
      | none => do
        let s ← s.addFile argument
        readArguments s none rest

/-! ### Running -/

/-- The labels: those of the file that is named, else those of the file in the home directory
if it is one, else the ones that are always there. -/
def labelsFor (env : Environment) : Option String → Except Outcome LabelMapping
  | some path =>
    match (env.read path).bind LabelMapping.ofFile? with
    | some labels => .ok labels
    | none => .error (.failed ("unable to load label templates from `" ++ path ++ "`\n"))
  | none => .ok ((env.homeLabels.bind LabelMapping.ofFile?).getD .defaults)

/-- The phase that is compiled to unless another one is asked for. -/
def defaultPhase : Phase := .classGeneration

/-- What the arguments ask for. -/
structure Request where
  file : String
  phase : Phase
  labels : Option String
  properties : Bool

/-- What the arguments ask for, unless they decide the outcome themselves. -/
def request (arguments : List String) : Except Outcome Request := do
  let s ← readArguments {} none arguments
  match s.file with
  | some file =>
    .ok { file, phase := s.phase.getD defaultPhase, labels := s.labels, properties := s.properties }
  | none => refuse "a file is required"

/-- The outline of the file as text, or what is in its way. -/
def Request.outline (env : Environment) (r : Request) : Except Outcome String := do
  let source ←
    match env.read r.file with
    | some source => .ok source
    | none => .error (.failed ("Unable to load file at `" ++ r.file ++ "`\n"))
  let labels ← labelsFor env r.labels
  match ((Session.new labels).compile source r.phase).2 with
  | .ok outline => .ok (outline.render r.properties)
  | .error error => .error (.failed (error.message ++ "\n"))

/-- Makes and writes the outline of the file. -/
def Request.run (env : Environment) (r : Request) : Outcome :=
  match r.outline env with
  | .ok text => .success text
  | .error outcome => outcome

/-- Runs the program on its arguments. -/
def run (env : Environment) (arguments : List String) : Outcome :=
  match request arguments with
  | .ok r => r.run env
  | .error outcome => outcome

end ScriptOutline.CommandLine
