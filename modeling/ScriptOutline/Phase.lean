/-
ScriptOutline/Phase.lean

The phases of a compilation, in their order.  A phase has a number from 1 to 9 and a name,
and can be asked for by either: a numeral, or the name without regard to case and to the
signs `_`, `-` and the blank between its words.
-/
import ScriptOutline.Number.Digits
import ScriptOutline.Text.Blank

namespace ScriptOutline

/-- A stage of compilation. -/
inductive Phase where
  | initialization
  | parsing
  | conversion
  | semanticAnalysis
  | canonicalization
  | instructionSelection
  | classGeneration
  | output
  | finalization
  deriving DecidableEq, Repr

namespace Phase

/-- All phases, in their order. -/
def all : List Phase :=
  [.initialization, .parsing, .conversion, .semanticAnalysis, .canonicalization,
    .instructionSelection, .classGeneration, .output, .finalization]

theorem mem_all (p : Phase) : p ∈ all := by
  cases p <;> decide

def first : Phase := .initialization

def last : Phase := .finalization

/-- The position of a phase, from 1. -/
def number : Phase → Nat
  | .initialization => 1
  | .parsing => 2
  | .conversion => 3
  | .semanticAnalysis => 4
  | .canonicalization => 5
  | .instructionSelection => 6
  | .classGeneration => 7
  | .output => 8
  | .finalization => 9

theorem number_injective {p q : Phase} (h : p.number = q.number) : p = q := by
  revert h
  cases p <;> cases q <;> decide

/-- Phases are ordered by their numbers. -/
instance : LE Phase := ⟨fun p q => p.number ≤ q.number⟩

instance (p q : Phase) : Decidable (p ≤ q) := inferInstanceAs (Decidable (p.number ≤ q.number))

def name : Phase → String
  | .initialization => "Initialization"
  | .parsing => "Parsing"
  | .conversion => "Conversion"
  | .semanticAnalysis => "SemanticAnalysis"
  | .canonicalization => "Canonicalization"
  | .instructionSelection => "InstructionSelection"
  | .classGeneration => "ClassGeneration"
  | .output => "Output"
  | .finalization => "Finalization"

/-- The phase of a number. -/
def ofNumber? (n : Nat) : Option Phase := all.find? (·.number == n)

/-- The phase after this one. -/
def next (p : Phase) : Option Phase := ofNumber? (p.number + 1)

/-! ### Reading a phase -/

/-- A numeral: digits, possibly after a `+`, with a value up to 255. -/
def numeral? (cs : List Char) : Option Nat :=
  let digits := match cs with
    | '+' :: rest => rest
    | _ => cs
  (digitsValue? digits).filter (· ≤ 255)

/-- The letters of a name that count: small, and without `_`, `-` and blanks. -/
def nameKey (cs : List Char) : List Char :=
  (cs.filter fun c => c != '_' && c != '-' && c != ' ').map Char.toLower

/-- The phase of a name. -/
def ofName? (cs : List Char) : Option Phase :=
  all.find? fun p => p.name.toList.map Char.toLower == nameKey cs

/-- The phase that a text asks for.  The error is the text to name in the report. -/
def parse (text : String) : Except String Phase :=
  let cs := trimBlanks text.toList
  match numeral? cs with
  | some n =>
    match ofNumber? n with
    | some p => .ok p
    | none => .error (toString n)
  | none =>
    match ofName? cs with
    | some p => .ok p
    | none => .error (String.ofList cs)

/-- The phase that a number asks for. -/
def ofNumber (n : Nat) : Except String Phase :=
  match ofNumber? n with
  | some p => .ok p
  | none => .error (toString n)

end Phase

end ScriptOutline
