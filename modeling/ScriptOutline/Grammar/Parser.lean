/-
ScriptOutline/Grammar/Parser.lean

Ordered-choice parsers that report one fault.  A parser reads characters from a cursor and
either succeeds, at a later cursor, or fails with a fault.  A success also remembers the
farthest fault it met on the way (`alt`): if the parse fails later on, that fault may have
come farther than the one that stopped it.  Of two faults the one at the later place counts;
at the same place the expectations are put together and the rest is that of the preferred
one (`Fault.max`).  Sequencing prefers the later fault, `orElse` the earlier one, and
`firstOf` the one of its last alternative.

Loops never run out of fuel: their fuel is the text that is left, and every round of a
repetition in the grammar reads at least one character.
-/
import ScriptOutline.Code.Type

namespace ScriptOutline.Grammar

/-! ### Faults -/

/-- What could have stood at the place of a fault. -/
inductive Expectation where
  | char (c : Char)
  | endOfInput
  deriving DecidableEq, Repr

/-- Characters by code point, the end of the input after all of them. -/
def Expectation.precedes : Expectation → Expectation → Bool
  | .char a, .char b => a.toNat < b.toNat
  | .char _, .endOfInput => true
  | .endOfInput, _ => false

/-- Why a well-shaped piece of text is refused all the same. -/
inductive Refusal where
  | keywordAsName (word : String)
  | integerTooLarge (digits : String)
  | notAType (text : String)
  deriving DecidableEq, Repr

def Refusal.message : Refusal → String
  | .keywordAsName word => "`" ++ word ++ "` is a keyword and cannot be used as a name"
  | .integerTooLarge digits => "integer literal `" ++ digits ++ "` is out of range"
  | .notAType text => "`" ++ text ++ "` is not a type"

/-- A failure to read.  `place` says how far the reading came; `expected` is sorted and
without repetition. -/
structure Fault where
  place : Nat
  span : Span
  found : Option Char
  expected : List Expectation
  refusal : Option Refusal
  deriving DecidableEq, Repr

namespace Fault

/-- Adds an expectation at its place in a sorted list. -/
def addExpectation (x : Expectation) : List Expectation → List Expectation
  | [] => [x]
  | y :: rest =>
    if x = y then y :: rest
    else if x.precedes y then x :: y :: rest
    else y :: addExpectation x rest

/-- The fault at the later place; at the same place the first one, with the expectations of
both. -/
def max (a b : Fault) : Fault :=
  if b.place < a.place then a
  else if a.place < b.place then b
  else { a with expected := b.expected.foldl (fun xs x => addExpectation x xs) a.expected }

/-- Two faults that may be missing, in the order in which they were met: on a tie the later
one is preferred. -/
def merge : Option Fault → Option Fault → Option Fault
  | none, b => b
  | some a, none => some a
  | some a, some b => some (max b a)

end Fault

/-! ### Parsers -/

/-- A place in the source and the text from there on. -/
structure Cursor where
  pos : Nat
  rest : List Char
  deriving DecidableEq, Repr

/-- The answer of a parser. -/
inductive Reply (α : Type) where
  | done (value : α) (cursor : Cursor) (alt : Option Fault)
  | fail (fault : Fault)

/-- A reader of one kind of thing. -/
abbrev Parser (α : Type) := Cursor → Reply α

namespace Cursor

/-- The cursor at the start of a source. -/
def start (source : List Char) : Cursor := ⟨0, source⟩

/-- The span of what was read from one cursor up to another.  It has at least one
character, unless the first cursor is at the end of the input. -/
def spanTo (first last : Cursor) : Span :=
  if first.rest.isEmpty then ⟨first.pos, first.pos⟩
  else ⟨first.pos, Nat.max last.pos (first.pos + 1)⟩

/-- The fault of the character at a cursor. -/
def fault (c : Cursor) (expected : List Expectation) : Fault :=
  match c.rest with
  | [] => ⟨c.pos, ⟨c.pos, c.pos⟩, none, expected, none⟩
  | x :: _ => ⟨c.pos, ⟨c.pos, c.pos + 1⟩, some x, expected, none⟩

end Cursor

/-- A reply as it stands after a parser that remembered `alt`. -/
def Reply.after {α : Type} (alt : Option Fault) : Reply α → Reply α
  | .done value cursor alt' => .done value cursor (Fault.merge alt alt')
  | .fail fault => .fail (match alt with
    | none => fault
    | some a => Fault.max fault a)

namespace Parser

variable {α β : Type}

/-- Reads nothing. -/
protected def pure (value : α) : Parser α := fun c => .done value c none

/-- One parser after the other; the second may depend on what the first has read. -/
protected def bind (p : Parser α) (f : α → Parser β) : Parser β := fun c =>
  match p c with
  | .done value c' alt => (f value c').after alt
  | .fail fault => .fail fault

instance : Monad Parser where
  pure := Parser.pure
  bind := Parser.bind
  map f p := fun c =>
    match p c with
    | .done value c' alt => .done (f value) c' alt
    | .fail fault => .fail fault

/-! ### Characters -/

/-- One character of a class. -/
def satisfy (f : Char → Bool) : Parser Char := fun c =>
  match c.rest with
  | x :: rest => if f x then .done x ⟨c.pos + 1, rest⟩ none else .fail (c.fault [])
  | [] => .fail (c.fault [])

/-- The given characters, one after the other. -/
def exactly : List Char → Parser Unit
  | [], c => .done () c none
  | w :: word, c =>
    match c.rest with
    | x :: rest => if x = w then exactly word ⟨c.pos + 1, rest⟩ else .fail (c.fault [.char w])
    | [] => .fail (c.fault [.char w])

/-- The end of the input. -/
def endOfInput : Parser Unit := fun c =>
  match c.rest with
  | [] => .done () c none
  | _ :: _ => .fail (c.fault [.endOfInput])

/-! ### Choices -/

/-- The first parser, or else the second.  If both fail, the first one's fault is
preferred. -/
def orElse (p q : Parser α) : Parser α := fun c =>
  match p c with
  | .done value c' alt => .done value c' alt
  | .fail a =>
    match q c with
    | .done value c' alt => .done value c' alt
    | .fail b => .fail (Fault.max a b)

/-- Further alternatives after one that failed with a fault. -/
def firstOfAfter (a : Fault) : List (Parser α) → Parser α
  | [], _ => .fail a
  | q :: others, c =>
    match q c with
    | .done value c' alt => .done value c' alt
    | .fail b => firstOfAfter (Fault.max b a) others c

/-- The first of several parsers that succeeds.  If none does, the last one's fault is
preferred. -/
def firstOf (p : Parser α) (others : List (Parser α)) : Parser α := fun c =>
  match p c with
  | .done value c' alt => .done value c' alt
  | .fail a => firstOfAfter a others c

/-- The parser, or nothing. -/
def optional (p : Parser α) : Parser (Option α) := fun c =>
  match p c with
  | .done value c' alt => .done (some value) c' alt
  | .fail fault => .done none c (some fault)

/-! ### Repetitions -/

/-- Rounds of a repetition; `read` holds what was read, the last round first. -/
def manyFrom (p : Parser α) : List Char → List α → Cursor → Option Fault → Reply (List α)
  | fuel, read, c, alt =>
    match p c with
    | .fail fault => .done read.reverse c (Fault.merge alt (some fault))
    | .done value c' alt' =>
      match fuel with
      | [] => .done (value :: read).reverse c' (Fault.merge alt alt')
      | _ :: fuel => manyFrom p fuel (value :: read) c' (Fault.merge alt alt')

/-- The parser as often as it succeeds. -/
def many (p : Parser α) : Parser (List α) := fun c => manyFrom p c.rest [] c none

/-- The parser as often as it succeeds, and at least once. -/
def many1 (p : Parser α) : Parser (List α) := fun c =>
  match p c with
  | .fail fault => .fail fault
  | .done value c' alt => manyFrom p c'.rest [value] c' alt

/-- Whether one more separator may follow the last item of a list. -/
inductive LastSeparator where
  | refused
  | allowed
  deriving DecidableEq, Repr

/-- Further items of a list, each after a separator.  The answer is the items, the cursor
after the last one, the faults met and the fault that ended the list. -/
def itemsFrom (item : Parser α) (separator : Parser Unit) :
    List Char → List α → Cursor → Option Fault →
      List α × Cursor × Option Fault × Option Fault
  | fuel, read, c, alt =>
    match separator c with
    | .fail fault => (read.reverse, c, alt, some fault)
    | .done _ c₁ alt₁ =>
      match item c₁ with
      | .fail fault => (read.reverse, c, Fault.merge alt alt₁, some fault)
      | .done value c₂ alt₂ =>
        match fuel with
        | [] => ((value :: read).reverse, c₂, Fault.merge (Fault.merge alt alt₁) alt₂, none)
        | _ :: fuel =>
          itemsFrom item separator fuel (value :: read) c₂ (Fault.merge (Fault.merge alt alt₁) alt₂)

/-- At least one item, with separators between them. -/
def separated1 (item : Parser α) (separator : Parser Unit) (last : LastSeparator) :
    Parser (List α) := fun c =>
  match item c with
  | .fail fault => .fail fault
  | .done value c₁ alt₁ =>
    let (items, c₂, alt₂, ended) := itemsFrom item separator c₁.rest [value] c₁ alt₁
    match last with
    | .refused => .done items c₂ (Fault.merge alt₂ ended)
    | .allowed =>
      match separator c₂ with
      | .done _ c₃ alt₃ => .done items c₃ (Fault.merge (Fault.merge alt₂ alt₃) ended)
      | .fail fault => .done items c₂ (Fault.merge (Fault.merge alt₂ (some fault)) ended)

/-- Items with separators between them, possibly none. -/
def separated (item : Parser α) (separator : Parser Unit) (last : LastSeparator) :
    Parser (List α) := fun c =>
  match separated1 item separator last c with
  | .done items c' alt => .done items c' alt
  | .fail fault => .done [] c (some fault)

/-- Skips characters up to the first place where the parser succeeds. -/
def skipFrom (p : Parser α) : List Char → Nat → Option Fault → Reply Unit
  | [], pos, alt =>
    match p ⟨pos, []⟩ with
    | .done _ c' alt' => .done () c' (Fault.merge alt alt')
    | .fail fault => .fail fault
  | x :: rest, pos, alt =>
    match p ⟨pos, x :: rest⟩ with
    | .done _ c' alt' => .done () c' (Fault.merge alt alt')
    | .fail fault => skipFrom p rest (pos + 1) (Fault.merge alt (some fault))

/-- Everything up to and with what the parser reads. -/
def skipThrough (p : Parser α) : Parser Unit := fun c => skipFrom p c.rest c.pos none

/-! ### Spans and conditions -/

/-- What was read, with its span. -/
def spanned (p : Parser α) : Parser (α × Span) := fun c =>
  match p c with
  | .done value c' alt => .done (value, c.spanTo c') c' alt
  | .fail fault => .fail fault

/-- What was read, if it is acceptable.  Otherwise the fault lies behind it and spans all of
it, with a reason or without. -/
def accepted (p : Parser α) (judge : α → Except (Option Refusal) β) : Parser β := fun c =>
  match p c with
  | .fail fault => .fail fault
  | .done value c' alt =>
    match judge value with
    | .ok result => .done result c' alt
    | .error refusal => .fail ⟨c'.pos, c.spanTo c', none, [], refusal⟩

end Parser

end ScriptOutline.Grammar
