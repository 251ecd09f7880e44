/-
ScriptOutline/Label/File.lean

Label files: flat tables of texts in TOML 1.0.  A line holds at most one entry `key = text`
and a comment.  A key is a bare word or a quoted text on one line; a text is quoted once, on
one line, or three times, over several; in double quotes a backslash starts an escape, in
single quotes nothing does.  Whatever else TOML knows (tables, dotted keys, other values) has
no place in a label file, and neither has the same key twice.

A reader answers what it takes from the front of a text, and the rest of the text.
-/
import ScriptOutline.Label.Mapping

namespace ScriptOutline.LabelFile

/-! ### Characters -/

/-- Blanks inside a line. -/
def isSpace (c : Char) : Bool := c == ' ' || c == '\t'

/-- Characters that may stand in quoted text and comments: no control characters but tabs. -/
def isPlain (c : Char) : Bool := c == '\t' || (0x20 ≤ c.toNat && c.toNat != 0x7F)

/-- Characters of bare keys. -/
def isBare (c : Char) : Bool := c.isAlphanum || c == '_' || c == '-'

def skipSpaces (cs : List Char) : List Char := cs.dropWhile isSpace

/-- The text after the end of a line, if it starts with one. -/
def newline? : List Char → Option (List Char)
  | '\n' :: rest => some rest
  | '\r' :: '\n' :: rest => some rest
  | _ => none

/-! ### Escapes -/

def hexValue? (c : Char) : Option Nat :=
  if c.isDigit then some (c.toNat - '0'.toNat)
  else if 'a' ≤ c ∧ c ≤ 'f' then some (c.toNat - 'a'.toNat + 10)
  else if 'A' ≤ c ∧ c ≤ 'F' then some (c.toNat - 'A'.toNat + 10)
  else none

/-- The character whose code point is written in hexadecimal digits. -/
def codePoint? (digits : List Char) : Option Char := do
  let values ← digits.mapM hexValue?
  let n := values.foldl (fun n d => 16 * n + d) 0
  if n.isValidChar then some (Char.ofNat n) else none

/-- The escaped character after a backslash. -/
def escape : List Char → Option (Char × List Char)
  | 'b' :: rest => some ('\x08', rest)
  | 't' :: rest => some ('\t', rest)
  | 'n' :: rest => some ('\n', rest)
  | 'f' :: rest => some ('\x0c', rest)
  | 'r' :: rest => some ('\r', rest)
  | '"' :: rest => some ('"', rest)
  | '\\' :: rest => some ('\\', rest)
  | 'u' :: rest =>
    if rest.length < 4 then none else (codePoint? (rest.take 4)).map (·, rest.drop 4)
  | 'U' :: rest =>
    if rest.length < 8 then none else (codePoint? (rest.take 8)).map (·, rest.drop 8)
  | _ => none

/-! ### Quoted texts

Each reader starts after the opening quotes.  Its fuel is the length of the text, and every
step takes at least one character. -/

/-- A text in double quotes on one line. -/
def basic : Nat → List Char → Option (List Char × List Char)
  | 0, _ => none
  | fuel + 1, cs =>
    match cs with
    | [] => none
    | '"' :: rest => some ([], rest)
    | '\\' :: rest => do
      let (c, rest) ← escape rest
      let (text, rest) ← basic fuel rest
      some (c :: text, rest)
    | c :: rest =>
      if isPlain c then do
        let (text, rest) ← basic fuel rest
        some (c :: text, rest)
      else none

/-- A text in single quotes on one line. -/
def literal : List Char → Option (List Char × List Char)
  | [] => none
  | c :: rest =>
    if c = '\'' then some ([], rest)
    else if isPlain c then do
      let (text, rest) ← literal rest
      some (c :: text, rest)
    else none

/-- The end of a text over several lines: three quotes, and up to two more that belong to the
text. -/
def closing? (quote : Char) (cs : List Char) : Option (Option (List Char × List Char)) :=
  let count := (cs.takeWhile (· == quote)).length
  if count < 3 then none
  else if count ≤ 5 then some (some (List.replicate (count - 3) quote, cs.drop count))
  else some none

/-- After a backslash at the end of a line: the text from the next character on that is
neither a blank nor the end of a line. -/
def skipLineEnds : List Char → List Char
  | '\r' :: '\n' :: rest => skipLineEnds rest
  | c :: rest => if isSpace c || c == '\n' then skipLineEnds rest else c :: rest
  | [] => []

/-- A text in three double quotes. -/
def basicLines : Nat → List Char → Option (List Char × List Char)
  | 0, _ => none
  | fuel + 1, cs =>
    match closing? '"' cs with
    | some answer => answer
    | none =>
      match cs with
      | [] => none
      | '\\' :: rest =>
        match newline? (skipSpaces rest) with
        | some rest => basicLines fuel (skipLineEnds rest)
        | none => do
          let (c, rest) ← escape rest
          let (text, rest) ← basicLines fuel rest
          some (c :: text, rest)
      | c :: rest =>
        match newline? (c :: rest) with
        | some rest => do
          let (text, rest) ← basicLines fuel rest
          some ('\n' :: text, rest)
        | none =>
          if isPlain c then do
            let (text, rest) ← basicLines fuel rest
            some (c :: text, rest)
          else none

/-- A text in three single quotes. -/
def literalLines : Nat → List Char → Option (List Char × List Char)
  | 0, _ => none
  | fuel + 1, cs =>
    match closing? '\'' cs with
    | some answer => answer
    | none =>
      match newline? cs with
      | some rest => do
        let (text, rest) ← literalLines fuel rest
        some ('\n' :: text, rest)
      | none =>
        match cs with
        | [] => none
        | c :: rest =>
          if isPlain c then do
            let (text, rest) ← literalLines fuel rest
            some (c :: text, rest)
          else none

/-- A line end right after three opening quotes does not count. -/
def dropNewline (cs : List Char) : List Char := (newline? cs).getD cs

/-- A quoted text of any of the four forms. -/
def quoted : List Char → Option (List Char × List Char)
  | '"' :: '"' :: '"' :: rest => basicLines (rest.length + 1) (dropNewline rest)
  | '\'' :: '\'' :: '\'' :: rest => literalLines (rest.length + 1) (dropNewline rest)
  | '"' :: rest => basic (rest.length + 1) rest
  | '\'' :: rest => literal rest
  | _ => none

/-! ### Entries -/

/-- A key: a bare word, or a quoted text on one line. -/
def key : List Char → Option (List Char × List Char)
  | '"' :: rest => basic (rest.length + 1) rest
  | '\'' :: rest => literal rest
  | cs =>
    match cs.takeWhile isBare with
    | [] => none
    | word => some (word, cs.dropWhile isBare)

/-- An entry: `key = text`. -/
def entry (cs : List Char) : Option ((String × String) × List Char) := do
  let (name, rest) ← key cs
  match skipSpaces rest with
  | '=' :: rest =>
    let (text, rest) ← quoted (skipSpaces rest)
    some ((String.ofList name, String.ofList text), rest)
  | _ => none

/-- What may follow on a line: blanks and a comment, then the end of the line or the file.
The answer is the text from the next line on. -/
def lineEnd (cs : List Char) : Option (List Char) :=
  let rest := match skipSpaces cs with
    | '#' :: comment => comment.dropWhile isPlain
    | rest => rest
  match rest with
  | [] => some []
  | rest => newline? rest

/-- The entries of a file, line by line. -/
def entries : Nat → List Char → Option (List (String × String))
  | 0, _ => none
  | _ + 1, [] => some []
  | fuel + 1, cs =>
    match lineEnd cs with
    | some rest => entries fuel rest
    | none => do
      let (e, rest) ← entry (skipSpaces cs)
      let rest ← lineEnd rest
      let others ← entries fuel rest
      some (e :: others)

/-- No name occurs twice. -/
def distinct : List (String × String) → Bool
  | [] => true
  | (name, _) :: rest => !rest.any (·.1 == name) && distinct rest

/-- The entries of a label file, in order, if it is one.  A byte order mark at its start does
not count. -/
def read? (text : String) : Option (List (String × String)) :=
  let cs := match text.toList with
    | '\uFEFF' :: rest => rest
    | cs => cs
  (entries (cs.length + 1) cs).filter distinct

end ScriptOutline.LabelFile

namespace ScriptOutline

/-- The templates that are there anyway, with those of a label file over them. -/
def LabelMapping.ofFile? (text : String) : Option LabelMapping :=
  (LabelFile.read? text).map LabelMapping.defaults.insertAll

end ScriptOutline
