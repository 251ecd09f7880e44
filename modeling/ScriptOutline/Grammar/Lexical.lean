/-
ScriptOutline/Grammar/Lexical.lean

Words, signs and literals.  A token takes the blanks and comments on both of its sides with
it, so its span covers them too.  Names are of ASCII letters, digits and underscores, and no
keyword is a name.
-/
import ScriptOutline.Code.Tree
import ScriptOutline.Grammar.Parser
import ScriptOutline.Text.Blank

namespace ScriptOutline.Grammar

open ScriptOutline.Grammar.Parser

/-- Words that are never names. -/
def keywords : List String :=
  ["abstract", "as", "assert", "break", "case", "catch", "class", "continue", "def",
    "default", "do", "else", "extends", "false", "final", "finally", "for", "if",
    "implements", "in", "instanceof", "new", "null", "private", "protected", "public",
    "return", "static", "super", "switch", "synchronized", "this", "throw", "true", "try",
    "while"]

/-! ### Blanks and comments -/

/-- Characters other than `\n` that end a line: a carriage return, the vertical tab, the form
feed, the next-line character and the two Unicode separators. -/
def endsLine (c : Char) : Bool :=
  c == '\r' || c == '\x0b' || c == '\x0c' || c == '\x85' || c == '\u2028' || c == '\u2029'

/-- The end of a line. -/
def newline : Parser Unit :=
  orElse
    (do let _ ← optional (exactly ['\r']); exactly ['\n'])
    (do let _ ← satisfy endsLine; pure ())

/-- From `//` to the end of the line. -/
def lineComment : Parser Unit := do
  exactly ['/', '/']
  skipThrough (orElse newline endOfInput)

/-- From `/*` to the next `*/`. -/
def blockComment : Parser Unit := do
  exactly ['/', '*']
  skipThrough (exactly ['*', '/'])

/-- Blanks and comments, possibly none. -/
def blanks : Parser Unit := do
  let _ ← many (orElse (orElse (do let _ ← satisfy isBlank; pure ()) lineComment) blockComment)

/-- What the parser reads, with the blanks around it. -/
def token {α : Type} (p : Parser α) : Parser α := do
  blanks
  let value ← p
  blanks
  pure value

/-- A sign. -/
def symbol (sign : String) : Parser Unit := token (exactly sign.toList)

/-! ### Names -/

def isNameStart (c : Char) : Bool := c.isAlpha || c == '_'

def isNamePart (c : Char) : Bool := c.isAlphanum || c == '_'

/-- A name or a keyword, without the blanks around it. -/
def word : Parser String := do
  let first ← satisfy isNameStart
  let others ← many (satisfy isNamePart)
  pure (String.ofList (first :: others))

/-- A given keyword. -/
def keyword (name : String) : Parser Unit :=
  token (accepted word fun w => if w = name then .ok () else .error none)

/-- A name. -/
def identifier : Parser String :=
  token (accepted word fun w =>
    if w ∈ keywords then .error (some (.keywordAsName w)) else .ok w)

/-! ### Numbers -/

/-- The greatest integer literal. -/
def greatestInteger : Nat := Nat.pow 2 63 - 1

/-- Digits that do not start with `0`, or a `0` alone. -/
def integerDigits : Parser (List Char) :=
  orElse
    (do
      let first ← satisfy fun c => c.isDigit && c != '0'
      let others ← many (satisfy Char.isDigit)
      pure (first :: others))
    (do exactly ['0']; pure ['0'])

/-- The value of a number, if it is not too large. -/
def numberValue (integer : List Char) : Option (List Char) → Except (Option Refusal) Constant
  | some fraction => .ok (.decimal (.ofDecimal integer fraction))
  | none =>
    if decimalValue integer ≤ greatestInteger then .ok (.integer (decimalValue integer))
    else .error (some (.integerTooLarge (String.ofList integer)))

/-- An integer, or a decimal with digits on both sides of the point. -/
def number : Parser Constant :=
  accepted
    (do
      let integer ← integerDigits
      let fraction ← optional (do exactly ['.']; many1 (satisfy Char.isDigit))
      pure (integer, fraction))
    fun (integer, fraction) => numberValue integer fraction

/-! ### Texts -/

/-- An escaped character: a backslash and what stands for it. -/
def escape : Parser Char := do
  exactly ['\\']
  firstOf (do exactly ['n']; pure '\n')
    [do exactly ['t']; pure '\t',
      do exactly ['r']; pure '\r',
      do exactly ['\\']; pure '\\',
      do exactly ['\'']; pure '\'',
      do exactly ['"']; pure '"',
      do exactly ['$']; pure '$']

/-- A text in single quotes, without the blanks around it. -/
def quoted : Parser String := do
  exactly ['\'']
  let content ← many (orElse (satisfy fun c => c != '\'' && c != '\\') escape)
  exactly ['\'']
  pure (String.ofList content)

/-- A regular expression between `~/` and `/`, without the blanks around it; `\/` stands for
a slash, and every other backslash for itself. -/
def pattern : Parser String := do
  exactly ['~', '/']
  let content ←
    many (orElse (do exactly ['\\', '/']; pure '/') (satisfy fun c => c != '/'))
  exactly ['/']
  pure (String.ofList content)

end ScriptOutline.Grammar
