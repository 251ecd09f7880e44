/-
ScriptOutline/Grammar/Type.lean

Types, and the knot of the grammar.  Types, operands, expressions and statements contain one
another.  Each rule takes the parsers of what may stand inside it as an argument (`Inner`),
and uses them only after it has read at least one character itself.
-/
import ScriptOutline.Grammar.Lexical

namespace ScriptOutline.Grammar

open ScriptOutline.Grammar.Parser

/-- The parsers of the four notions that contain one another. -/
structure Inner where
  classType : Parser TypeRef
  unary : Parser Expression
  expression : Parser Expression
  statement : Parser Statement

/-- What the parser reads, between two signs. -/
def between {α : Type} (opening : String) (p : Parser α) (closing : String) : Parser α := do
  symbol opening
  let value ← p
  symbol closing
  pure value

/-- A class type: `Foo`, `a.b.Foo`, `Map<String, List<Integer>>`.  Generic arguments are not
kept. -/
def classType (g : Inner) : Parser TypeRef := do
  let head ← identifier
  let tail ← many (do exactly ['.']; identifier)
  let _ ← optional (between "<" (separated g.classType (symbol ",") .refused) ">")
  pure (.named (joinWith "." (head :: tail)))

/-- One pair of brackets after a type. -/
def emptyBrackets : Parser Unit := do
  symbol "["
  symbol "]"

/-- A class type with array dimensions: `int[][]`. -/
def typeName (g : Inner) : Parser TypeRef := do
  let type ← classType g
  let dimensions ← many emptyBrackets
  pure (type.withDimensions dimensions.length)

/-- The word `def`, or a type. -/
def declaredType (g : Inner) : Parser TypeRef :=
  orElse (do keyword "def"; pure .dynamic) (typeName g)

end ScriptOutline.Grammar
