/-
ScriptOutline/Grammar/Statement.lean

Statements.  Nothing separates two statements; a `;` after one belongs to it, and a `;` on
its own is an empty statement.  Where a statement could also be an expression, the special
forms come first, declarations before expressions.
-/
import ScriptOutline.Grammar.Expression

namespace ScriptOutline.Grammar

open ScriptOutline.Grammar.Parser

/-- A sign that may be missing. -/
def optionalSymbol (s : String) : Parser Unit := do
  let _ ← optional (symbol s)

/-- A block: `{ statements }`. -/
def block (statement : Parser Statement) : Parser Statement := do
  let (statements, span) ← spanned (between "\x7b" (many statement) "\x7d")
  pure (blockOf statements span)

/-- An expression in brackets. -/
def inBrackets (g : Inner) : Parser Expression := between "(" g.expression ")"

/-- A statement that may be missing. -/
def orMissing (s : Option Statement) : Statement := s.getD .missing

/-- An expression that may be missing. -/
def orMissingExpression (e : Option Expression) : Expression := e.getD .missing

/-- A declaration of a variable: `[final] (def | Type) name [= value]`. -/
def declaration (g : Inner) : Parser Expression := do
  let ((type, (name, nameSpan), value), span) ← spanned do
    let _ ← optional (keyword "final")
    let type ← orElse (do keyword "def"; pure none) (some <$> typeName g)
    let name ← spanned identifier
    let value ← optional (do symbol "="; expression g)
    pure (type, name, value)
  pure (.written
    (.declaration (.written (.variableRef name type none) nameSpan) (orMissingExpression value))
    span)

/-! ### Branches and loops -/

def branch (g : Inner) : Parser StatementNode := do
  keyword "if"
  let condition ← inBrackets g
  let whenTrue ← g.statement
  let whenFalse ← optional (do keyword "else"; g.statement)
  pure (.branch condition.asCondition whenTrue (orMissing whenFalse))

def whileLoop (g : Inner) : Parser StatementNode := do
  keyword "while"
  let condition ← inBrackets g
  let body ← g.statement
  pure (.whileLoop condition.asCondition body)

def doWhile (g : Inner) : Parser StatementNode := do
  keyword "do"
  let body ← g.statement
  keyword "while"
  let condition ← inBrackets g
  pure (.doWhile body condition.asCondition)

/-- A loop over a collection, `for (x in xs)` or `for (x : xs)`. -/
def forEach (g : Inner) : Parser StatementNode := do
  keyword "for"
  let (binding, collection) ← between "(" (do
    let binding ← typedName g
    orElse (keyword "in") (symbol ":")
    let collection ← expression g
    pure (binding, collection)) ")"
  let body ← g.statement
  pure (.loop (some binding) collection body)

/-- The three parts of a counting loop, any of which may be missing. -/
def clauses (g : Inner) : Parser Expression := do
  let (parts, span) ← spanned do
    let first ← optional (orElse (declaration g) (expression g))
    symbol ";"
    let condition ← optional (expression g)
    symbol ";"
    let step ← optional (expression g)
    pure [first, condition, step]
  pure (.written (.sequence .clauses (parts.map orMissingExpression)) span)

/-- A counting loop: `for (a; b; c)`. -/
def countingLoop (g : Inner) : Parser StatementNode := do
  keyword "for"
  let parts ← between "(" (clauses g) ")"
  let body ← g.statement
  pure (.loop none parts body)

/-! ### Clauses -/

/-- The variable of a catch clause; without a type it is an `Exception`. -/
def catchBinding (g : Inner) : Parser Binding :=
  orElse
    (do
      let type ← classType g
      let name ← identifier
      pure ⟨name, type⟩)
    (do
      let name ← identifier
      pure ⟨name, .named "Exception"⟩)

def catchClause (g : Inner) : Parser CatchClause := do
  let ((binding, code), span) ← spanned do
    keyword "catch"
    let binding ← between "(" (catchBinding g) ")"
    let code ← block g.statement
    pure (binding, code)
  pure ⟨binding, code, span⟩

def tryCatch (g : Inner) : Parser StatementNode := do
  keyword "try"
  let body ← block g.statement
  let catches ← many (catchClause g)
  let finallyBlock ← optional (do keyword "finally"; block g.statement)
  pure (.tryCatch body catches (orMissing finallyBlock))

/-- The statements of a case, as a block without braces. -/
def caseBody (g : Inner) : Parser Statement := do
  let (statements, span) ← spanned (many g.statement)
  pure (blockOf statements span)

def caseClause (g : Inner) : Parser CaseClause := do
  let ((subject, code), span) ← spanned do
    keyword "case"
    let subject ← expression g
    symbol ":"
    let code ← caseBody g
    pure (subject, code)
  pure ⟨subject, code, span⟩

def defaultClause (g : Inner) : Parser Statement := do
  keyword "default"
  symbol ":"
  caseBody g

def switch (g : Inner) : Parser StatementNode := do
  keyword "switch"
  let subject ← inBrackets g
  let (cases, defaultBlock) ← between "\x7b" (do
    let cases ← many (caseClause g)
    let defaultBlock ← optional (defaultClause g)
    pure (cases, defaultBlock)) "\x7d"
  pure (.switch subject cases (orMissing defaultBlock))

def synchronized (g : Inner) : Parser StatementNode := do
  keyword "synchronized"
  let lock ← inBrackets g
  let code ← block g.statement
  pure (.synchronized lock code)

/-! ### Simple statements -/

/-- The literal `null` where nothing was written. -/
def orNull (e : Option Expression) : Expression := e.getD (.unwritten (.constant .null))

def throwing (g : Inner) : Parser StatementNode := do
  keyword "throw"
  let value ← expression g
  pure (.throw value)

def returning (g : Inner) : Parser StatementNode := do
  keyword "return"
  let value ← optional (expression g)
  pure (.ret (orNull value))

def assertion (g : Inner) : Parser StatementNode := do
  keyword "assert"
  let condition ← expression g
  let message ← optional do
    orElse (symbol ":") (symbol ",")
    expression g
  pure (.assertion condition.asCondition (orNull message))

/-- Every statement but blocks and `;`, without the `;` after it. -/
def statementNode (g : Inner) : Parser StatementNode :=
  firstOf (branch g)
    [whileLoop g, doWhile g, forEach g, countingLoop g, tryCatch g, switch g,
      do keyword "break"; pure .breakLoop,
      do keyword "continue"; pure .continueLoop,
      synchronized g, throwing g, returning g, assertion g,
      StatementNode.expression <$> declaration g,
      StatementNode.expression <$> expression g]

def simpleStatement (g : Inner) : Parser Statement := do
  let (node, span) ← spanned (statementNode g)
  optionalSymbol ";"
  pure ⟨node, span⟩

def emptyStatement : Parser Statement := do
  let (_, span) ← spanned (symbol ";")
  pure ⟨.empty, span⟩

/-- A statement. -/
def statement (g : Inner) : Parser Statement :=
  orElse (orElse (block g.statement) (simpleStatement g)) emptyStatement

/-! ### The knot -/

/-- The four notions with `n` levels of nesting.  At level zero nothing can be read. -/
def level : Nat → Inner
  | 0 =>
    { classType := fun c => .fail (c.fault [])
      unary := fun c => .fail (c.fault [])
      expression := fun c => .fail (c.fault [])
      statement := fun c => .fail (c.fault []) }
  | n + 1 =>
    { classType := fun c => classType (level n) c
      unary := fun c => unary (level n) c
      expression := fun c => expression (level n) c
      statement := fun c => statement (level n) c }

end ScriptOutline.Grammar
