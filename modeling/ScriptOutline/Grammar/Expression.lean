/-
ScriptOutline/Grammar/Expression.lean

Expressions, from literals up to assignments.  A primary is followed by suffixes, an operand
may have signs and casts before it, and the binary operators stand in tiers, each tier
binding its operands tighter than the next one.  All binary operators group to the left,
except the assignments, which group to the right.
-/
import ScriptOutline.Grammar.Type

namespace ScriptOutline.Grammar

open ScriptOutline.Grammar.Parser

/-! ### Building expressions -/

/-- An operator with its operands, spanning both. -/
def binaryOf (left : Expression) (operation : String) (right : Expression) : Expression :=
  .written (.binary left operation right) (left.span.through right.span)

/-- The types that are not classes. -/
def primitiveTypes : List String :=
  ["boolean", "byte", "char", "short", "int", "long", "float", "double"]

/-- A bracketed name is a cast only if it is a primitive type or its last part is
capitalised, so `(x) - 1` is a subtraction. -/
def isCastTarget (type : TypeRef) : Bool :=
  type.name ∈ primitiveTypes ||
    ((type.name.toList.reverse.takeWhile (· != '.')).getLast?).any Char.isUpper

/-- The dotted name that an expression spells: variables and plain member accesses only. -/
def dottedName? : Expression → Option String
  | ⟨.variableRef name _ _, _, _⟩ => some name
  | ⟨.access object name .plain, _, _⟩ => (dottedName? object).map (· ++ "." ++ name)
  | _ => none

/-! ### Literals -/

/-- A piece of a text in double quotes. -/
inductive Fragment where
  | char (c : Char)
  | value (e : Expression)

/-- The text before the first value, and every value with the text after it. -/
def splitFragments : List Fragment → List Char × List (Expression × List Char)
  | [] => ([], [])
  | .char c :: rest =>
    let (text, values) := splitFragments rest
    (c :: text, values)
  | .value e :: rest =>
    let (text, values) := splitFragments rest
    ([], (e, text) :: values)

/-- A text in double quotes: a plain constant unless it has values. -/
def textOf (fragments : List Fragment) (span : Span) : Expression :=
  let constant := fun (cs : List Char) =>
    Expression.written (.constant (.string (String.ofList cs))) span
  match splitFragments fragments with
  | (text, []) => constant text
  | (text, values) =>
    .written (.interpolation (constant text :: values.map fun v => constant v.2)
      (values.map Prod.fst)) span

/-- A value inside a text: `${expression}`. -/
def interpolatedExpression (g : Inner) : Parser Expression := do
  exactly ['$', '\x7b']
  let value ← g.expression
  exactly ['\x7d']
  pure value

/-- A value inside a text, without braces: `$name.path`. -/
def interpolatedPath : Parser Expression := do
  exactly ['$']
  let (name, span) ← spanned word
  let path ← many (do exactly ['.']; spanned word)
  pure (path.foldl
    (fun object (name, span) =>
      .written (.access object name .plain) (object.span.through span))
    (.written (.variableRef name none none) span))

/-- One piece of a text in double quotes. -/
def fragment (g : Inner) : Parser Fragment :=
  firstOf (Fragment.value <$> interpolatedExpression g)
    [Fragment.value <$> interpolatedPath,
      Fragment.char <$> escape,
      Fragment.char <$> satisfy fun c => c != '"' && c != '\\']

/-- A text in double quotes, without the blanks around it. -/
def doubleQuoted (g : Inner) : Parser Expression := do
  let (fragments, span) ← spanned do
    exactly ['"']
    let fragments ← many (fragment g)
    exactly ['"']
    pure fragments
  pure (textOf fragments span)

/-- A regular expression, without the blanks around it. -/
def regex : Parser Expression := do
  let (text, span) ← spanned pattern
  pure (.written (.wrap .regex (.written (.constant (.string text)) span)) span)

/-- What the parser reads, as a constant. -/
def constantOf (p : Parser Constant) : Parser Expression := do
  let (value, span) ← spanned p
  pure (.written (.constant value) span)

/-- One of the constants `true`, `false` and `null`. -/
def namedConstant : Parser Constant :=
  orElse
    (orElse (do keyword "true"; pure (.bool true)) (do keyword "false"; pure (.bool false)))
    (do keyword "null"; pure .null)

/-- A literal. -/
def literal (g : Inner) : Parser Expression :=
  firstOf (constantOf (token number))
    [constantOf (Constant.string <$> token quoted),
      token (doubleQuoted g),
      token regex,
      constantOf namedConstant]

/-! ### Parameters and closures -/

/-- A value after `=`, if there is one. -/
def initialValue (g : Inner) : Parser (Option Expression) :=
  optional (do symbol "="; g.expression)

/-- A name with its type, or alone. -/
def typedName (g : Inner) : Parser Binding :=
  orElse
    (do
      let type ← declaredType g
      let name ← identifier
      pure ⟨name, type⟩)
    (do
      let name ← identifier
      pure ⟨name, .dynamic⟩)

/-- A parameter: `[def | Type] name [= default]`. -/
def parameter (g : Inner) : Parser Parameter := do
  let ⟨name, type⟩ ← typedName g
  let defaultValue ← initialValue g
  pure { name, type, defaultValue }

/-- Statements as a block at a span. -/
def blockOf (statements : List Statement) (span : Span) : Statement :=
  ⟨.block statements none, span⟩

/-- A closure: `{ [parameters ->] statements }`. -/
def closure (g : Inner) : Parser Expression := do
  let ((parameters, statements), span) ← spanned do
    symbol "\x7b"
    let parameters ← optional do
      let parameters ← separated (parameter g) (symbol ",") .refused
      symbol "->"
      pure parameters
    let statements ← many g.statement
    symbol "\x7d"
    pure (parameters, statements)
  pure (.written (.closure parameters (blockOf statements span)) span)

/-! ### Arguments -/

/-- The key of a map entry: a name, a text or a number stands for itself, anything else is
in brackets. -/
def entryKey (g : Inner) : Parser Expression :=
  orElse
    (constantOf
      (firstOf (Constant.string <$> identifier)
        [Constant.string <$> token quoted, token number]))
    (between "(" g.expression ")")

/-- An entry `key: value`, or all entries of a map, `*: map`. -/
def mapEntry (g : Inner) : Parser Expression :=
  orElse
    (do
      let ((key, value), span) ← spanned do
        let key ← entryKey g
        symbol ":"
        let value ← g.expression
        pure (key, value)
      pure (.written (.mapEntry key value) span))
    (do
      let (map, span) ← spanned do
        symbol "*:"
        g.expression
      pure (.written (.wrap .spreadMap map) span))

/-- All items of a list: `* items`. -/
def spread (g : Inner) : Parser Expression := do
  let (items, span) ← spanned do
    symbol "*"
    g.expression
  pure (.written (.wrap .spread items) span)

/-- An argument of a call. -/
inductive Argument where
  | named (entry : Expression)
  | positional (value : Expression)

/-- The named arguments, in order. -/
def namedOf : List Argument → List Expression
  | [] => []
  | .named entry :: rest => entry :: namedOf rest
  | .positional _ :: rest => namedOf rest

/-- The other arguments, in order. -/
def positionalOf : List Argument → List Expression
  | [] => []
  | .named _ :: rest => positionalOf rest
  | .positional value :: rest => value :: positionalOf rest

/-- The arguments of a call, a trailing closure being the last one.  Named arguments are put
together in a list that comes first; if there are no others, the call has a tuple of that
list. -/
def argumentList (arguments : List Argument) (trailing : Option Expression) (span : Span) :
    Expression :=
  let positional := positionalOf arguments ++ trailing.toList
  match namedOf arguments with
  | [] => .written (.sequence .arguments positional) span
  | entry :: entries =>
    let last := (entry :: entries).getLast (by simp)
    let named := .written (.sequence .namedArguments (entry :: entries))
      (entry.span.through last.span)
    match positional with
    | [] => .written (.sequence .tuple [named]) span
    | _ => .written (.sequence .arguments (named :: positional)) span

def argument (g : Inner) : Parser Argument :=
  orElse (orElse (Argument.named <$> mapEntry g) (Argument.positional <$> spread g))
    (Argument.positional <$> g.expression)

/-- Arguments `(a, b: c)`, possibly followed by a closure. -/
def arguments (g : Inner) : Parser Expression := do
  let ((items, trailing), span) ← spanned do
    let items ← between "(" (separated (argument g) (symbol ",") .allowed) ")"
    let trailing ← optional (closure g)
    pure (items, trailing)
  pure (argumentList items trailing span)

/-! ### Primaries -/

/-- An array of given sizes: `new T[n]..[]..`. -/
def sizedArray (g : Inner) : Parser Expression := do
  let ((type, sizes), span) ← spanned do
    keyword "new"
    let type ← classType g
    let sizes ← many1 (between "[" g.expression "]")
    let _ ← many emptyBrackets
    pure (type, sizes)
  pure (.written (.array type [] sizes) span)

/-- An array of given elements: `new T[]..{ elements }`. -/
def initializedArray (g : Inner) : Parser Expression := do
  let ((type, dimensions, elements), span) ← spanned do
    keyword "new"
    let type ← classType g
    let dimensions ← many1 emptyBrackets
    let elements ← between "\x7b" (separated g.expression (symbol ",") .allowed) "\x7d"
    pure (type, dimensions.length, elements)
  pure (.written (.array (type.withDimensions (dimensions - 1)) elements []) span)

/-- A new object: `new T(..)`. -/
def newObject (g : Inner) : Parser Expression := do
  let ((type, arguments), span) ← spanned do
    keyword "new"
    let type ← classType g
    let arguments ← arguments g
    pure (type, arguments)
  pure (.written (.construct type arguments none) span)

/-- The word `this` or `super`. -/
def specialWord : Parser SpecialCall :=
  orElse (do keyword "this"; pure .own) (do keyword "super"; pure .inherited)

/-- A call of another constructor: `this(..)` or `super(..)`. -/
def specialCall (g : Inner) : Parser Expression := do
  let ((special, arguments), span) ← spanned do
    let special ← specialWord
    let arguments ← arguments g
    pure (special, arguments)
  pure (.written (.construct (.named special.word) arguments (some special)) span)

/-- The word `this` or `super` as a variable. -/
def specialVariable : Parser Expression := do
  let (special, span) ← spanned specialWord
  pure (.written (.variableRef special.word none none) span)

/-- The empty map: `[:]`. -/
def emptyMap : Parser Expression := do
  let (_, span) ← spanned do
    symbol "["
    symbol ":"
    symbol "]"
  pure (.written (.sequence .map []) span)

/-- A map with entries: `[key: value, ..]`. -/
def map (g : Inner) : Parser Expression := do
  let (entries, span) ← spanned
    (between "[" (separated1 (mapEntry g) (symbol ",") .allowed) "]")
  pure (.written (.sequence .map entries) span)

/-- A list: `[a, *b]`. -/
def list (g : Inner) : Parser Expression := do
  let (items, span) ← spanned
    (between "[" (separated (orElse (spread g) g.expression) (symbol ",") .allowed) "]")
  pure (.written (.sequence .list items) span)

/-- A name on its own. -/
def variableName : Parser Expression := do
  let (name, span) ← spanned identifier
  pure (.written (.variableRef name none none) span)

/-- An expression without operators or suffixes; the more special forms come first. -/
def primary (g : Inner) : Parser Expression :=
  firstOf (literal g)
    [sizedArray g, initializedArray g, newObject g, specialCall g, specialVariable,
      closure g, emptyMap, map g, list g, between "(" g.expression ")", variableName]

/-! ### Suffixes -/

/-- What may follow a primary. -/
inductive Suffix where
  | pointer (method : String)
  | attribute (name : String)
  | classLiteral
  | member (name : String) (accessor : Accessor) (arguments : Option Expression)
  | call (arguments : Expression)
  | index (position : Expression)
  | step (operation : String)

/-- An expression with a suffix that ends at `stop`. -/
def Suffix.apply (object : Expression) (suffix : Suffix) (stop : Nat) : Expression :=
  .written (match suffix with
    | .pointer method => .methodPointer object method
    | .attribute name => .access object name .attribute
    | .classLiteral =>
      match dottedName? object with
      | some name => .classRef (.named name)
      | none => .access object "class" .plain
    | .member name accessor none => .access object name accessor
    | .member name accessor (some arguments) =>
      .call object name arguments (accessor = .safe) false
    | .call arguments =>
      match object.node with
      | .variableRef name _ _ =>
        if name = "this" ∨ name = "super" then .call object "call" arguments false false
        else .call (.ofName "this") name arguments false true
      | _ => .call object "call" arguments false false
    | .index position => .binary object "[" position
    | .step operation => .step .after operation object) ⟨object.span.start, stop⟩

/-- The name of a member, and where it ends. -/
def memberName : Parser (String × Nat) := do
  let (name, span) ← spanned identifier
  pure (name, span.stop)

/-- The sign between an object and its member. -/
def accessor : Parser Accessor :=
  firstOf (do symbol "?."; pure .safe)
    [do symbol "*."; pure .spread, do symbol "."; pure .plain]

/-- The arguments of a member call; a closure alone is one. -/
def memberArguments (g : Inner) : Parser Expression :=
  orElse (arguments g) do
    let (closure, span) ← spanned (closure g)
    pure (.written (.sequence .arguments [closure]) span)

def memberSuffix (g : Inner) : Parser (Suffix × Nat) := do
  let accessor ← accessor
  let (name, stop) ← memberName
  let arguments ← optional (memberArguments g)
  pure (.member name accessor arguments, (arguments.map (·.span.stop)).getD stop)

/-- A suffix, and where it ends. -/
def suffix (g : Inner) : Parser (Suffix × Nat) :=
  firstOf
    (do
      symbol ".&"
      let (name, stop) ← memberName
      pure (.pointer name, stop))
    [do
      symbol ".@"
      let (name, stop) ← memberName
      pure (.attribute name, stop),
    do
      let (_, span) ← spanned do
        symbol "."
        keyword "class"
      pure (.classLiteral, span.stop),
    memberSuffix g,
    do
      let arguments ← arguments g
      pure (.call arguments, arguments.span.stop),
    do
      let (index, span) ← spanned (between "[" g.expression "]")
      pure (.index index, span.stop),
    do
      let (operation, span) ← spanned
        (orElse (do symbol "++"; pure "++") (do symbol "--"; pure "--"))
      pure (.step operation, span.stop)]

/-- A primary with its suffixes. -/
def suffixed (g : Inner) : Parser Expression := do
  let object ← primary g
  let suffixes ← many (suffix g)
  pure (suffixes.foldl (fun object (suffix, stop) => suffix.apply object stop) object)

/-! ### Operators before an operand -/

/-- A cast before its operand: `(T) operand`. -/
def cast (g : Inner) : Parser Expression := do
  let ((target, operand), span) ← spanned do
    let target ← accepted (between "(" (typeName g) ")") fun target =>
      if isCastTarget target then .ok target else .error (some (.notAType target.text))
    let operand ← g.unary
    pure (target, operand)
  pure (.written (.cast target operand false) span)

/-- A sign, as text. -/
def sign (s : String) : Parser String := do
  symbol s
  pure s

/-- The first of several signs. -/
def signs (s : String) (others : List String) : Parser String :=
  firstOf (sign s) (others.map sign)

/-- A sign before an operand. -/
def prefixed (operation : String) (operand : Expression) : ExpressionNode :=
  if operation = "!" then .wrap .not operand
  else if operation = "-" then .wrap .minus operand
  else if operation = "+" then .wrap .plus operand
  else if operation = "~" then .wrap .complement operand
  else .step .before operation operand

/-- An operand with signs and casts before it. -/
def unary (g : Inner) : Parser Expression :=
  orElse (orElse (cast g) (suffixed g)) do
    let ((operation, operand), span) ← spanned do
      let operation ← signs "++" ["--", "!", "-", "+", "~"]
      let operand ← g.unary
      pure (operation, operand)
    pure (.written (prefixed operation operand) span)

/-- An operand with casts after it: `operand as T as U`. -/
def coerced (g : Inner) : Parser Expression := do
  let operand ← unary g
  let targets ← many do
    let (target, span) ← spanned do
      keyword "as"
      typeName g
    pure (target, span.stop)
  pure (targets.foldl
    (fun e (target, stop) => .written (.cast target e true) ⟨e.span.start, stop⟩) operand)

/-! ### Binary operators -/

/-- Operands with operators between them, grouped to the left. -/
def chain (operand : Parser Expression) (others : Parser (String × Expression)) :
    Parser Expression := do
  let first ← operand
  let rest ← many others
  pure (rest.foldl (fun left (operation, right) => binaryOf left operation right) first)

/-- A tier of operators over an operand. -/
def tier (operand : Parser Expression) (operator : Parser String) : Parser Expression :=
  chain operand do
    let operation ← operator
    let right ← operand
    pure (operation, right)

def power (g : Inner) : Parser Expression := tier (coerced g) (sign "**")

def multiplicative (g : Inner) : Parser Expression := tier (power g) (signs "*" ["/", "%"])

def additive (g : Inner) : Parser Expression :=
  tier (multiplicative g) (orElse (sign "+") (sign "-"))

def shift (g : Inner) : Parser Expression :=
  tier (additive g) (orElse (sign "<<") (sign ">>"))

/-- A range, `a..b` or `a..<b`, or an operand alone. -/
def range (g : Inner) : Parser Expression := do
  let first ← shift g
  let last ← optional do
    let inclusive ← orElse (do symbol "..<"; pure false) (do symbol ".."; pure true)
    let last ← shift g
    pure (inclusive, last)
  match last with
  | some (inclusive, last) =>
    pure (.written (.range first last inclusive) (first.span.through last.span))
  | none => pure first

/-- A word as an operator. -/
def wordSign (w : String) : Parser String := do
  keyword w
  pure w

/-- The test for a type, `instanceof T`, without its left operand. -/
def instanceTest (g : Inner) : Parser (String × Expression) := do
  let operation ← wordSign "instanceof"
  let (target, span) ← spanned (typeName g)
  pure (operation, .written (.classRef target) span)

def relational (g : Inner) : Parser Expression :=
  chain (range g)
    (orElse
      (do
        let operation ← firstOf (sign "<=") [sign ">=", sign "<", sign ">", wordSign "in"]
        let right ← range g
        pure (operation, right))
      (instanceTest g))

def equality (g : Inner) : Parser Expression :=
  tier (relational g) (signs "==~" ["==", "!=", "<=>", "=~"])

def bitwiseAnd (g : Inner) : Parser Expression := tier (equality g) (sign "&")

def bitwiseXor (g : Inner) : Parser Expression := tier (bitwiseAnd g) (sign "^")

def bitwiseOr (g : Inner) : Parser Expression := tier (bitwiseXor g) (sign "|")

def logicalAnd (g : Inner) : Parser Expression := tier (bitwiseOr g) (sign "&&")

def logicalOr (g : Inner) : Parser Expression := tier (logicalAnd g) (sign "||")

/-! ### Conditionals and assignments -/

/-- The part of a conditional after its condition: the value if true, unless it is the
condition itself, and the value if false. -/
def conditionalBranches (g : Inner) : Parser (Option Expression × Expression) :=
  orElse
    (do
      symbol "?:"
      let otherwise ← g.expression
      pure (none, otherwise))
    (do
      symbol "?"
      let whenTrue ← g.expression
      symbol ":"
      let whenFalse ← g.expression
      pure (some whenTrue, whenFalse))

/-- A conditional, `c ? a : b` or `a ?: b`, or an operand alone. -/
def conditional (g : Inner) : Parser Expression := do
  let condition ← logicalOr g
  let branches ← optional (conditionalBranches g)
  match branches with
  | none => pure condition
  | some (some whenTrue, whenFalse) =>
    pure (.written (.ternary condition.asCondition whenTrue whenFalse)
      (condition.span.through whenFalse.span))
  | some (none, otherwise) =>
    pure (.written (.elvis condition.asCondition condition otherwise)
      (condition.span.through otherwise.span))

/-- An expression. -/
def expression (g : Inner) : Parser Expression := do
  let target ← conditional g
  let assigned ← optional do
    let operation ← signs "**=" ["+=", "-=", "*=", "/=", "%=", "="]
    let value ← g.expression
    pure (operation, value)
  match assigned with
  | some (operation, value) => pure (binaryOf target operation value)
  | none => pure target

end ScriptOutline.Grammar
