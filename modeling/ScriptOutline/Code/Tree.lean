/-
ScriptOutline/Code/Tree.lean

Expressions and statements.  Each is a node with the span it was written at; an expression
also has room for the type that is inferred for it.  The two depend on each other, because a
closure is an expression whose body is a statement.  Kinds that differ in nothing but their
role share a constructor: `sequence` for all bracketed lists, `wrap` for the operators and
roles with a single operand, `access` for the ways to name a member.
-/
import ScriptOutline.Code.Type
import ScriptOutline.Number.Binary64

namespace ScriptOutline

/-! ### Parts without code -/

/-- A literal value. -/
inductive Constant where
  | null
  | bool (value : Bool)
  | integer (value : Nat)
  | decimal (value : Binary64)
  | string (value : String)
  deriving DecidableEq, Repr

/-- The type a constant evaluates to. -/
def Constant.typeName : Constant → String
  | .null => "Object"
  | .bool _ => "boolean"
  | .integer _ => "int"
  | .decimal _ => "BigDecimal"
  | .string _ => "String"

/-- A name with its type. -/
structure Binding where
  name : String
  type : TypeRef
  deriving DecidableEq, Repr

/-- What a variable refers to. -/
inductive Origin where
  | receiver
  | localVariable
  | parameter
  | field
  | property
  /-- Declared nowhere: looked up when the script runs. -/
  | dynamic
  deriving DecidableEq, Repr

/-- The word for an origin. -/
def Origin.word : Origin → String
  | .receiver => "this"
  | .localVariable => "local"
  | .parameter => "parameter"
  | .field => "field"
  | .property => "property"
  | .dynamic => "dynamic"

/-- A constructor that calls another one: of its own class or of the super class. -/
inductive SpecialCall where
  | own
  | inherited
  deriving DecidableEq, Repr

/-- The word that makes a special call. -/
def SpecialCall.word : SpecialCall → String
  | .own => "this"
  | .inherited => "super"

/-- How a member is named: `a.b`, `a?.b`, `a*.b` or `a.@b`. -/
inductive Accessor where
  | plain
  | safe
  | spread
  | attribute
  deriving DecidableEq, Repr

/-- The role of an expression with a single operand. -/
inductive Wrapper where
  /-- A condition. -/
  | boolean
  | not
  | spread
  | spreadMap
  | minus
  | plus
  | complement
  /-- A pattern: the operand is the text of a regular expression. -/
  | regex
  deriving DecidableEq, Repr

/-- The role of a list of expressions. -/
inductive Sequence where
  | tuple
  | arguments
  | list
  /-- The three parts of a counting loop. -/
  | clauses
  | map
  | namedArguments
  deriving DecidableEq, Repr

/-- The side on which `++` or `--` stands. -/
inductive Side where
  | before
  | after
  deriving DecidableEq, Repr

/-! ### Code -/

mutual

/-- An expression: what it is, where it was written, and its inferred type. -/
structure Expression where
  node : ExpressionNode
  span : Span
  inferred : Option String

/-- What an expression is. -/
inductive ExpressionNode where
  | call (object : Expression) (method : String) (arguments : Expression)
      (safe implicitReceiver : Bool)
  | staticCall (owner : TypeRef) (method : String) (arguments : Expression)
  /-- A constructor call: `new T(..)`, or `this(..)` and `super(..)` when `special` says so. -/
  | construct (target : TypeRef) (arguments : Expression) (special : Option SpecialCall)
  /-- An operator between two operands; `[` is the operator of `a[i]`. -/
  | binary (left : Expression) (operation : String) (right : Expression)
  /-- A declaration, `int x = 1`; a missing value is `empty`. -/
  | declaration (target value : Expression)
  | ternary (condition whenTrue whenFalse : Expression)
  /-- The short conditional `a ?: b`.  The tested operand is stored twice: inside `condition`,
  and as the value. -/
  | elvis (condition value otherwise : Expression)
  | step (side : Side) (operation : String) (operand : Expression)
  | wrap (wrapper : Wrapper) (operand : Expression)
  /-- Without parameters, the closure has the implicit parameter `it`. -/
  | closure (parameters : Option (List Parameter)) (code : Statement)
  | sequence (form : Sequence) (items : List Expression)
  /-- Either the elements or the sizes of the dimensions are written. -/
  | array (elementType : TypeRef) (elements sizes : List Expression)
  | mapEntry (key value : Expression)
  | range (first last : Expression) (inclusive : Bool)
  | methodPointer (object : Expression) (method : String)
  /-- A cast: `(T) x`, or `x as T` when coercing. -/
  | cast (target : TypeRef) (operand : Expression) (coerce : Bool)
  | constant (value : Constant)
  | classRef (type : TypeRef)
  | variableRef (name : String) (declared : Option TypeRef) (origin : Option Origin)
  | access (object : Expression) (name : String) (accessor : Accessor)
  | field (name owner : String)
  /-- Literal fragments around interpolated values: one fragment more than values. -/
  | interpolation (fragments values : List Expression)
  | bytecode (instructions : List String)
  | empty

/-- A parameter of a method, a constructor or a closure. -/
structure Parameter where
  name : String
  type : TypeRef
  defaultValue : Option Expression

/-- A statement: what it is, and where it was written. -/
structure Statement where
  node : StatementNode
  span : Span

/-- What a statement is. -/
inductive StatementNode where
  /-- A block; `declared` holds the names declared directly in it, once they are known. -/
  | block (statements : List Statement) (declared : Option (List String))
  | expression (value : Expression)
  | ret (value : Expression)
  | assertion (condition message : Expression)
  /-- A loop `for (x in xs)` binds a variable; `for (a; b; c)` binds none, and its three parts
  are the items of the collection. -/
  | loop (binding : Option Binding) (collection : Expression) (body : Statement)
  | whileLoop (condition : Expression) (body : Statement)
  | doWhile (body : Statement) (condition : Expression)
  /-- A missing else branch is the placeholder `Statement.missing`. -/
  | branch (condition : Expression) (whenTrue whenFalse : Statement)
  | tryCatch (body : Statement) (catches : List CatchClause) (finallyBlock : Statement)
  | switch (subject : Expression) (cases : List CaseClause) (defaultBlock : Statement)
  | breakLoop
  | continueLoop
  | synchronized (lock : Expression) (code : Statement)
  | throw (value : Expression)
  | empty

/-- A clause `catch (T e) { .. }`. -/
structure CatchClause where
  binding : Binding
  code : Statement
  span : Span

/-- A clause `case e: ..`. -/
structure CaseClause where
  subject : Expression
  code : Statement
  span : Span

end

namespace Expression

/-- An expression as it is first read: nothing is inferred yet. -/
def written (node : ExpressionNode) (span : Span) : Expression := ⟨node, span, none⟩

/-- An expression that was not written. -/
def unwritten (node : ExpressionNode) : Expression := written node .unwritten

/-- The placeholder for an expression that is missing. -/
def missing : Expression := unwritten .empty

/-- A variable that was not written. -/
def ofName (name : String) : Expression := unwritten (.variableRef name none none)

/-- The condition of a branch or loop, at the span of its expression. -/
def asCondition (e : Expression) : Expression := written (.wrap .boolean e) e.span

end Expression

namespace Statement

/-- A statement that was not written. -/
def unwritten (node : StatementNode) : Statement := ⟨node, .unwritten⟩

/-- The placeholder for a statement that is missing. -/
def missing : Statement := unwritten .empty

/-- A block that was not written. -/
def block (statements : List Statement) : Statement := unwritten (.block statements none)

/-- An expression as a statement, at the span of the expression. -/
def ofExpression (e : Expression) : Statement := ⟨.expression e, e.span⟩

/-- The statement does nothing: a placeholder, or a `;` on its own. -/
def isEmpty (s : Statement) : Bool :=
  match s.node with
  | .empty => true
  | _ => false

end Statement

end ScriptOutline
