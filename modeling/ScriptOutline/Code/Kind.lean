/-
ScriptOutline/Code/Kind.lean

The closed list of kinds a node of a script can have.  The kind is exact: an argument list
is not a tuple, a declaration is not a binary expression.  Each kind has a simple name, and a
qualified name that label templates are stored under.
-/
import ScriptOutline.Code.Declaration

namespace ScriptOutline

/-- The exact kind of a node. -/
inductive Kind where
  | classNode
  | constructorNode
  | methodNode
  | fieldNode
  | propertyNode
  | annotationNode
  | blockStatement
  | expressionStatement
  | returnStatement
  | assertStatement
  | forStatement
  | whileStatement
  | doWhileStatement
  | ifStatement
  | tryCatchStatement
  | catchStatement
  | switchStatement
  | caseStatement
  | breakStatement
  | continueStatement
  | synchronizedStatement
  | throwStatement
  | emptyStatement
  | methodCallExpression
  | staticMethodCallExpression
  | constructorCallExpression
  | binaryExpression
  | declarationExpression
  | ternaryExpression
  | elvisOperatorExpression
  | postfixExpression
  | prefixExpression
  | booleanExpression
  | notExpression
  | closureExpression
  | tupleExpression
  | argumentListExpression
  | listExpression
  | closureListExpression
  | arrayExpression
  | mapExpression
  | namedArgumentListExpression
  | mapEntryExpression
  | rangeExpression
  | spreadExpression
  | spreadMapExpression
  | methodPointerExpression
  | unaryMinusExpression
  | unaryPlusExpression
  | bitwiseNegationExpression
  | castExpression
  | constantExpression
  | classExpression
  | variableExpression
  | propertyExpression
  | attributeExpression
  | fieldExpression
  | regexExpression
  | gStringExpression
  | bytecodeExpression
  | emptyExpression
  deriving DecidableEq, Repr

namespace Kind

/-- Every kind: declarations, then statements, then expressions. -/
def all : List Kind :=
  [.classNode, .constructorNode, .methodNode, .fieldNode, .propertyNode, .annotationNode,
   .blockStatement, .expressionStatement, .returnStatement, .assertStatement, .forStatement,
   .whileStatement, .doWhileStatement, .ifStatement, .tryCatchStatement, .catchStatement,
   .switchStatement, .caseStatement, .breakStatement, .continueStatement,
   .synchronizedStatement, .throwStatement, .emptyStatement, .methodCallExpression,
   .staticMethodCallExpression, .constructorCallExpression, .binaryExpression,
   .declarationExpression, .ternaryExpression, .elvisOperatorExpression, .postfixExpression,
   .prefixExpression, .booleanExpression, .notExpression, .closureExpression, .tupleExpression,
   .argumentListExpression, .listExpression, .closureListExpression, .arrayExpression,
   .mapExpression, .namedArgumentListExpression, .mapEntryExpression, .rangeExpression,
   .spreadExpression, .spreadMapExpression, .methodPointerExpression, .unaryMinusExpression,
   .unaryPlusExpression, .bitwiseNegationExpression, .castExpression, .constantExpression,
   .classExpression, .variableExpression, .propertyExpression, .attributeExpression,
   .fieldExpression, .regexExpression, .gStringExpression, .bytecodeExpression, .emptyExpression]

/-- Every kind is in the list. -/
theorem mem_all (k : Kind) : k ∈ all := by
  cases k <;> decide

/-- The name of a kind, without its package. -/
def simpleName : Kind → String
  | .classNode => "ClassNode"
  | .constructorNode => "ConstructorNode"
  | .methodNode => "MethodNode"
  | .fieldNode => "FieldNode"
  | .propertyNode => "PropertyNode"
  | .annotationNode => "AnnotationNode"
  | .blockStatement => "BlockStatement"
  | .expressionStatement => "ExpressionStatement"
  | .returnStatement => "ReturnStatement"
  | .assertStatement => "AssertStatement"
  | .forStatement => "ForStatement"
  | .whileStatement => "WhileStatement"
  | .doWhileStatement => "DoWhileStatement"
  | .ifStatement => "IfStatement"
  | .tryCatchStatement => "TryCatchStatement"
  | .catchStatement => "CatchStatement"
  | .switchStatement => "SwitchStatement"
  | .caseStatement => "CaseStatement"
  | .breakStatement => "BreakStatement"
  | .continueStatement => "ContinueStatement"
  | .synchronizedStatement => "SynchronizedStatement"
  | .throwStatement => "ThrowStatement"
  | .emptyStatement => "EmptyStatement"
  | .methodCallExpression => "MethodCallExpression"
  | .staticMethodCallExpression => "StaticMethodCallExpression"
  | .constructorCallExpression => "ConstructorCallExpression"
  | .binaryExpression => "BinaryExpression"
  | .declarationExpression => "DeclarationExpression"
  | .ternaryExpression => "TernaryExpression"
  | .elvisOperatorExpression => "ElvisOperatorExpression"
  | .postfixExpression => "PostfixExpression"
  | .prefixExpression => "PrefixExpression"
  | .booleanExpression => "BooleanExpression"
  | .notExpression => "NotExpression"
  | .closureExpression => "ClosureExpression"
  | .tupleExpression => "TupleExpression"
  | .argumentListExpression => "ArgumentListExpression"
  | .listExpression => "ListExpression"
  | .closureListExpression => "ClosureListExpression"
  | .arrayExpression => "ArrayExpression"
  | .mapExpression => "MapExpression"
  | .namedArgumentListExpression => "NamedArgumentListExpression"
  | .mapEntryExpression => "MapEntryExpression"
  | .rangeExpression => "RangeExpression"
  | .spreadExpression => "SpreadExpression"
  | .spreadMapExpression => "SpreadMapExpression"
  | .methodPointerExpression => "MethodPointerExpression"
  | .unaryMinusExpression => "UnaryMinusExpression"
  | .unaryPlusExpression => "UnaryPlusExpression"
  | .bitwiseNegationExpression => "BitwiseNegationExpression"
  | .castExpression => "CastExpression"
  | .constantExpression => "ConstantExpression"
  | .classExpression => "ClassExpression"
  | .variableExpression => "VariableExpression"
  | .propertyExpression => "PropertyExpression"
  | .attributeExpression => "AttributeExpression"
  | .fieldExpression => "FieldExpression"
  | .regexExpression => "RegexExpression"
  | .gStringExpression => "GStringExpression"
  | .bytecodeExpression => "BytecodeExpression"
  | .emptyExpression => "EmptyExpression"

/-- The package of a kind inside the root package; declarations stand in the root itself. -/
def package : Kind → Option String
  | .classNode | .constructorNode | .methodNode | .fieldNode | .propertyNode | .annotationNode =>
    none
  | .blockStatement | .expressionStatement | .returnStatement | .assertStatement |
    .forStatement | .whileStatement | .doWhileStatement | .ifStatement | .tryCatchStatement |
    .catchStatement | .switchStatement | .caseStatement | .breakStatement | .continueStatement
    | .synchronizedStatement | .throwStatement | .emptyStatement =>
    some "stmt"
  | _ => some "expr"

/-- The package that all kinds live in. -/
def rootPackage : String := "scriptview.ast"

/-- The name of a kind with its packages. -/
def qualifiedName (k : Kind) : String :=
  match k.package with
  | some p => rootPackage ++ "." ++ p ++ "." ++ k.simpleName
  | none => rootPackage ++ "." ++ k.simpleName

/-- The kind of a simple name. -/
def ofSimpleName? (name : String) : Option Kind := all.find? (·.simpleName == name)

end Kind

/-! ### Kinds of code -/

def Wrapper.kind : Wrapper → Kind
  | .boolean => .booleanExpression
  | .not => .notExpression
  | .spread => .spreadExpression
  | .spreadMap => .spreadMapExpression
  | .minus => .unaryMinusExpression
  | .plus => .unaryPlusExpression
  | .complement => .bitwiseNegationExpression
  | .regex => .regexExpression

def Sequence.kind : Sequence → Kind
  | .tuple => .tupleExpression
  | .arguments => .argumentListExpression
  | .list => .listExpression
  | .clauses => .closureListExpression
  | .map => .mapExpression
  | .namedArguments => .namedArgumentListExpression

def ExpressionNode.kind : ExpressionNode → Kind
  | .call .. => .methodCallExpression
  | .staticCall .. => .staticMethodCallExpression
  | .construct .. => .constructorCallExpression
  | .binary .. => .binaryExpression
  | .declaration .. => .declarationExpression
  | .ternary .. => .ternaryExpression
  | .elvis .. => .elvisOperatorExpression
  | .step .after .. => .postfixExpression
  | .step .before .. => .prefixExpression
  | .wrap wrapper _ => wrapper.kind
  | .closure .. => .closureExpression
  | .sequence form _ => form.kind
  | .array .. => .arrayExpression
  | .mapEntry .. => .mapEntryExpression
  | .range .. => .rangeExpression
  | .methodPointer .. => .methodPointerExpression
  | .cast .. => .castExpression
  | .constant .. => .constantExpression
  | .classRef .. => .classExpression
  | .variableRef .. => .variableExpression
  | .access _ _ .attribute => .attributeExpression
  | .access .. => .propertyExpression
  | .field .. => .fieldExpression
  | .interpolation .. => .gStringExpression
  | .bytecode .. => .bytecodeExpression
  | .empty => .emptyExpression

def StatementNode.kind : StatementNode → Kind
  | .block .. => .blockStatement
  | .expression .. => .expressionStatement
  | .ret .. => .returnStatement
  | .assertion .. => .assertStatement
  | .loop .. => .forStatement
  | .whileLoop .. => .whileStatement
  | .doWhile .. => .doWhileStatement
  | .branch .. => .ifStatement
  | .tryCatch .. => .tryCatchStatement
  | .switch .. => .switchStatement
  | .breakLoop => .breakStatement
  | .continueLoop => .continueStatement
  | .synchronized .. => .synchronizedStatement
  | .throw .. => .throwStatement
  | .empty => .emptyStatement

def Expression.kind (e : Expression) : Kind := e.node.kind

def Statement.kind (s : Statement) : Kind := s.node.kind

end ScriptOutline
