/-
ScriptOutline/Outline/Code.lean

Outlines of code.  A visitor goes through the code with one current node, the one that
receives children: a node that is shown takes the place of the current one while its parts
are visited, and then becomes its last child.  There is a callback for every kind.  The one
for a special kind of list, operator or access goes on through the callback of the general
kind, which is handed a node of the wrong kind and only passes it by.  Placeholders for what
is missing are not shown.  The label of a node is the template of its kind, filled in, or the
name of the kind if it has no template.
-/
import ScriptOutline.Code.Walk
import ScriptOutline.Label.Mapping
import ScriptOutline.Label.Template
import ScriptOutline.Outline.Basic

namespace ScriptOutline

/-- The label of a node of a kind with the given rows. -/
def LabelMapping.label (labels : LabelMapping) (kind : Kind) (rows : List Row) : String :=
  match labels.template kind.qualifiedName with
  | some template => Template.render template rows
  | none => kind.simpleName

/-- Rows sorted by name. -/
def sortRows (rows : List Row) : List Row := rows.mergeSort fun a b => a.name ≤ b.name

namespace Outline

/-- The node of something of a kind with the given rows. -/
def ofNode (labels : LabelMapping) (kind : Kind) (rows : List Row) (children : List Outline) :
    Outline :=
  ⟨labels.label kind rows, sortRows rows, children⟩

end Outline

/-! ### The visitor -/

/-- A visit.  Its state is the node that receives children. -/
abbrev Build := StateM Outline

/-- What is visited, as far as its own node shows it. -/
structure Shown where
  kind : Kind
  rows : List Row

namespace Build

/-- Makes a node the current one, and answers the one that it replaces. -/
def replace (t : Outline) : Build Outline := modifyGet fun current => (current, t)

/-- Adds a last child to the current node. -/
def push (child : Outline) : Build Unit :=
  modify fun current => { current with children := current.children ++ [child] }

/-- Visits one after the other. -/
def runAll : List (Build Unit) → Build Unit
  | [] => pure ()
  | visit :: rest => do
    visit
    runAll rest

/-- Shows what is visited if it is of the expected kind, and goes down from it. -/
def addNode (labels : LabelMapping) (node : Shown) (expected : Kind) (descend : Build Unit) :
    Build Unit :=
  if node.kind ≠ expected then descend
  else do
    let parent ← replace (.ofNode labels node.kind node.rows [])
    descend
    let child ← replace parent
    push child

/-- The nodes that a visit adds to an empty node. -/
def finish (visit : Build Unit) : List Outline := (visit.run (.ofLabel "" [])).2.children

end Build

/-- A callback of the visitor. -/
inductive Callback where
  /-- For a kind of its own: the parts are visited. -/
  | plain (expected : Kind)
  /-- For a kind that is a special case of a general one: goes on as the general callback. -/
  | special (expected general : Kind)
  /-- For a kind that has no parts to visit. -/
  | leaf (expected : Kind)
  /-- For placeholders: nothing happens. -/
  | skip

/-- Calls back for something, given the visit of its parts. -/
def Callback.run (labels : LabelMapping) (node : Shown) (walk : Build Unit) :
    Callback → Build Unit
  | .plain expected => .addNode labels node expected walk
  | .special expected general =>
    .addNode labels node expected (.addNode labels node general walk)
  | .leaf expected => .addNode labels node expected (pure ())
  | .skip => pure ()

/-! ### Callbacks -/

def Wrapper.callback : Wrapper → Callback
  | .boolean => .plain .booleanExpression
  | .not => .special .notExpression .booleanExpression
  | .spread => .plain .spreadExpression
  | .spreadMap => .plain .spreadMapExpression
  | .minus => .plain .unaryMinusExpression
  | .plus => .plain .unaryPlusExpression
  | .complement => .plain .bitwiseNegationExpression
  | .regex => .plain .regexExpression

def Sequence.callback : Sequence → Callback
  | .tuple => .plain .tupleExpression
  | .arguments => .special .argumentListExpression .tupleExpression
  | .list => .plain .listExpression
  | .clauses => .special .closureListExpression .listExpression
  | .map => .plain .mapExpression
  | .namedArguments => .special .namedArgumentListExpression .mapExpression

def ExpressionNode.callback : ExpressionNode → Callback
  | .call .. => .plain .methodCallExpression
  | .staticCall .. => .plain .staticMethodCallExpression
  | .construct .. => .plain .constructorCallExpression
  | .binary .. => .plain .binaryExpression
  | .declaration .. => .special .declarationExpression .binaryExpression
  | .ternary .. => .plain .ternaryExpression
  | .elvis .. => .special .elvisOperatorExpression .ternaryExpression
  | .step .after .. => .plain .postfixExpression
  | .step .before .. => .plain .prefixExpression
  | .wrap wrapper _ => wrapper.callback
  | .closure .. => .plain .closureExpression
  | .sequence form _ => form.callback
  | .array .. => .plain .arrayExpression
  | .mapEntry .. => .plain .mapEntryExpression
  | .range .. => .plain .rangeExpression
  | .methodPointer .. => .plain .methodPointerExpression
  | .cast .. => .plain .castExpression
  | .constant .. => .leaf .constantExpression
  | .classRef .. => .leaf .classExpression
  | .variableRef .. => .leaf .variableExpression
  | .access _ _ .attribute => .special .attributeExpression .propertyExpression
  | .access .. => .plain .propertyExpression
  | .field .. => .leaf .fieldExpression
  | .interpolation .. => .plain .gStringExpression
  | .bytecode .. => .leaf .bytecodeExpression
  | .empty => .skip

def Expression.callback (e : Expression) : Callback := e.node.callback

/-- A statement `;` is shown, the placeholder for a missing statement is not. -/
def Statement.callback (s : Statement) : Callback :=
  match s.node with
  | .block .. => .plain .blockStatement
  | .expression .. => .plain .expressionStatement
  | .ret .. => .plain .returnStatement
  | .assertion .. => .plain .assertStatement
  | .loop .. => .plain .forStatement
  | .whileLoop .. => .plain .whileStatement
  | .doWhile .. => .plain .doWhileStatement
  | .branch .. => .plain .ifStatement
  | .tryCatch .. => .plain .tryCatchStatement
  | .switch .. => .plain .switchStatement
  | .breakLoop => .leaf .breakStatement
  | .continueLoop => .leaf .continueStatement
  | .synchronized .. => .plain .synchronizedStatement
  | .throw .. => .plain .throwStatement
  | .empty => if s.span.isEmpty then .skip else .leaf .emptyStatement

/-! ### The walk -/

mutual

/-- Visits an expression. -/
def Expression.visit (labels : LabelMapping) : Expression → Build Unit
  | ⟨node, span, inferred⟩ =>
    (Expression.callback ⟨node, span, inferred⟩).run labels
      ⟨node.kind, Expression.rows ⟨node, span, inferred⟩⟩ (node.walk labels)

/-- Visits the parts of an expression, in reading order. -/
def ExpressionNode.walk (labels : LabelMapping) : ExpressionNode → Build Unit
  | .call object _ arguments _ _ => do
    object.visit labels
    arguments.visit labels
  | .staticCall _ _ arguments => arguments.visit labels
  | .construct _ arguments _ => arguments.visit labels
  | .binary left _ right => do
    left.visit labels
    right.visit labels
  | .declaration target value => do
    target.visit labels
    value.visit labels
  | .ternary condition whenTrue whenFalse => do
    condition.visit labels
    whenTrue.visit labels
    whenFalse.visit labels
  | .elvis condition _ otherwise => do
    condition.visit labels
    otherwise.visit labels
  | .step _ _ operand => operand.visit labels
  | .wrap _ operand => operand.visit labels
  | .closure _ code => code.visit labels
  | .sequence _ items => .runAll (expressionVisits labels items)
  | .array _ elements sizes => do
    .runAll (expressionVisits labels elements)
    .runAll (expressionVisits labels sizes)
  | .mapEntry key value => do
    key.visit labels
    value.visit labels
  | .range first last _ => do
    first.visit labels
    last.visit labels
  | .methodPointer object _ => object.visit labels
  | .cast _ operand _ => operand.visit labels
  | .access object _ _ => object.visit labels
  | .interpolation fragments values =>
    .runAll (interleave (expressionVisits labels fragments) (expressionVisits labels values))
  | .constant _ | .classRef _ | .variableRef .. | .field .. | .bytecode _ | .empty => pure ()

def expressionVisits (labels : LabelMapping) : List Expression → List (Build Unit)
  | [] => []
  | e :: rest => e.visit labels :: expressionVisits labels rest

/-- Visits a statement. -/
def Statement.visit (labels : LabelMapping) : Statement → Build Unit
  | ⟨node, span⟩ =>
    (Statement.callback ⟨node, span⟩).run labels ⟨node.kind, Statement.rows ⟨node, span⟩⟩
      (node.walk labels)

/-- Visits the parts of a statement, in reading order. -/
def StatementNode.walk (labels : LabelMapping) : StatementNode → Build Unit
  | .block statements _ => .runAll (statementVisits labels statements)
  | .expression value => value.visit labels
  | .ret value => value.visit labels
  | .assertion condition message => do
    condition.visit labels
    message.visit labels
  | .loop _ collection body => do
    collection.visit labels
    body.visit labels
  | .whileLoop condition body => do
    condition.visit labels
    body.visit labels
  | .doWhile body condition => do
    body.visit labels
    condition.visit labels
  | .branch condition whenTrue whenFalse => do
    condition.visit labels
    whenTrue.visit labels
    whenFalse.visit labels
  | .tryCatch body catches finallyBlock => do
    body.visit labels
    .runAll (catchVisits labels catches)
    finallyBlock.visit labels
  | .switch subject cases defaultBlock => do
    subject.visit labels
    .runAll (caseVisits labels cases)
    defaultBlock.visit labels
  | .synchronized lock code => do
    lock.visit labels
    code.visit labels
  | .throw value => value.visit labels
  | .breakLoop | .continueLoop | .empty => pure ()

def statementVisits (labels : LabelMapping) : List Statement → List (Build Unit)
  | [] => []
  | s :: rest => s.visit labels :: statementVisits labels rest

/-- Visits a catch clause: its node, then its code. -/
def CatchClause.visit (labels : LabelMapping) : CatchClause → Build Unit
  | ⟨binding, code, span⟩ =>
    (Callback.plain .catchStatement).run labels
      ⟨.catchStatement, CatchClause.rows ⟨binding, code, span⟩⟩ (code.visit labels)

def catchVisits (labels : LabelMapping) : List CatchClause → List (Build Unit)
  | [] => []
  | c :: rest => c.visit labels :: catchVisits labels rest

/-- Visits a case clause: its node, then its subject and its code. -/
def CaseClause.visit (labels : LabelMapping) : CaseClause → Build Unit
  | ⟨subject, code, span⟩ =>
    (Callback.plain .caseStatement).run labels
      ⟨.caseStatement, CaseClause.rows ⟨subject, code, span⟩⟩ (do
        subject.visit labels
        code.visit labels)

def caseVisits (labels : LabelMapping) : List CaseClause → List (Build Unit)
  | [] => []
  | c :: rest => c.visit labels :: caseVisits labels rest

end

/-! ### Outlines -/

/-- The outline of an expression: one tree, or none for a missing expression. -/
def Expression.outline (labels : LabelMapping) (e : Expression) : List Outline :=
  Build.finish (e.visit labels)

/-- The outline of a statement: one tree, or none for a missing statement. -/
def Statement.outline (labels : LabelMapping) (s : Statement) : List Outline :=
  Build.finish (s.visit labels)

end ScriptOutline
