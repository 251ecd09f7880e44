/-
ScriptOutline/Code/Walk.lean

The parts of code, and two orders to visit its expressions in.

`Part.walk` goes in reading order: the fragments and values of an interpolated text
alternate, and the tested operand of `a ?: b` is visited once, inside its condition.
`Statement.storedExpressions` goes in the order in which parts are stored, and visits every
stored part: all fragments before all values, and the tested operand of `a ?: b` a second
time, as the value.
-/
import ScriptOutline.Code.Kind

namespace ScriptOutline

/-! ### Parts -/

/-- Code that other code can have as a direct part. -/
inductive Part where
  | expression (e : Expression)
  | statement (s : Statement)
  | catchClause (c : CatchClause)
  | caseClause (c : CaseClause)

/-- First a member of one list, then one of the other, as long as the first list lasts. -/
def interleave {α : Type} : List α → List α → List α
  | [], _ => []
  | x :: xs, [] => x :: interleave xs []
  | x :: xs, y :: ys => x :: y :: interleave xs ys

theorem mem_interleave {α : Type} {a : α} {xs ys : List α} (h : a ∈ interleave xs ys) :
    a ∈ xs ∨ a ∈ ys := by
  induction xs generalizing ys with
  | nil => simp [interleave] at h
  | cons x xs ih =>
    cases ys with
    | nil =>
      simp only [interleave, List.mem_cons] at h
      rcases h with h | h
      · exact .inl (by simp [h])
      · rcases ih h with h | h
        · exact .inl (by simp [h])
        · simp at h
    | cons y ys =>
      simp only [interleave, List.mem_cons] at h
      rcases h with h | h | h
      · exact .inl (by simp [h])
      · exact .inr (by simp [h])
      · rcases ih h with h | h
        · exact .inl (by simp [h])
        · exact .inr (by simp [h])

/-- The direct parts of an expression, in reading order. -/
def ExpressionNode.children : ExpressionNode → List Part
  | .call object _ arguments _ _ => [.expression object, .expression arguments]
  | .staticCall _ _ arguments => [.expression arguments]
  | .construct _ arguments _ => [.expression arguments]
  | .binary left _ right => [.expression left, .expression right]
  | .declaration target value => [.expression target, .expression value]
  | .ternary condition whenTrue whenFalse =>
    [.expression condition, .expression whenTrue, .expression whenFalse]
  | .elvis condition _ otherwise => [.expression condition, .expression otherwise]
  | .step _ _ operand => [.expression operand]
  | .wrap _ operand => [.expression operand]
  | .closure _ code => [.statement code]
  | .sequence _ items => items.map .expression
  | .array _ elements sizes => (elements ++ sizes).map .expression
  | .mapEntry key value => [.expression key, .expression value]
  | .range first last _ => [.expression first, .expression last]
  | .methodPointer object _ => [.expression object]
  | .cast _ operand _ => [.expression operand]
  | .access object _ _ => [.expression object]
  | .interpolation fragments values => (interleave fragments values).map .expression
  | .constant _ | .classRef _ | .variableRef .. | .field .. | .bytecode _ | .empty => []

/-- The direct parts of a statement, in reading order. -/
def StatementNode.children : StatementNode → List Part
  | .block statements _ => statements.map .statement
  | .expression value => [.expression value]
  | .ret value => [.expression value]
  | .assertion condition message => [.expression condition, .expression message]
  | .loop _ collection body => [.expression collection, .statement body]
  | .whileLoop condition body => [.expression condition, .statement body]
  | .doWhile body condition => [.statement body, .expression condition]
  | .branch condition whenTrue whenFalse =>
    [.expression condition, .statement whenTrue, .statement whenFalse]
  | .tryCatch body catches finallyBlock =>
    .statement body :: catches.map .catchClause ++ [.statement finallyBlock]
  | .switch subject cases defaultBlock =>
    .expression subject :: cases.map .caseClause ++ [.statement defaultBlock]
  | .synchronized lock code => [.expression lock, .statement code]
  | .throw value => [.expression value]
  | .breakLoop | .continueLoop | .empty => []

/-- The direct parts, in reading order. -/
def Part.children : Part → List Part
  | .expression e => e.node.children
  | .statement s => s.node.children
  | .catchClause c => [.statement c.code]
  | .caseClause c => [.expression c.subject, .statement c.code]

theorem ExpressionNode.sizeOf_lt_of_mem_children (n : ExpressionNode) :
    ∀ q ∈ n.children, sizeOf q < sizeOf n + 1 := by
  cases n
  case sequence form items =>
    simp only [children, List.forall_mem_map]
    intro e he
    have := List.sizeOf_lt_of_mem he
    simp only [Part.expression.sizeOf_spec, ExpressionNode.sequence.sizeOf_spec]
    omega
  case array elementType elements sizes =>
    simp only [children, List.forall_mem_map, List.forall_mem_append]
    constructor <;> intro e he <;> have := List.sizeOf_lt_of_mem he <;>
      simp only [Part.expression.sizeOf_spec, ExpressionNode.array.sizeOf_spec] <;> omega
  case interpolation fragments values =>
    simp only [children, List.forall_mem_map]
    intro e he
    rcases mem_interleave he with he | he <;> have := List.sizeOf_lt_of_mem he <;>
      simp only [Part.expression.sizeOf_spec, ExpressionNode.interpolation.sizeOf_spec] <;> omega
  all_goals simp [children] <;> omega

theorem StatementNode.sizeOf_lt_of_mem_children (n : StatementNode) :
    ∀ q ∈ n.children, sizeOf q < sizeOf n + 1 := by
  cases n
  case block statements declared =>
    simp only [children, List.forall_mem_map]
    intro s hs
    have := List.sizeOf_lt_of_mem hs
    simp only [Part.statement.sizeOf_spec, StatementNode.block.sizeOf_spec]
    omega
  case tryCatch body catches finallyBlock =>
    simp only [children, List.cons_append, List.forall_mem_cons, List.forall_mem_append,
      List.forall_mem_map]
    refine ⟨?_, fun c hc => ?_, ?_⟩
    · simp; omega
    · have := List.sizeOf_lt_of_mem hc
      simp only [Part.catchClause.sizeOf_spec, StatementNode.tryCatch.sizeOf_spec]
      omega
    · simp; omega
  case switch subject cases defaultBlock =>
    simp only [children, List.cons_append, List.forall_mem_cons, List.forall_mem_append,
      List.forall_mem_map]
    refine ⟨?_, fun c hc => ?_, ?_⟩
    · simp; omega
    · have := List.sizeOf_lt_of_mem hc
      simp only [Part.caseClause.sizeOf_spec, StatementNode.switch.sizeOf_spec]
      omega
    · simp; omega
  all_goals simp [children] <;> omega

/-- A part is smaller than what it is part of. -/
theorem Part.sizeOf_lt_of_mem_children {p q : Part} (h : q ∈ p.children) :
    sizeOf q < sizeOf p := by
  cases p with
  | expression e =>
    obtain ⟨node, span, inferred⟩ := e
    have := node.sizeOf_lt_of_mem_children q h
    simp only [Part.expression.sizeOf_spec, Expression.mk.sizeOf_spec]
    omega
  | statement s =>
    obtain ⟨node, span⟩ := s
    have := node.sizeOf_lt_of_mem_children q h
    simp only [Part.statement.sizeOf_spec, Statement.mk.sizeOf_spec]
    omega
  | catchClause c =>
    obtain ⟨binding, code, span⟩ := c
    simp only [children, List.mem_singleton] at h
    subst h
    simp; omega
  | caseClause c =>
    obtain ⟨subject, code, span⟩ := c
    simp only [children, List.mem_cons, List.not_mem_nil, or_false] at h
    rcases h with rfl | rfl <;> simp <;> omega

/-! ### Reading order -/

/-- A part and everything in it, in reading order. -/
def Part.walk (p : Part) : List Part :=
  p :: p.children.attach.flatMap fun ⟨q, _⟩ => q.walk
termination_by sizeOf p
decreasing_by exact Part.sizeOf_lt_of_mem_children ‹_›

/-- The expression that a part is. -/
def Part.expression? : Part → Option Expression
  | .expression e => some e
  | _ => none

/-- All expressions of a statement, in reading order. -/
def Statement.expressions (s : Statement) : List Expression :=
  (Part.statement s).walk.filterMap Part.expression?

/-- The kind that a visitor may treat a kind as: a special kind of list, operator or access
is one of the general kind. -/
def Kind.general : Kind → Kind
  | .argumentListExpression => .tupleExpression
  | .namedArgumentListExpression => .mapExpression
  | .declarationExpression => .binaryExpression
  | .elvisOperatorExpression => .ternaryExpression
  | .attributeExpression => .propertyExpression
  | .notExpression => .booleanExpression
  | .closureListExpression => .listExpression
  | k => k

/-! ### Stored order -/

mutual

/-- An expression and all expressions stored in it. -/
def Expression.storedExpressions : Expression → List Expression
  | ⟨node, span, inferred⟩ => ⟨node, span, inferred⟩ :: node.storedExpressions

def ExpressionNode.storedExpressions : ExpressionNode → List Expression
  | .call object _ arguments _ _ => object.storedExpressions ++ arguments.storedExpressions
  | .staticCall _ _ arguments => arguments.storedExpressions
  | .construct _ arguments _ => arguments.storedExpressions
  | .binary left _ right => left.storedExpressions ++ right.storedExpressions
  | .declaration target value => target.storedExpressions ++ value.storedExpressions
  | .ternary condition whenTrue whenFalse =>
    condition.storedExpressions ++ whenTrue.storedExpressions ++ whenFalse.storedExpressions
  | .elvis condition value otherwise =>
    condition.storedExpressions ++ value.storedExpressions ++ otherwise.storedExpressions
  | .step _ _ operand => operand.storedExpressions
  | .wrap _ operand => operand.storedExpressions
  | .closure _ code => code.storedExpressions
  | .sequence _ items => storedInExpressions items
  | .array _ elements sizes => storedInExpressions elements ++ storedInExpressions sizes
  | .mapEntry key value => key.storedExpressions ++ value.storedExpressions
  | .range first last _ => first.storedExpressions ++ last.storedExpressions
  | .methodPointer object _ => object.storedExpressions
  | .cast _ operand _ => operand.storedExpressions
  | .access object _ _ => object.storedExpressions
  | .interpolation fragments values =>
    storedInExpressions fragments ++ storedInExpressions values
  | .constant _ | .classRef _ | .variableRef .. | .field .. | .bytecode _ | .empty => []

def storedInExpressions : List Expression → List Expression
  | [] => []
  | e :: rest => e.storedExpressions ++ storedInExpressions rest

/-- All expressions stored in a statement. -/
def Statement.storedExpressions : Statement → List Expression
  | ⟨node, _⟩ => node.storedExpressions

def StatementNode.storedExpressions : StatementNode → List Expression
  | .block statements _ => storedInStatements statements
  | .expression value => value.storedExpressions
  | .ret value => value.storedExpressions
  | .assertion condition message => condition.storedExpressions ++ message.storedExpressions
  | .loop _ collection body => collection.storedExpressions ++ body.storedExpressions
  | .whileLoop condition body => condition.storedExpressions ++ body.storedExpressions
  | .doWhile body condition => body.storedExpressions ++ condition.storedExpressions
  | .branch condition whenTrue whenFalse =>
    condition.storedExpressions ++ whenTrue.storedExpressions ++ whenFalse.storedExpressions
  | .tryCatch body catches finallyBlock =>
    body.storedExpressions ++ storedInCatches catches ++ finallyBlock.storedExpressions
  | .switch subject cases defaultBlock =>
    subject.storedExpressions ++ storedInCases cases ++ defaultBlock.storedExpressions
  | .synchronized lock code => lock.storedExpressions ++ code.storedExpressions
  | .throw value => value.storedExpressions
  | .breakLoop | .continueLoop | .empty => []

def storedInStatements : List Statement → List Expression
  | [] => []
  | s :: rest => s.storedExpressions ++ storedInStatements rest

def CatchClause.storedExpressions : CatchClause → List Expression
  | ⟨_, code, _⟩ => code.storedExpressions

def storedInCatches : List CatchClause → List Expression
  | [] => []
  | c :: rest => c.storedExpressions ++ storedInCatches rest

def CaseClause.storedExpressions : CaseClause → List Expression
  | ⟨subject, code, _⟩ => subject.storedExpressions ++ code.storedExpressions

def storedInCases : List CaseClause → List Expression
  | [] => []
  | c :: rest => c.storedExpressions ++ storedInCases rest

end

/-! ### Classes -/

/-- The code of a class: the initial values of its fields, as statements, then the code of
its constructors, then that of its methods. -/
def CompiledClass.code (c : CompiledClass) : List Statement :=
  c.fields.filterMap (·.initial.map Statement.ofExpression) ++
    c.constructors.filterMap Constructor.code ++ c.methods.filterMap Method.code

end ScriptOutline
