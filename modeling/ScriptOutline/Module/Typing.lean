/-
ScriptOutline/Module/Typing.lean

Types of expressions, as far as they can be told without running them.  The type of an
expression is told from its kind and from the types of its direct parts (`typeOf`); parts
come first.  Where no type can be told, the expression keeps the type it had.
-/
import ScriptOutline.Code.Text

namespace ScriptOutline

/-- The types that arithmetic is told for. -/
def numericTypes : List String := ["int", "long", "double", "BigDecimal", "Integer"]

/-- The type of an arithmetic operation on operands of known types. -/
def arithmeticType (operation left right : String) : Option String :=
  if operation = "+" ∧ (left = "String" ∨ right = "String") then some "String"
  else if operation ∈ ["+", "-", "*", "%"] ∧ left = right ∧ left ∈ numericTypes then some left
  else if operation ∈ ["+", "-", "*", "/"] ∧
      ((left = "BigDecimal" ∧ right ∈ numericTypes) ∨
        (right = "BigDecimal" ∧ left ∈ numericTypes)) then
    some "BigDecimal"
  else if operation = "/" ∧ left = "int" ∧ right = "int" then some "BigDecimal"
  else none

/-- The operators whose result is a truth value. -/
def comparisons : List String :=
  ["==", "!=", "<", "<=", ">", ">=", "&&", "||", "in", "instanceof", "==~"]

/-- The type of an operator between operands whose types may be known. -/
def binaryType (operation : String) (left right : Option String) : Option String :=
  if operation ∈ comparisons then some "boolean"
  else if operation = "<=>" then some "int"
  else if operation = "=" then right
  else
    match left, right with
    | some left, some right => arithmeticType operation left right
    | _, _ => none

/-- The type of an expression, told from its parts. -/
def ExpressionNode.typeOf : ExpressionNode → Option String
  | .constant value => some value.typeName
  | .interpolation .. => some "GString"
  | .wrap .regex _ => some "Pattern"
  | .wrap .boolean _ | .wrap .not _ => some "boolean"
  | .wrap .minus operand | .wrap .plus operand => operand.inferred
  | .wrap .. => none
  | .sequence .list _ => some "List"
  | .sequence .map _ => some "Map"
  | .sequence .. => none
  | .range .. => some "Range"
  | .closure .. => some "Closure"
  | .classRef _ => some "Class"
  | .cast target .. => some target.text
  | .construct target _ none => some target.text
  | .array elementType _ sizes =>
    some (elementType.withDimensions (elementType.dimensions + max sizes.length 1)).text
  | .variableRef _ declared _ => declared.map TypeRef.text
  | .declaration target _ => target.inferred
  | .binary left operation right => binaryType operation left.inferred right.inferred
  | _ => none

mutual

/-- An expression with types for itself and all its parts. -/
def Expression.infer : Expression → Expression
  | ⟨node, span, inferred⟩ =>
    let node := node.infer
    ⟨node, span, node.typeOf.or inferred⟩

def ExpressionNode.infer : ExpressionNode → ExpressionNode
  | .call object method arguments safe implicitReceiver =>
    .call object.infer method arguments.infer safe implicitReceiver
  | .staticCall owner method arguments => .staticCall owner method arguments.infer
  | .construct target arguments special => .construct target arguments.infer special
  | .binary left operation right => .binary left.infer operation right.infer
  | .declaration target value => .declaration target.infer value.infer
  | .ternary condition whenTrue whenFalse =>
    .ternary condition.infer whenTrue.infer whenFalse.infer
  | .elvis condition value otherwise => .elvis condition.infer value.infer otherwise.infer
  | .step side operation operand => .step side operation operand.infer
  | .wrap wrapper operand => .wrap wrapper operand.infer
  | .closure parameters code => .closure parameters code.infer
  | .sequence form items => .sequence form (inferExpressions items)
  | .array elementType elements sizes =>
    .array elementType (inferExpressions elements) (inferExpressions sizes)
  | .mapEntry key value => .mapEntry key.infer value.infer
  | .range first last inclusive => .range first.infer last.infer inclusive
  | .methodPointer object method => .methodPointer object.infer method
  | .cast target operand coerce => .cast target operand.infer coerce
  | .constant value => .constant value
  | .classRef type => .classRef type
  | .variableRef name declared origin => .variableRef name declared origin
  | .access object name accessor => .access object.infer name accessor
  | .field name owner => .field name owner
  | .interpolation fragments values =>
    .interpolation (inferExpressions fragments) (inferExpressions values)
  | .bytecode instructions => .bytecode instructions
  | .empty => .empty

def inferExpressions : List Expression → List Expression
  | [] => []
  | e :: rest => e.infer :: inferExpressions rest

/-- A statement with types for all expressions in it. -/
def Statement.infer : Statement → Statement
  | ⟨node, span⟩ => ⟨node.infer, span⟩

def StatementNode.infer : StatementNode → StatementNode
  | .block statements declared => .block (inferStatements statements) declared
  | .expression value => .expression value.infer
  | .ret value => .ret value.infer
  | .assertion condition message => .assertion condition.infer message.infer
  | .loop binding collection body => .loop binding collection.infer body.infer
  | .whileLoop condition body => .whileLoop condition.infer body.infer
  | .doWhile body condition => .doWhile body.infer condition.infer
  | .branch condition whenTrue whenFalse =>
    .branch condition.infer whenTrue.infer whenFalse.infer
  | .tryCatch body catches finallyBlock =>
    .tryCatch body.infer (inferCatches catches) finallyBlock.infer
  | .switch subject cases defaultBlock =>
    .switch subject.infer (inferCases cases) defaultBlock.infer
  | .breakLoop => .breakLoop
  | .continueLoop => .continueLoop
  | .synchronized lock code => .synchronized lock.infer code.infer
  | .throw value => .throw value.infer
  | .empty => .empty

def inferStatements : List Statement → List Statement
  | [] => []
  | s :: rest => s.infer :: inferStatements rest

def CatchClause.infer : CatchClause → CatchClause
  | ⟨binding, code, span⟩ => ⟨binding, code.infer, span⟩

def inferCatches : List CatchClause → List CatchClause
  | [] => []
  | c :: rest => c.infer :: inferCatches rest

def CaseClause.infer : CaseClause → CaseClause
  | ⟨subject, code, span⟩ => ⟨subject.infer, code.infer, span⟩

def inferCases : List CaseClause → List CaseClause
  | [] => []
  | c :: rest => c.infer :: inferCases rest

end

/-! ### Modules -/

/-- A class with types for the initial values of fields and the code of its members; default
values of parameters are left alone. -/
def CompiledClass.infer (c : CompiledClass) : CompiledClass :=
  { c with
    fields := c.fields.map fun f => { f with initial := f.initial.map Expression.infer }
    constructors := c.constructors.map fun k => { k with code := k.code.map Statement.infer }
    methods := c.methods.map fun m => { m with code := m.code.map Statement.infer } }

def CompiledModule.infer (m : CompiledModule) : CompiledModule :=
  { m with classes := m.classes.map CompiledClass.infer }

end ScriptOutline
