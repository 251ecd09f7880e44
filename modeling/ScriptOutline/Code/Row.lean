/-
ScriptOutline/Code/Row.lean

The property rows of every node.  A row has a name, the name of a type and a value; a value
that no phase has found yet is missing.  Rows stand in the order in which they are declared
here.
-/
import ScriptOutline.Code.Kind
import ScriptOutline.Code.Text

namespace ScriptOutline

/-- One row of a property table. -/
structure Row where
  name : String
  type : String
  value : Option String
  deriving DecidableEq, Repr

namespace Row

/-- A row of type `String`. -/
def ofString (name value : String) : Row := ⟨name, "String", some value⟩

/-- A row of type `boolean`. -/
def ofBool (name : String) (value : Bool) : Row :=
  ⟨name, "boolean", some (if value then "true" else "false")⟩

/-- A row of type `int`. -/
def ofNat (name : String) (value : Nat) : Row := ⟨name, "int", some (toString value)⟩

/-- A row that names a class. -/
def ofType (name : String) (type : TypeRef) : Row := ⟨name, "ClassNode", some type.text⟩

/-- The row of a span. -/
def ofSpan (span : Span) : Row := ⟨"span", "Range", some span.text⟩

end Row

/-! ### Expressions -/

/-- The rows that only some kinds of expressions have. -/
def ExpressionNode.rows : ExpressionNode → List Row
  | .call _ method _ safe implicitReceiver =>
    [.ofString "method" method, .ofBool "safe" safe, .ofBool "implicit_this" implicitReceiver]
  | .staticCall owner method _ => [.ofType "owner_type" owner, .ofString "method" method]
  | .construct target _ special =>
    [.ofType "type" target, ⟨"resolved_type", "String", target.resolved⟩,
      ⟨"special_call", "String", special.map SpecialCall.word⟩]
  | .binary _ operation _ => [⟨"operation", "Token", some operation⟩]
  | .declaration .. => [⟨"operation", "Token", some "="⟩]
  | .step _ operation _ => [⟨"operation", "Token", some operation⟩]
  | .closure parameters _ => [⟨"parameters", "Parameter[]", parameters.map parameterList⟩]
  | .sequence _ items => [.ofNat "size" items.length]
  | .array elementType _ sizes =>
    [.ofType "element_type" elementType, .ofBool "dynamic" !sizes.isEmpty]
  | .range _ _ inclusive => [.ofBool "inclusive" inclusive]
  | .methodPointer _ method => [.ofString "method_name" method]
  | .cast target _ coerce =>
    [.ofType "type" target, ⟨"resolved_type", "String", target.resolved⟩,
      .ofBool "coerce" coerce]
  | .constant value =>
    [⟨"value", "Object", some value.text⟩, ⟨"constant_type", "ClassNode", some value.typeName⟩]
  | .classRef type => [.ofType "type" type, ⟨"resolved_type", "String", type.resolved⟩]
  | .variableRef name declared origin =>
    [.ofString "name" name, ⟨"declared_type", "ClassNode", declared.map TypeRef.text⟩,
      ⟨"origin", "Variable", origin.map Origin.word⟩]
  | .access _ name accessor =>
    [.ofString "property" name, .ofBool "safe" (accessor = .safe),
      .ofBool "spread_safe" (accessor = .spread)]
  | .field name owner => [.ofString "field_name" name, ⟨"owner", "ClassNode", some owner⟩]
  | .interpolation fragments values =>
    [.ofString "verbatim_text" (interpolationText fragments values),
      .ofNat "value_count" values.length]
  | .bytecode instructions =>
    [.ofNat "instruction_count" instructions.length,
      .ofString "instructions" (joinWith "; " instructions)]
  | .ternary .. | .elvis .. | .wrap .. | .mapEntry .. | .empty => []

/-- The rows of an expression. -/
def Expression.rows (e : Expression) : List Row :=
  .ofString "text" e.text :: ⟨"inferred_type", "ClassNode", e.inferred⟩ :: .ofSpan e.span ::
    e.node.rows

/-! ### Statements -/

/-- The expression is the literal `null`. -/
def Expression.isNull (e : Expression) : Bool :=
  match e.node with
  | .constant .null => true
  | _ => false

/-- The rows that only some kinds of statements have. -/
def StatementNode.rows : StatementNode → List Row
  | .block statements declared =>
    [.ofNat "statement_count" statements.length,
      ⟨"declared_variables", "VariableScope", declared.map (joinWith ", ")⟩]
  | .expression value => [.ofString "expression_kind" value.kind.simpleName]
  | .ret value => [.ofBool "return_null" value.isNull]
  | .loop binding _ _ =>
    [⟨"variable", "Parameter", binding.map Binding.name⟩,
      ⟨"variable_type", "ClassNode", binding.map (·.type.text)⟩]
  | .tryCatch _ catches finallyBlock =>
    [.ofNat "catch_count" catches.length, .ofBool "has_finally" !finallyBlock.isEmpty]
  | .switch _ cases defaultBlock =>
    [.ofNat "case_count" cases.length, .ofBool "has_default" !defaultBlock.isEmpty]
  | .branch _ _ whenFalse => [.ofBool "has_else" !whenFalse.isEmpty]
  | .assertion .. | .whileLoop .. | .doWhile .. | .synchronized .. | .throw .. | .breakLoop
  | .continueLoop | .empty => []

/-- The rows of a statement. -/
def Statement.rows (s : Statement) : List Row :=
  .ofString "text" s.text :: .ofSpan s.span :: s.node.rows

/-- The rows of a catch clause. -/
def CatchClause.rows (c : CatchClause) : List Row :=
  [.ofString "text" c.text, .ofType "exception_type" c.binding.type,
    ⟨"variable", "Parameter", some c.binding.name⟩, .ofSpan c.span]

/-- The rows of a case clause. -/
def CaseClause.rows (c : CaseClause) : List Row :=
  [.ofString "text" c.text, ⟨"expression", "Expression", some c.subject.text⟩, .ofSpan c.span]

/-! ### Declarations -/

def CompiledClass.rows (c : CompiledClass) : List Row :=
  [.ofString "name" c.name, .ofString "modifiers" c.modifiers.text,
    .ofType "super_class" c.superClass,
    ⟨"interfaces", "ClassNode[]", some (typeList c.interfaces)⟩,
    .ofBool "script" c.isScript, .ofBool "generated" c.generated, .ofSpan c.span]

def Constructor.rows (c : Constructor) : List Row :=
  [.ofString "name" "<init>", .ofString "modifiers" c.modifiers.text,
    ⟨"parameters", "Parameter[]", some (parameterList c.parameters)⟩,
    .ofBool "synthetic" c.synthetic, .ofBool "has_code" c.code.isSome, .ofSpan c.span]

def Method.rows (m : Method) : List Row :=
  [.ofString "name" m.name, .ofString "modifiers" m.modifiers.text,
    .ofType "return_type" m.returnType,
    ⟨"parameters", "Parameter[]", some (parameterList m.parameters)⟩,
    ⟨"variable_scope", "VariableScope", m.variableScope.map (joinWith ", ")⟩,
    .ofBool "synthetic" m.synthetic, .ofBool "abstract" m.code.isNone, .ofSpan m.span]

def Field.rows (f : Field) : List Row :=
  [.ofString "name" f.name, .ofString "modifiers" f.modifiers.text, .ofType "type" f.type,
    ⟨"owner", "ClassNode", some f.owner⟩,
    ⟨"initial_expression", "Expression", f.initial.map Expression.text⟩, .ofSpan f.span]

def Property.rows (p : Property) : List Row :=
  [.ofString "name" p.name, .ofString "modifiers" p.modifiers.text, .ofType "type" p.type,
    ⟨"getter_name", "String", p.getterName⟩, ⟨"setter_name", "String", p.setterName⟩,
    .ofSpan p.span]

def Annotation.rows (a : Annotation) : List Row :=
  [.ofType "class_name" a.type, ⟨"resolved", "String", a.type.resolved⟩,
    ⟨"members", "Map", some a.memberText⟩, .ofSpan a.span]

end ScriptOutline
