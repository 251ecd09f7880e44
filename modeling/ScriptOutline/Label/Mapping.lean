/-
ScriptOutline/Label/Mapping.lean

Which template labels which kind.  A mapping holds at most one template for a name; putting
in another one replaces it, and the order in which templates were put in does not count.
-/
import ScriptOutline.Code.Kind

namespace ScriptOutline

/-- Templates by the qualified names of kinds. -/
structure LabelMapping where
  entries : List (String × String)

namespace LabelMapping

/-- No templates: every label is the simple name of its kind. -/
def empty : LabelMapping := ⟨[]⟩

/-- The template of a name. -/
def template (m : LabelMapping) (name : String) : Option String := m.entries.lookup name

/-- The entries with one more, which replaces any for the same name. -/
def put (name template : String) : List (String × String) → List (String × String)
  | [] => [(name, template)]
  | (n, t) :: rest =>
    if n = name then (name, template) :: rest else (n, t) :: put name template rest

def insert (m : LabelMapping) (name template : String) : LabelMapping :=
  ⟨put name template m.entries⟩

/-- Templates put in one after the other. -/
def insertAll (m : LabelMapping) (entries : List (String × String)) : LabelMapping :=
  entries.foldl (fun m (name, template) => m.insert name template) m

/-- The two mappings hold the same templates. -/
def same (a b : LabelMapping) : Bool :=
  a.entries.length == b.entries.length &&
    a.entries.all fun (name, template) => b.template name == some template

/-- The kinds with a template of their own, and the templates. -/
def defaultTemplates : List (Kind × String) :=
  [(.classNode, "ClassNode - ${name}"),
    (.constructorNode, "ConstructorNode - ${name}(${parameters})"),
    (.methodNode, "MethodNode - ${name}"),
    (.fieldNode, "FieldNode - ${name} : ${type}"),
    (.propertyNode, "PropertyNode - ${name} : ${type}"),
    (.annotationNode, "AnnotationNode - ${class_name}"),
    (.blockStatement, "BlockStatement - (${statement_count})"),
    (.expressionStatement, "ExpressionStatement - ${expression_kind}"),
    (.returnStatement, "ReturnStatement - ${text}"),
    (.forStatement, "ForStatement - ${variable}"),
    (.catchStatement, "CatchStatement - ${variable}"),
    (.methodCallExpression, "MethodCall - ${text}"),
    (.staticMethodCallExpression, "MethodCall - ${text}"),
    (.constructorCallExpression, "ConstructorCall - ${text}"),
    (.binaryExpression, "Binary - ${text}"),
    (.declarationExpression, "Declaration - ${text}"),
    (.ternaryExpression, "Ternary - ${text}"),
    (.elvisOperatorExpression, "ElvisOperator - ${text}"),
    (.postfixExpression, "Postfix - ${operation}"),
    (.prefixExpression, "Prefix - ${operation}"),
    (.booleanExpression, "Boolean - ${text}"),
    (.notExpression, "Not - ${text}"),
    (.closureExpression, "ClosureExpression"),
    (.argumentListExpression, "ArgumentList - ${text}"),
    (.listExpression, "List - ${text}"),
    (.mapExpression, "Map - ${text}"),
    (.mapEntryExpression, "MapEntry - ${text}"),
    (.rangeExpression, "Range - ${text}"),
    (.methodPointerExpression, "MethodPointer - ${text}"),
    (.castExpression, "Casting - ${text}"),
    (.constantExpression, "Constant - ${value} : ${constant_type}"),
    (.classExpression, "Class - ${text}"),
    (.variableExpression, "Variable - ${name} : ${origin}"),
    (.propertyExpression, "Property - ${property}"),
    (.attributeExpression, "Attribute - ${property}"),
    (.fieldExpression, "Field - ${field_name}"),
    (.gStringExpression, "GString - ${text}"),
    (.bytecodeExpression, "Bytecode - (${instruction_count})")]

/-- The templates that are there without being asked for. -/
def defaults : LabelMapping :=
  ⟨defaultTemplates.map fun (kind, template) => (kind.qualifiedName, template)⟩

end LabelMapping

end ScriptOutline
