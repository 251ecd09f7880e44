/-
ScriptOutline/Code/Declaration.lean

Declarations.  A `Script` is a source as it is read: top-level statements, methods and
classes, the members of a class in the order they were written.  A `CompiledModule` is what
compilation works on: classes only, with members sorted into constructors, methods, fields
and properties; the value of a property lives in a field of the same class.
-/
import ScriptOutline.Code.Tree

namespace ScriptOutline

/-! ### Members -/

/-- An annotation: `@Name(member = value)`. -/
structure Annotation where
  type : TypeRef
  members : List (String × Expression)
  span : Span

structure Constructor where
  modifiers : Modifiers
  parameters : List Parameter
  annotations : List Annotation
  code : Option Statement
  synthetic : Bool
  span : Span

structure Method where
  name : String
  modifiers : Modifiers
  returnType : TypeRef
  parameters : List Parameter
  annotations : List Annotation
  /-- An abstract method has no code. -/
  code : Option Statement
  /-- Parameters and local variables, once they are known. -/
  variableScope : Option (List String)
  synthetic : Bool
  span : Span

/-- A method that was not written. -/
def Method.generated (name : String) (modifiers : Modifiers) (returnType : TypeRef)
    (parameters : List Parameter) (code : Statement) : Method :=
  { name, modifiers, returnType, parameters, annotations := [], code := some code,
    variableScope := none, synthetic := true, span := .unwritten }

/-- The name and the number of parameters are those given. -/
def Method.hasSignature (m : Method) (name : String) (arity : Nat) : Bool :=
  m.name == name && m.parameters.length == arity

structure Field where
  name : String
  modifiers : Modifiers
  type : TypeRef
  annotations : List Annotation
  initial : Option Expression
  /-- The declaring class, once the field belongs to one. -/
  owner : String
  span : Span

structure Property where
  name : String
  modifiers : Modifiers
  type : TypeRef
  /-- The position of the backing field among the fields of the class. -/
  fieldIndex : Nat
  /-- The accessors, once they are known to exist. -/
  getterName : Option String
  setterName : Option String
  span : Span

/-! ### Sources as read -/

inductive Member where
  /-- Declared with a visibility. -/
  | field (field : Field)
  /-- Declared without a visibility. -/
  | property (field : Field)
  /-- The name may not yet be that of the class. -/
  | constructor (name : String) (constructor : Constructor)
  | method (method : Method)

structure ClassDeclaration where
  name : String
  modifiers : Modifiers
  superClass : Option TypeRef
  interfaces : List TypeRef
  annotations : List Annotation
  members : List Member
  span : Span

/-- A source as it is read. -/
structure Script where
  statements : List Statement
  methods : List Method
  classes : List ClassDeclaration

/-! ### Compiled modules -/

structure CompiledClass where
  name : String
  modifiers : Modifiers
  superClass : TypeRef
  interfaces : List TypeRef
  annotations : List Annotation
  constructors : List Constructor
  methods : List Method
  fields : List Field
  properties : List Property
  /-- The class that holds the top-level statements and methods. -/
  isScript : Bool
  /-- Its last members have been generated. -/
  generated : Bool
  span : Span

namespace CompiledClass

/-- The field that holds the value of a property. -/
def propertyField (c : CompiledClass) (p : Property) : Option Field := c.fields[p.fieldIndex]?

def findField (c : CompiledClass) (name : String) : Option Field :=
  c.fields.find? (·.name == name)

def findProperty (c : CompiledClass) (name : String) : Option Property :=
  c.properties.find? (·.name == name)

def hasMethod (c : CompiledClass) (name : String) (arity : Nat) : Bool :=
  c.methods.any (·.hasSignature name arity)

end CompiledClass

structure CompiledModule where
  name : String
  classes : List CompiledClass

namespace CompiledModule

/-- The class generated for top-level code, if there is one. -/
def scriptClass (m : CompiledModule) : Option CompiledClass := m.classes.find? (·.isScript)

/-- The top-level statements: the body of the script class's method `run`. -/
def statementBlock (m : CompiledModule) : Option Statement := do
  let script ← m.scriptClass
  let run ← script.methods.find? (·.hasSignature "run" 0)
  run.code

end CompiledModule

end ScriptOutline
