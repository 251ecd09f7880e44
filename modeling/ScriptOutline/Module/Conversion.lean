/-
ScriptOutline/Module/Conversion.lean

From a script to a module of classes.  Top-level statements and methods become a class of
their own, the script class: its method `run` holds the statements, and its method `main`
runs it.  In declared classes the members are sorted by category, and each property gets a
private field for its value.  A class must not declare a field twice nor a constructor under
another name, and no two classes may share a name.
-/
import ScriptOutline.Code.Declaration
import ScriptOutline.Module.Failure
import ScriptOutline.Text.CamelCase

namespace ScriptOutline

/-! ### The script class -/

/-- The name of the script class: the unit's name in camel case, made to start with a
letter. -/
def scriptClassName (unitName : String) : String :=
  let name := CamelCase.upperCamel unitName
  match name.toList with
  | [] => "Script"
  | c :: _ => if c.isDigit then "Script" ++ name else name

/-- The method `static void main(String[] args) { InvokerHelper.runScript(Name, args) }`. -/
def mainMethod (className : String) : Method :=
  .generated "main" { Modifiers.ofPublic with isStatic := true } (.named "void")
    [⟨"args", (TypeRef.named "String").withDimensions 1, none⟩]
    (.block [.ofExpression (.unwritten (.staticCall (.named "InvokerHelper") "runScript"
      (.unwritten (.sequence .arguments
        [.unwritten (.classRef (.named className)), .ofName "args"]))))])

/-- The method `run` with the top-level statements. -/
def runMethod (statements : List Statement) : Method :=
  .generated "run" .ofPublic .dynamic [] (.block statements)

/-- A constructor that was not written. -/
def Constructor.generated (parameters : List Parameter) (statements : List Statement) :
    Constructor :=
  { modifiers := .ofPublic, parameters, annotations := [], code := some (.block statements),
    synthetic := true, span := .unwritten }

/-- A constructor without parameters, and one that hands a binding to the super class. -/
def scriptConstructors : List Constructor :=
  [.generated [] [],
    .generated [⟨"context", .named "Binding", none⟩]
      [.ofExpression (.unwritten (.construct (.named "Script")
        (.unwritten (.sequence .arguments [.ofName "context"])) (some .inherited)))]]

/-- The script class. -/
def scriptClass (name : String) (statements : List Statement) (methods : List Method) :
    CompiledClass :=
  { name, modifiers := .ofPublic, superClass := .named "Script", interfaces := [],
    annotations := [], constructors := scriptConstructors,
    methods := mainMethod name :: runMethod statements :: methods,
    fields := [], properties := [], isScript := true, generated := false, span := .unwritten }

/-! ### Declared classes -/

/-- The members of a class by category, each in the order of declaration. -/
structure Members where
  constructors : List Constructor := []
  methods : List Method := []
  fields : List Field := []
  properties : List Property := []

namespace Members

/-- Adds a field, unless there is one of the same name. -/
def addField (className : String) (m : Members) (field : Field) : Except Failure Members :=
  if m.fields.any (·.name == field.name) then
    .error ⟨.duplicateField field.name className, field.span⟩
  else .ok { m with fields := m.fields ++ [field] }

/-- The field that holds the value of a property. -/
def backingField (className : String) (field : Field) : Field :=
  { field with
    modifiers := { Modifiers.ofPrivate with
      isStatic := field.modifiers.isStatic, isFinal := field.modifiers.isFinal }
    owner := className }

/-- The property declared by a member, its value in the field at the given position. -/
def propertyOf (field : Field) (fieldIndex : Nat) : Property :=
  { name := field.name
    modifiers := { Modifiers.ofPublic with
      isStatic := field.modifiers.isStatic, isFinal := field.modifiers.isFinal }
    type := field.type, fieldIndex, getterName := none, setterName := none
    span := field.span }

/-- Adds a member to its category. -/
def add (className : String) (m : Members) : Member → Except Failure Members
  | .field field => m.addField className { field with owner := className }
  | .property field => do
    let added ← m.addField className (backingField className field)
    .ok { added with properties := m.properties ++ [propertyOf field m.fields.length] }
  | .constructor name constructor =>
    if name = className then .ok { m with constructors := m.constructors ++ [constructor] }
    else .error ⟨.misnamedConstructor name className, constructor.span⟩
  | .method method => .ok { m with methods := m.methods ++ [method] }

/-- Adds members one after the other. -/
def addAll (className : String) : Members → List Member → Except Failure Members
  | m, [] => .ok m
  | m, member :: rest => do
    let m ← m.add className member
    m.addAll className rest

end Members

/-- A declared class, its members sorted. -/
def CompiledClass.ofDeclaration (c : ClassDeclaration) : Except Failure CompiledClass := do
  let m ← Members.addAll c.name {} c.members
  .ok { name := c.name, modifiers := c.modifiers, superClass := c.superClass.getD .dynamic,
        interfaces := c.interfaces, annotations := c.annotations,
        constructors := m.constructors, methods := m.methods, fields := m.fields,
        properties := m.properties, isScript := false, generated := false, span := c.span }

/-- Declared classes, up to the first that cannot be converted. -/
def convertClasses : List ClassDeclaration → Except Failure (List CompiledClass)
  | [] => .ok []
  | c :: rest => do
    let c ← CompiledClass.ofDeclaration c
    let rest ← convertClasses rest
    .ok (c :: rest)

/-! ### Modules -/

/-- The first class whose name is one of `seen` or of an earlier class. -/
def firstDuplicate? (seen : List String) : List CompiledClass → Option CompiledClass
  | [] => none
  | c :: rest => if c.name ∈ seen then some c else firstDuplicate? (c.name :: seen) rest

/-- The script class, if the script has top-level code or no class. -/
def scriptClasses (unitName : String) (s : Script) : List CompiledClass :=
  if s.statements.isEmpty && s.methods.isEmpty && !s.classes.isEmpty then []
  else [scriptClass (scriptClassName unitName) s.statements s.methods]

/-- The module of a script. -/
def CompiledModule.ofScript (unitName : String) (s : Script) :
    Except Failure CompiledModule := do
  let declared ← convertClasses s.classes
  let classes := scriptClasses unitName s ++ declared
  match firstDuplicate? [] classes with
  | some c => .error ⟨.duplicateClass c.name, c.span⟩
  | none => .ok ⟨unitName, classes⟩

end ScriptOutline
