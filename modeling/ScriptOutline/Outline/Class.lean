/-
ScriptOutline/Outline/Class.lean

Outlines of classes, and of the top-level statements of a module.  Below a class stand its
members by category, categories without members being left out.
-/
import ScriptOutline.Outline.Code

namespace ScriptOutline

/-- The outline of code that may be missing. -/
def codeOutline (labels : LabelMapping) : Option Statement → List Outline
  | none => []
  | some code => code.outline labels

/-- The outline of an initial value that may be missing. -/
def initialOutline (labels : LabelMapping) : Option Expression → List Outline
  | none => []
  | some value => value.outline labels

def Constructor.outline (labels : LabelMapping) (c : Constructor) : Outline :=
  .ofNode labels .constructorNode c.rows (codeOutline labels c.code)

def Method.outline (labels : LabelMapping) (m : Method) : Outline :=
  .ofNode labels .methodNode m.rows (codeOutline labels m.code)

def Field.outline (labels : LabelMapping) (f : Field) : Outline :=
  .ofNode labels .fieldNode f.rows (initialOutline labels f.initial)

/-- A property is shown with the initial value of its field. -/
def Property.outline (labels : LabelMapping) (c : CompiledClass) (p : Property) : Outline :=
  .ofNode labels .propertyNode p.rows
    (initialOutline labels ((c.propertyField p).bind Field.initial))

def Annotation.outline (labels : LabelMapping) (a : Annotation) : Outline :=
  .ofNode labels .annotationNode a.rows []

/-- A category of members, unless it has none. -/
def categoryOutline (name : String) (members : List Outline) : List Outline :=
  if members.isEmpty then [] else [.ofLabel name members]

/-- The outline of a class. -/
def CompiledClass.outline (labels : LabelMapping) (c : CompiledClass) : Outline :=
  .ofNode labels .classNode c.rows
    (categoryOutline "Constructors" (c.constructors.map (·.outline labels)) ++
      categoryOutline "Methods" (c.methods.map (·.outline labels)) ++
      categoryOutline "Fields" (c.fields.map (·.outline labels)) ++
      categoryOutline "Properties" (c.properties.map (·.outline labels c)) ++
      categoryOutline "Annotations" (c.annotations.map (·.outline labels)))

/-- The block of the top-level statements, unless it is empty. -/
def CompiledModule.topLevelOutline (labels : LabelMapping) (m : CompiledModule) :
    List Outline :=
  match m.statementBlock with
  | some ⟨.block (s :: rest) declared, span⟩ =>
    Statement.outline labels ⟨.block (s :: rest) declared, span⟩
  | _ => []

end ScriptOutline
