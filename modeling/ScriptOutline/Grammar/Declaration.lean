/-
ScriptOutline/Grammar/Declaration.lean

Methods, fields, classes and whole scripts.  Annotations and modifiers come first; what
follows tells the declarations apart.  A script is a sequence of classes, methods and
statements in any order, and a piece of it is read as a class if possible, else as a method,
else as a statement.  `Script.parse` reads a source from its first to its last character.
-/
import ScriptOutline.Code.Declaration
import ScriptOutline.Grammar.Statement

namespace ScriptOutline.Grammar

open ScriptOutline.Grammar.Parser

/-! ### Modifiers and annotations -/

/-- What one modifier changes. -/
def modifier : Parser (Modifiers → Modifiers) :=
  firstOf (do keyword "public"; pure fun m => { m with visibility := some .everyone })
    [do keyword "protected"; pure fun m => { m with visibility := some .heirs },
      do keyword "private"; pure fun m => { m with visibility := some .owner },
      do keyword "static"; pure fun m => { m with isStatic := true },
      do keyword "final"; pure fun m => { m with isFinal := true },
      do keyword "abstract"; pure fun m => { m with isAbstract := true },
      do keyword "synchronized"; pure fun m => { m with isSynchronized := true }]

/-- Modifiers in any order; of several visibilities the last one counts. -/
def modifiers : Parser Modifiers := do
  let changes ← many modifier
  pure (changes.foldl (fun m change => change m) {})

/-- A member `key = value`, or a value alone for the key `value`. -/
def annotationMember (g : Inner) : Parser (String × Expression) :=
  orElse
    (do
      let name ← identifier
      symbol "="
      let value ← expression g
      pure (name, value))
    (do
      let value ← expression g
      pure ("value", value))

/-- An annotation, `@Name` or `@Name(members)`. -/
def annotationUse (g : Inner) : Parser Annotation := do
  let ((type, members), span) ← spanned do
    symbol "@"
    let type ← classType g
    let members ← optional
      (between "(" (separated (annotationMember g) (symbol ",") .refused) ")")
    pure (type, members.getD [])
  pure ⟨type, members, span⟩

/-! ### Members -/

def parameters (g : Inner) : Parser (List Parameter) :=
  between "(" (separated (parameter g) (symbol ",") .refused) ")"

/-- A method: `[annotations] [modifiers] (def | Type) name(parameters) [{ .. }]`. -/
def method (g : Inner) : Parser Method := do
  let (method, span) ← spanned do
    let annotations ← many (annotationUse g)
    let modifiers ← modifiers
    let returnType ← declaredType g
    let name ← identifier
    let parameters ← parameters g
    let code ← orElse (some <$> block (statement g)) (do optionalSymbol ";"; pure none)
    pure { name, modifiers, returnType, parameters, annotations, code, variableScope := none,
           synthetic := false, span := .unwritten : Method }
  pure { method with span }

/-- A constructor: `[annotations] [modifiers] Name(parameters) { .. }`. -/
def constructor (g : Inner) : Parser Member := do
  let ((name, constructor), span) ← spanned do
    let annotations ← many (annotationUse g)
    let modifiers ← modifiers
    let name ← identifier
    let parameters ← parameters g
    let code ← block (statement g)
    pure (name, { modifiers, parameters, annotations, code := some code, synthetic := false,
                  span := .unwritten : Constructor })
  pure (.constructor name { constructor with span })

/-- A declaration `[annotations] [modifiers] (def | Type) name [= value]`: a field if it has a
visibility, else a property. -/
def field (g : Inner) : Parser Member := do
  let (field, span) ← spanned do
    let annotations ← many (annotationUse g)
    let modifiers ← modifiers
    let type ← declaredType g
    let name ← identifier
    let initial ← optional (do symbol "="; expression g)
    pure { name, modifiers, type, annotations, initial, owner := "", span := .unwritten : Field }
  let field := { field with span }
  if field.modifiers.visibility.isSome then pure (.field field) else pure (.property field)

def member (g : Inner) : Parser Member := do
  let member ← orElse (orElse (Member.method <$> method g) (constructor g)) (field g)
  optionalSymbol ";"
  pure member

/-! ### Classes and scripts -/

/-- A class: `[annotations] [modifiers] class Name [extends T] [implements T, ..] { members }`. -/
def classDeclaration (g : Inner) : Parser ClassDeclaration := do
  let (declaration, span) ← spanned do
    let annotations ← many (annotationUse g)
    let modifiers ← modifiers
    keyword "class"
    let name ← identifier
    let superClass ← optional (do keyword "extends"; classType g)
    let interfaces ← optional
      (do keyword "implements"; separated1 (classType g) (symbol ",") .refused)
    let members ← between "\x7b" (many (member g)) "\x7d"
    pure { name, modifiers, superClass, interfaces := interfaces.getD [], annotations, members,
           span := .unwritten : ClassDeclaration }
  pure { declaration with span }

/-- A piece of a script. -/
inductive Item where
  | classDeclaration (declaration : ClassDeclaration)
  | method (method : Method)
  | statement (statement : Statement)

def item (g : Inner) : Parser Item :=
  orElse (orElse (Item.classDeclaration <$> classDeclaration g) (Item.method <$> method g))
    (Item.statement <$> statement g)

/-- Adds a piece in front of a script. -/
def Item.addTo (script : Script) : Item → Script
  | .classDeclaration c => { script with classes := c :: script.classes }
  | .method m => { script with methods := m :: script.methods }
  | .statement s => { script with statements := s :: script.statements }

/-- The script of the given pieces. -/
def scriptOf (items : List Item) : Script :=
  items.foldr (fun item script => item.addTo script) ⟨[], [], []⟩

/-- A whole source. -/
def script (g : Inner) : Parser Script := do
  blanks
  let items ← many (item g)
  endOfInput
  pure (scriptOf items)

end ScriptOutline.Grammar

namespace ScriptOutline

/-- Reads a source.  It nests no deeper than it is long. -/
def Script.parse (source : String) : Except Grammar.Fault Script :=
  let cs := source.toList
  match Grammar.script (Grammar.level (cs.length + 1)) (.start cs) with
  | .done script _ _ => .ok script
  | .fail fault => .error fault

end ScriptOutline
