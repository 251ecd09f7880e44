/-
ScriptOutline/Code/Text.lean

The text of code, close to how it could be written: operators in full brackets, statements
on one line, and a closure without the braces of its block.  The text of a list of things is
the list of their texts, joined; the lemmas `expressionTexts_eq_map`, `statementTexts_eq_map`
and `parameterTexts_eq_map` say so.
-/
import ScriptOutline.Code.Declaration
import ScriptOutline.Number.Shortest

namespace ScriptOutline

/-- The text of a literal value, without quotes. -/
def Constant.text : Constant → String
  | .null => "null"
  | .bool b => if b then "true" else "false"
  | .integer n => toString n
  | .decimal d => d.text
  | .string s => s

/-- What stands between the object and the name of a member. -/
def Accessor.symbol : Accessor → String
  | .plain => "."
  | .safe => "?."
  | .spread => "*."
  | .attribute => ".@"

/-- Text in braces, a blank on either side. -/
def braced (text : String) : String := "\x7b " ++ text ++ " \x7d"

/-- Text in round brackets. -/
def bracketed (text : String) : String := "(" ++ text ++ ")"

/-- Text in square brackets. -/
def listed (text : String) : String := "[" ++ text ++ "]"

/-- The texts of the items of a list in a given role. -/
def Sequence.enclose (form : Sequence) (items : List String) : String :=
  match form with
  | .tuple | .arguments => bracketed (joinWith ", " items)
  | .list => listed (joinWith ", " items)
  | .clauses => bracketed (joinWith "; " items)
  | .map | .namedArguments => if items = [] then "[:]" else listed (joinWith ", " items)

/-- An operand in a given role. -/
def Wrapper.enclose (wrapper : Wrapper) (operand : String) : String :=
  match wrapper with
  | .boolean => operand
  | .not => "!" ++ bracketed operand
  | .spread => "*" ++ operand
  | .spreadMap => "*:" ++ operand
  | .minus => "-" ++ bracketed operand
  | .plus => "+" ++ bracketed operand
  | .complement => "~" ++ bracketed operand
  | .regex => "~/" ++ operand ++ "/"

/-- Literal fragments with the values between them, each value as `${value}`. -/
def interpolate : List String → List String → String
  | [], _ => ""
  | fragment :: fragments, [] => fragment ++ interpolate fragments []
  | fragment :: fragments, value :: values =>
    fragment ++ "$\x7b" ++ value ++ "\x7d" ++ interpolate fragments values

/-- A statement's text after a word, or nothing for a missing statement. -/
def after (word : String) (s : Statement) (text : String) : String :=
  if s.isEmpty then "" else word ++ text

mutual

def Expression.text : Expression → String
  | ⟨node, _, _⟩ => node.text

def ExpressionNode.text : ExpressionNode → String
  | .call object method arguments safe _ =>
    object.text ++ (if safe then "?." else ".") ++ method ++ arguments.text
  | .staticCall owner method arguments => owner.text ++ "." ++ method ++ arguments.text
  | .construct target arguments none => "new " ++ target.text ++ arguments.text
  | .construct _ arguments (some special) => special.word ++ arguments.text
  | .binary left operation right =>
    if operation = "[" then left.text ++ listed right.text
    else bracketed (left.text ++ " " ++ operation ++ " " ++ right.text)
  | .declaration target value =>
    (match target.node with
      | .variableRef _ (some type) _ => type.text
      | _ => "def") ++ " " ++ target.text ++
    (match value.node with
      | .empty => ""
      | _ => " = " ++ value.text)
  | .ternary condition whenTrue whenFalse =>
    bracketed condition.text ++ " ? " ++ whenTrue.text ++ " : " ++ whenFalse.text
  | .elvis _ value otherwise => value.text ++ " ?: " ++ otherwise.text
  | .step .before operation operand => bracketed (operation ++ operand.text)
  | .step .after operation operand => bracketed (operand.text ++ operation)
  | .wrap wrapper operand => wrapper.enclose operand.text
  | .closure parameters code =>
    braced (closureHead parameters ++
      match code with
      | ⟨.block statements _, _⟩ => joinWith "; " (statementTexts statements)
      | ⟨node, _⟩ => node.text)
  | .sequence form items => form.enclose (expressionTexts items)
  | .array elementType elements sizes =>
    match expressionTexts sizes with
    | [] => listed (joinWith ", " (expressionTexts elements)) ++ " as " ++ elementType.text ++ "[]"
    | size :: others => "new " ++ elementType.text ++
        joinWith "" ((size :: others).map listed)
  | .mapEntry key value => key.text ++ ":" ++ value.text
  | .range first last inclusive =>
    bracketed (first.text ++ (if inclusive then ".." else "..<") ++ last.text)
  | .methodPointer object method => object.text ++ ".&" ++ method
  | .cast target operand coerce =>
    if coerce then operand.text ++ " as " ++ target.text
    else bracketed target.text ++ " " ++ operand.text
  | .constant value => value.text
  | .classRef type => type.text
  | .variableRef name _ _ => name
  | .access object name accessor => object.text ++ accessor.symbol ++ name
  | .field name _ => "this.@" ++ name
  | .interpolation fragments values =>
    "\"" ++ interpolate (expressionTexts fragments) (expressionTexts values) ++ "\""
  | .bytecode instructions =>
    "<bytecode sequence: " ++ toString instructions.length ++ " instructions>"
  | .empty => ""

def closureHead : Option (List Parameter) → String
  | none => ""
  | some parameters => joinWith ", " (parameterTexts parameters) ++ " -> "

def Parameter.text : Parameter → String
  | ⟨name, type, none⟩ => type.text ++ " " ++ name
  | ⟨name, type, some value⟩ => type.text ++ " " ++ name ++ " = " ++ value.text

def Statement.text : Statement → String
  | ⟨node, _⟩ => node.text

def StatementNode.text : StatementNode → String
  | .block statements _ =>
    match statementTexts statements with
    | [] => "\x7b \x7d"
    | texts => braced (joinWith "; " texts)
  | .expression value => value.text
  | .ret value => "return " ++ value.text
  | .assertion condition message => "assert " ++ condition.text ++ " : " ++ message.text
  | .loop (some binding) collection body =>
    "for (" ++ binding.name ++ " in " ++ collection.text ++ ") " ++ body.text
  | .loop none collection body => "for " ++ collection.text ++ " " ++ body.text
  | .whileLoop condition body => "while (" ++ condition.text ++ ") " ++ body.text
  | .doWhile body condition => "do " ++ body.text ++ " while (" ++ condition.text ++ ")"
  | .branch condition whenTrue whenFalse =>
    "if (" ++ condition.text ++ ") " ++ whenTrue.text ++
      after " else " whenFalse whenFalse.text
  | .tryCatch body catches finallyBlock =>
    "try " ++ body.text ++ joinWith "" ((catchTexts catches).map (" " ++ ·)) ++
      after " finally " finallyBlock finallyBlock.text
  | .switch subject cases defaultBlock =>
    "switch (" ++ subject.text ++ ") \x7b " ++ joinWith "" ((caseTexts cases).map (· ++ " ")) ++
      after "default: " defaultBlock (defaultBlock.text ++ " ") ++ "\x7d"
  | .breakLoop => "break"
  | .continueLoop => "continue"
  | .synchronized lock code => "synchronized (" ++ lock.text ++ ") " ++ code.text
  | .throw value => "throw " ++ value.text
  | .empty => ""

def CatchClause.text : CatchClause → String
  | ⟨binding, code, _⟩ =>
    "catch (" ++ binding.type.text ++ " " ++ binding.name ++ ") " ++ code.text

def CaseClause.text : CaseClause → String
  | ⟨subject, code, _⟩ => "case " ++ subject.text ++ ": " ++ code.text

def expressionTexts : List Expression → List String
  | [] => []
  | e :: rest => e.text :: expressionTexts rest

def parameterTexts : List Parameter → List String
  | [] => []
  | p :: rest => p.text :: parameterTexts rest

def statementTexts : List Statement → List String
  | [] => []
  | s :: rest => s.text :: statementTexts rest

def catchTexts : List CatchClause → List String
  | [] => []
  | c :: rest => c.text :: catchTexts rest

def caseTexts : List CaseClause → List String
  | [] => []
  | c :: rest => c.text :: caseTexts rest

end

theorem expressionTexts_eq_map (es : List Expression) :
    expressionTexts es = es.map Expression.text := by
  induction es with
  | nil => rfl
  | cons e es ih => simp [expressionTexts, ih]

theorem parameterTexts_eq_map (ps : List Parameter) :
    parameterTexts ps = ps.map Parameter.text := by
  induction ps with
  | nil => rfl
  | cons p ps ih => simp [parameterTexts, ih]

theorem statementTexts_eq_map (ss : List Statement) :
    statementTexts ss = ss.map Statement.text := by
  induction ss with
  | nil => rfl
  | cons s ss ih => simp [statementTexts, ih]

/-- The text of a list of parameters: `(int a, Object b = 1)`. -/
def parameterList (parameters : List Parameter) : String :=
  bracketed (joinWith ", " (parameters.map Parameter.text))

/-- The text of the members of an annotation: `value: 1, name: x`. -/
def Annotation.memberText (a : Annotation) : String :=
  joinWith ", " (a.members.map fun (name, value) => name ++ ": " ++ value.text)

/-- The fragments and values of an interpolated text, without its quotes. -/
def interpolationText (fragments values : List Expression) : String :=
  interpolate (fragments.map Expression.text) (values.map Expression.text)

end ScriptOutline
