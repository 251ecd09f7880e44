/-
ScriptOutline/Module/Resolution.lean

What the names of a module refer to.  The code of every class is visited in the order it
runs, with a stack of frames for the names declared so far; each variable gets its origin,
each type the class it stands for, each block and method the list of its names.  Inside
static code, a call of a static method of the same class becomes a static call.  The loops
and switches around the visited code are counted, and start over inside a closure.

The first fault of a class (an unknown class, or a `break` or `continue` outside of what it
could leave) is kept while the rest of the class is still visited; the classes after a
faulty one are not visited at all.
-/
import ScriptOutline.Code.Declaration
import ScriptOutline.Module.Failure
import ScriptOutline.Module.Scope
import ScriptOutline.Module.TypeTable

namespace ScriptOutline

/-! ### The resolver -/

/-- What is known about a class while its code is visited. -/
structure ClassContext where
  /-- The names of all classes of the module. -/
  declared : List String
  name : String
  superClass : String
  fields : List String
  properties : List String
  staticMethods : List String

/-- The context of a class in a module with the given classes. -/
def ClassContext.of (declared : List String) (c : CompiledClass) : ClassContext :=
  { declared, name := c.name, superClass := c.superClass.name
    fields := c.fields.map Field.name
    properties := c.properties.map Property.name
    staticMethods := (c.methods.filter (·.modifiers.isStatic)).map Method.name }

/-- What changes during a visit: the open frames, the local variables of the current member
(the last one first), whether that member is static, the loops and switches that a `break`
or `continue` could leave, and the first fault. -/
structure Progress where
  scope : Scope := []
  locals : List String := []
  inStatic : Bool := false
  loopDepth : Nat := 0
  switchDepth : Nat := 0
  failure : Option Failure := none

/-- A visit. -/
abbrev Visit := StateM Progress

namespace Visit

/-- Opens a frame. -/
def enter : Visit Unit := modify fun p => { p with scope := p.scope.enter }

/-- Closes the innermost frame and answers the names declared in it. -/
def leave : Visit (List String) :=
  modifyGet fun p => (p.scope.innermostNames, { p with scope := p.scope.leave })

/-- Declares a name in the innermost frame. -/
def declare (name : String) (origin : Origin) : Visit Unit :=
  modify fun p => { p with scope := p.scope.declare name origin }

/-- Declares a local variable, which also counts for the member. -/
def declareLocal (name : String) : Visit Unit := do
  declare name .localVariable
  modify fun p => { p with locals := name :: p.locals }

/-- Goes on in a member that is static or not. -/
def enterMember (isStatic : Bool) : Visit Unit := modify fun p => { p with inStatic := isStatic }

/-- A visit inside the body of a loop. -/
def inLoop {α : Type} (visit : Visit α) : Visit α := do
  modify fun p => { p with loopDepth := p.loopDepth + 1 }
  let result ← visit
  modify fun p => { p with loopDepth := p.loopDepth - 1 }
  pure result

/-- A visit inside a switch. -/
def inSwitch {α : Type} (visit : Visit α) : Visit α := do
  modify fun p => { p with switchDepth := p.switchDepth + 1 }
  let result ← visit
  modify fun p => { p with switchDepth := p.switchDepth - 1 }
  pure result

/-- A visit inside the code of a closure: loops and switches around it cannot be left from
inside. -/
def inClosure {α : Type} (visit : Visit α) : Visit α := do
  let outside ← get
  modify fun p => { p with loopDepth := 0, switchDepth := 0 }
  let result ← visit
  modify fun p =>
    { p with loopDepth := outside.loopDepth, switchDepth := outside.switchDepth }
  pure result

/-- Reports a fault, unless there is one already. -/
def report (cause : Cause) (span : Span) : Visit Unit :=
  modify fun p => { p with failure := p.failure.or (some ⟨cause, span⟩) }

/-- The type with the class it stands for, which has to be known. -/
def require (declared : List String) (t : TypeRef) (span : Span) : Visit TypeRef := do
  let t := t.resolve declared
  if t.resolved.isNone then report (.unknownClass t.name) span
  pure t

/-- The origin of a name: the receiver, a declaration in some frame, a field that is not a
property, a property, or nothing that is declared. -/
def originOf (k : ClassContext) (name : String) : Visit Origin := do
  if name = "this" ∨ name = "super" then pure .receiver
  else
    match (← get).scope.search name with
    | some origin => pure origin
    | none =>
      if k.fields.contains name && !k.properties.contains name then pure .field
      else if k.properties.contains name then pure .property
      else pure .dynamic

end Visit

open Visit

/-- The called class of a constructor call. -/
def resolveTarget (k : ClassContext) (target : TypeRef) (special : Option SpecialCall)
    (span : Span) : Visit TypeRef :=
  match special with
  | some .own => pure { target with resolved := some k.name }
  | some .inherited => pure ({ target with name := k.superClass }.resolve k.declared)
  | none => require k.declared target span

/-- A method call, as a static call if it calls a static method of the same class from
static code. -/
def resolveCall (k : ClassContext) (inStatic : Bool) (object : Expression) (method : String)
    (arguments : Expression) (safe implicitReceiver : Bool) : ExpressionNode :=
  if inStatic && implicitReceiver && k.staticMethods.contains method then
    .staticCall { TypeRef.named k.name with resolved := some k.name } method arguments
  else .call object method arguments safe implicitReceiver

/-- Declares the parameters of a closure; their default values are left alone. -/
def resolveClosureParameters (k : ClassContext) : List Parameter → Visit (List Parameter)
  | [] => pure []
  | p :: rest => do
    declare p.name .parameter
    let rest ← resolveClosureParameters k rest
    pure ({ p with type := p.type.resolve k.declared } :: rest)

/-- Declares the parameters of a closure, or the implicit one. -/
def resolveClosureHead (k : ClassContext) :
    Option (List Parameter) → Visit (Option (List Parameter))
  | some parameters => some <$> resolveClosureParameters k parameters
  | none => do
    declare "it" .parameter
    pure none

/-- The target of a declaration becomes a local variable. -/
def resolveDeclared (k : ClassContext) (target : Expression) : Visit Expression :=
  match target.node with
  | .variableRef name type _ => do
    declareLocal name
    pure { target with
      node := .variableRef name (type.map (·.resolve k.declared)) (some .localVariable) }
  | _ => pure target

/-- The variable of a loop over a collection. -/
def resolveLoopBinding (k : ClassContext) : Option Binding → Visit (Option Binding)
  | none => pure none
  | some b => do
    declareLocal b.name
    pure (some { b with type := b.type.resolve k.declared })

/-! ### Code -/

mutual

def Expression.resolve (k : ClassContext) : Expression → Visit Expression
  | ⟨node, span, inferred⟩ => do
    let node ← node.resolve k span
    pure ⟨node, span, inferred⟩

def ExpressionNode.resolve (k : ClassContext) (span : Span) :
    ExpressionNode → Visit ExpressionNode
  | .call object method arguments safe implicitReceiver => do
    let object ← object.resolve k
    let arguments ← arguments.resolve k
    pure (resolveCall k (← get).inStatic object method arguments safe implicitReceiver)
  | .staticCall owner method arguments => do
    let arguments ← arguments.resolve k
    pure (.staticCall owner method arguments)
  | .construct target arguments special => do
    let target ← resolveTarget k target special span
    let arguments ← arguments.resolve k
    pure (.construct target arguments special)
  | .binary left operation right => do
    let left ← left.resolve k
    let right ← right.resolve k
    pure (.binary left operation right)
  | .declaration target value => do
    let value ← value.resolve k
    let target ← resolveDeclared k target
    pure (.declaration target value)
  | .ternary condition whenTrue whenFalse => do
    let condition ← condition.resolve k
    let whenTrue ← whenTrue.resolve k
    let whenFalse ← whenFalse.resolve k
    pure (.ternary condition whenTrue whenFalse)
  | .elvis condition value otherwise => do
    let condition ← condition.resolve k
    let value ← value.resolve k
    let otherwise ← otherwise.resolve k
    pure (.elvis condition value otherwise)
  | .step side operation operand => do
    let operand ← operand.resolve k
    pure (.step side operation operand)
  | .wrap wrapper operand => do
    let operand ← operand.resolve k
    pure (.wrap wrapper operand)
  | .closure parameters code => do
    enter
    let parameters ← resolveClosureHead k parameters
    let code ← inClosure (code.resolve k)
    let _ ← leave
    pure (.closure parameters code)
  | .sequence form items => do
    let items ← resolveExpressions k items
    pure (.sequence form items)
  | .array elementType elements sizes => do
    let elementType ← require k.declared elementType span
    let elements ← resolveExpressions k elements
    let sizes ← resolveExpressions k sizes
    pure (.array elementType elements sizes)
  | .mapEntry key value => do
    let key ← key.resolve k
    let value ← value.resolve k
    pure (.mapEntry key value)
  | .range first last inclusive => do
    let first ← first.resolve k
    let last ← last.resolve k
    pure (.range first last inclusive)
  | .methodPointer object method => do
    let object ← object.resolve k
    pure (.methodPointer object method)
  | .cast target operand coerce => do
    let target ← require k.declared target span
    let operand ← operand.resolve k
    pure (.cast target operand coerce)
  | .constant value => pure (.constant value)
  | .classRef type => do
    let type ← require k.declared type span
    pure (.classRef type)
  | .variableRef name declared _ => do
    let origin ← originOf k name
    pure (.variableRef name declared (some origin))
  | .access object name accessor => do
    let object ← object.resolve k
    pure (.access object name accessor)
  | .field name owner => pure (.field name owner)
  | .interpolation fragments values => do
    let fragments ← resolveExpressions k fragments
    let values ← resolveExpressions k values
    pure (.interpolation fragments values)
  | .bytecode instructions => pure (.bytecode instructions)
  | .empty => pure .empty

def resolveExpressions (k : ClassContext) : List Expression → Visit (List Expression)
  | [] => pure []
  | e :: rest => do
    let e ← e.resolve k
    let rest ← resolveExpressions k rest
    pure (e :: rest)

def Statement.resolve (k : ClassContext) : Statement → Visit Statement
  | ⟨node, span⟩ => do
    let node ← node.resolve k span
    pure ⟨node, span⟩

def StatementNode.resolve (k : ClassContext) (span : Span) :
    StatementNode → Visit StatementNode
  | .block statements _ => do
    enter
    let statements ← resolveStatements k statements
    let names ← leave
    pure (.block statements (some names))
  | .expression value => do
    let value ← value.resolve k
    pure (.expression value)
  | .ret value => do
    let value ← value.resolve k
    pure (.ret value)
  | .assertion condition message => do
    let condition ← condition.resolve k
    let message ← message.resolve k
    pure (.assertion condition message)
  | .loop binding collection body => do
    enter
    let collection ← collection.resolve k
    let binding ← resolveLoopBinding k binding
    let body ← inLoop (body.resolve k)
    let _ ← leave
    pure (.loop binding collection body)
  | .whileLoop condition body => do
    let condition ← condition.resolve k
    let body ← inLoop (body.resolve k)
    pure (.whileLoop condition body)
  | .doWhile body condition => do
    let body ← inLoop (body.resolve k)
    let condition ← condition.resolve k
    pure (.doWhile body condition)
  | .branch condition whenTrue whenFalse => do
    let condition ← condition.resolve k
    let whenTrue ← whenTrue.resolve k
    let whenFalse ← whenFalse.resolve k
    pure (.branch condition whenTrue whenFalse)
  | .tryCatch body catches finallyBlock => do
    let body ← body.resolve k
    let catches ← resolveCatches k catches
    let finallyBlock ← finallyBlock.resolve k
    pure (.tryCatch body catches finallyBlock)
  | .switch subject cases defaultBlock => inSwitch do
    let subject ← subject.resolve k
    let cases ← resolveCases k cases
    let defaultBlock ← defaultBlock.resolve k
    pure (.switch subject cases defaultBlock)
  | .breakLoop => do
    let p ← get
    if p.loopDepth = 0 ∧ p.switchDepth = 0 then report .strayBreak span
    pure .breakLoop
  | .continueLoop => do
    if (← get).loopDepth = 0 then report .strayContinue span
    pure .continueLoop
  | .synchronized lock code => do
    let lock ← lock.resolve k
    let code ← code.resolve k
    pure (.synchronized lock code)
  | .throw value => do
    let value ← value.resolve k
    pure (.throw value)
  | .empty => pure .empty

def resolveStatements (k : ClassContext) : List Statement → Visit (List Statement)
  | [] => pure []
  | s :: rest => do
    let s ← s.resolve k
    let rest ← resolveStatements k rest
    pure (s :: rest)

def CatchClause.resolve (k : ClassContext) : CatchClause → Visit CatchClause
  | ⟨binding, code, span⟩ => do
    enter
    declare binding.name .parameter
    let code ← code.resolve k
    let _ ← leave
    pure ⟨{ binding with type := binding.type.resolve k.declared }, code, span⟩

def resolveCatches (k : ClassContext) : List CatchClause → Visit (List CatchClause)
  | [] => pure []
  | c :: rest => do
    let c ← c.resolve k
    let rest ← resolveCatches k rest
    pure (c :: rest)

def CaseClause.resolve (k : ClassContext) : CaseClause → Visit CaseClause
  | ⟨subject, code, span⟩ => do
    let subject ← subject.resolve k
    let code ← code.resolve k
    pure ⟨subject, code, span⟩

def resolveCases (k : ClassContext) : List CaseClause → Visit (List CaseClause)
  | [] => pure []
  | c :: rest => do
    let c ← c.resolve k
    let rest ← resolveCases k rest
    pure (c :: rest)

end

/-! ### Members -/

/-- An expression that may be missing. -/
def resolveOptional (k : ClassContext) : Option Expression → Visit (Option Expression)
  | none => pure none
  | some e => some <$> e.resolve k

/-- Code that may be missing. -/
def resolveCode (k : ClassContext) : Option Statement → Visit (Option Statement)
  | none => pure none
  | some s => some <$> s.resolve k

/-- Parameters of a member: a default value can refer to the parameters before its own. -/
def resolveParameters (k : ClassContext) : List Parameter → Visit (List Parameter)
  | [] => pure []
  | p :: rest => do
    let defaultValue ← resolveOptional k p.defaultValue
    declare p.name .parameter
    let rest ← resolveParameters k rest
    pure ({ p with type := p.type.resolve k.declared, defaultValue } :: rest)

/-- Parameters and code of a member, with the names of its parameters and local variables. -/
def resolveBody (k : ClassContext) (parameters : List Parameter) (code : Option Statement) :
    Visit (List Parameter × Option Statement × List String) := do
  modify fun p => { p with locals := [] }
  enter
  let parameters ← resolveParameters k parameters
  let code ← resolveCode k code
  let _ ← leave
  let locals := (← get).locals.reverse
  pure (parameters, code, parameters.map Parameter.name ++ locals)

def Field.resolve (k : ClassContext) (f : Field) : Visit Field := do
  enterMember f.modifiers.isStatic
  let initial ← resolveOptional k f.initial
  pure { f with type := f.type.resolve k.declared, initial }

def Property.resolve (k : ClassContext) (p : Property) : Property :=
  { p with type := p.type.resolve k.declared }

def Constructor.resolve (k : ClassContext) (c : Constructor) : Visit Constructor := do
  enterMember false
  let (parameters, code, _) ← resolveBody k c.parameters c.code
  pure { c with parameters, code }

def Method.resolve (k : ClassContext) (m : Method) : Visit Method := do
  enterMember m.modifiers.isStatic
  let (parameters, code, names) ← resolveBody k m.parameters m.code
  pure { m with
    returnType := m.returnType.resolve k.declared, parameters, code
    variableScope := some names }

/-- The members of a list, one after the other. -/
def resolveEach {α : Type} (resolve : α → Visit α) : List α → Visit (List α)
  | [] => pure []
  | x :: rest => do
    let x ← resolve x
    let rest ← resolveEach resolve rest
    pure (x :: rest)

def Annotation.resolve (k : ClassContext) (a : Annotation) : Annotation :=
  { a with type := a.type.resolve k.declared }

/-- A class: fields, then constructors, then methods. -/
def CompiledClass.resolve (declared : List String) (c : CompiledClass) :
    Visit CompiledClass := do
  let k := ClassContext.of declared c
  let fields ← resolveEach (Field.resolve k) c.fields
  let constructors ← resolveEach (Constructor.resolve k) c.constructors
  let methods ← resolveEach (Method.resolve k) c.methods
  pure { c with
    superClass := c.superClass.resolve declared
    interfaces := c.interfaces.map (·.resolve declared)
    annotations := c.annotations.map (·.resolve k)
    fields, properties := c.properties.map (·.resolve k), constructors, methods }

/-! ### Modules -/

/-- Classes up to and with the first faulty one; the others stay as they are. -/
def resolveClasses (declared : List String) :
    List CompiledClass → List CompiledClass × Option Failure
  | [] => ([], none)
  | c :: rest =>
    let (c, p) := (c.resolve declared).run {}
    match p.failure with
    | some failure => (c :: rest, some failure)
    | none =>
      let (rest, failure) := resolveClasses declared rest
      (c :: rest, failure)

/-- The module with its names resolved, as far as they could be, and the fault if there is
one. -/
def CompiledModule.resolve (m : CompiledModule) : CompiledModule × Option Failure :=
  let (classes, failure) := resolveClasses (m.classes.map CompiledClass.name) m.classes
  ({ m with classes }, failure)

end ScriptOutline
