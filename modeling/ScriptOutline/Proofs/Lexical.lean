/-
ScriptOutline/Proofs/Lexical.lean

Lexical scope, told with an environment that is handed down.  `Expression.bound` and
`Statement.bound` give each variable the origin that its environment has for it; nothing is
pushed, popped or remembered.  The environment of a part is that of the whole, with the names
declared by the parts before it (`Part.declares`), and with a new frame inside a block, a loop
over a collection, a catch clause, a closure and the parameter list of a member.

The classes that types stand for, and the calls that become static ones, depend on no
environment; they are put in along the way, so that the result is the whole resolved code.
-/
import ScriptOutline.Module.Resolution
import ScriptOutline.Proofs.Site

namespace ScriptOutline

/-! ### Environments -/

namespace Scope

/-- The origin of the most recent declaration of a name in the innermost frame that holds
one. -/
def nearest? (env : Scope) (name : String) : Option Origin :=
  match env.find? (fun frame => frame.any (·.1 == name)) with
  | none => none
  | some frame => (frame.find? (·.1 == name)).map Prod.snd

/-- The names are declared one after the other in the innermost frame, as local variables. -/
def declareAll (names : List String) (env : Scope) : Scope :=
  names.foldl (fun env name => env.declare name .localVariable) env

@[simp] theorem declareAll_nil (env : Scope) : declareAll [] env = env := rfl

theorem declareAll_append (xs ys : List String) (env : Scope) :
    declareAll (xs ++ ys) env = declareAll ys (declareAll xs env) := List.foldl_append

end Scope

/-- The origin that a variable has in an environment. -/
def ClassContext.originIn (k : ClassContext) (env : Scope) (name : String) : Origin :=
  if name = "this" ∨ name = "super" then .receiver
  else
    match env.nearest? name with
    | some origin => origin
    | none =>
      if name ∈ k.fields ∧ name ∉ k.properties then .field
      else if name ∈ k.properties then .property
      else .dynamic

/-- The frame of a closure: its parameters, or the implicit one. -/
def closureFrame : Option (List Parameter) → Frame
  | some parameters => (parameters.map fun p => (p.name, .parameter)).reverse
  | none => [("it", .parameter)]

/-- The environment in the body of a loop, after its collection. -/
def loopEnvironment (binding : Option Binding) (collection : Expression) (env : Scope) : Scope :=
  ((env.enter).declareAll (Part.expression collection).declares).declareAll
    (binding.map Binding.name).toList

/-! ### Types -/

/-- The class that a constructor call calls. -/
def boundTarget (k : ClassContext) (target : TypeRef) : Option SpecialCall → TypeRef
  | some .own => { target with resolved := some k.name }
  | some .inherited => { target with name := k.superClass }.resolve k.declared
  | none => target.resolve k.declared

/-- Parameters of a closure; their default values are left alone. -/
def boundClosureParameters (k : ClassContext) (ps : List Parameter) : List Parameter :=
  ps.map fun p => { p with type := p.type.resolve k.declared }

/-- The target of a declaration is the local variable that it declares. -/
def boundDeclared (k : ClassContext) (target : Expression) : Expression :=
  match target.node with
  | .variableRef name type _ =>
    { target with
      node := .variableRef name (type.map (·.resolve k.declared)) (some .localVariable) }
  | _ => target

/-- A name with the class that its type stands for. -/
def Binding.bound (k : ClassContext) (b : Binding) : Binding :=
  { b with type := b.type.resolve k.declared }

/-! ### Code -/

mutual

/-- An expression with the origins that its variables have in an environment. -/
def Expression.bound (k : ClassContext) (inStatic : Bool) (env : Scope) :
    Expression → Expression
  | ⟨node, span, inferred⟩ => ⟨node.bound k inStatic env, span, inferred⟩

def ExpressionNode.bound (k : ClassContext) (inStatic : Bool) (env : Scope) :
    ExpressionNode → ExpressionNode
  | .call object method arguments safe implicitReceiver =>
    resolveCall k inStatic (object.bound k inStatic env) method
      (arguments.bound k inStatic (env.declareAll (Part.expression object).declares)) safe
      implicitReceiver
  | .staticCall owner method arguments =>
    .staticCall owner method (arguments.bound k inStatic env)
  | .construct target arguments special =>
    .construct (boundTarget k target special) (arguments.bound k inStatic env) special
  | .binary left operation right =>
    .binary (left.bound k inStatic env) operation
      (right.bound k inStatic (env.declareAll (Part.expression left).declares))
  | .declaration target value =>
    .declaration (boundDeclared k target) (value.bound k inStatic env)
  | .ternary condition whenTrue whenFalse =>
    .ternary (condition.bound k inStatic env)
      (whenTrue.bound k inStatic (env.declareAll (Part.expression condition).declares))
      (whenFalse.bound k inStatic
        ((env.declareAll (Part.expression condition).declares).declareAll
          (Part.expression whenTrue).declares))
  | .elvis condition value otherwise =>
    .elvis (condition.bound k inStatic env)
      (value.bound k inStatic (env.declareAll (Part.expression condition).declares))
      (otherwise.bound k inStatic
        ((env.declareAll (Part.expression condition).declares).declareAll
          (Part.expression value).declares))
  | .step side operation operand => .step side operation (operand.bound k inStatic env)
  | .wrap wrapper operand => .wrap wrapper (operand.bound k inStatic env)
  | .closure parameters code =>
    .closure (parameters.map (boundClosureParameters k))
      (code.bound k inStatic (closureFrame parameters :: env))
  | .sequence form items => .sequence form (boundExpressions k inStatic env items)
  | .array elementType elements sizes =>
    .array (elementType.resolve k.declared) (boundExpressions k inStatic env elements)
      (boundExpressions k inStatic
        (env.declareAll (elements.flatMap fun e => (Part.expression e).declares)) sizes)
  | .mapEntry key value =>
    .mapEntry (key.bound k inStatic env)
      (value.bound k inStatic (env.declareAll (Part.expression key).declares))
  | .range first last inclusive =>
    .range (first.bound k inStatic env)
      (last.bound k inStatic (env.declareAll (Part.expression first).declares)) inclusive
  | .methodPointer object method => .methodPointer (object.bound k inStatic env) method
  | .cast target operand coerce =>
    .cast (target.resolve k.declared) (operand.bound k inStatic env) coerce
  | .constant value => .constant value
  | .classRef type => .classRef (type.resolve k.declared)
  | .variableRef name declared _ => .variableRef name declared (some (k.originIn env name))
  | .access object name accessor => .access (object.bound k inStatic env) name accessor
  | .field name owner => .field name owner
  | .interpolation fragments values =>
    .interpolation (boundExpressions k inStatic env fragments)
      (boundExpressions k inStatic
        (env.declareAll (fragments.flatMap fun e => (Part.expression e).declares)) values)
  | .bytecode instructions => .bytecode instructions
  | .empty => .empty

def boundExpressions (k : ClassContext) (inStatic : Bool) (env : Scope) :
    List Expression → List Expression
  | [] => []
  | e :: rest =>
    e.bound k inStatic env ::
      boundExpressions k inStatic (env.declareAll (Part.expression e).declares) rest

/-- A statement with the origins that its variables have in an environment, and with the
names that each block in it declares. -/
def Statement.bound (k : ClassContext) (inStatic : Bool) (env : Scope) : Statement → Statement
  | ⟨node, span⟩ => ⟨node.bound k inStatic env, span⟩

def StatementNode.bound (k : ClassContext) (inStatic : Bool) (env : Scope) :
    StatementNode → StatementNode
  | .block statements _ =>
    .block (boundStatements k inStatic env.enter statements)
      (some (statements.flatMap fun s => (Part.statement s).declares))
  | .expression value => .expression (value.bound k inStatic env)
  | .ret value => .ret (value.bound k inStatic env)
  | .assertion condition message =>
    .assertion (condition.bound k inStatic env)
      (message.bound k inStatic (env.declareAll (Part.expression condition).declares))
  | .loop binding collection body =>
    .loop (binding.map (Binding.bound k)) (collection.bound k inStatic env.enter)
      (body.bound k inStatic (loopEnvironment binding collection env))
  | .whileLoop condition body =>
    .whileLoop (condition.bound k inStatic env)
      (body.bound k inStatic (env.declareAll (Part.expression condition).declares))
  | .doWhile body condition =>
    .doWhile (body.bound k inStatic env)
      (condition.bound k inStatic (env.declareAll (Part.statement body).declares))
  | .branch condition whenTrue whenFalse =>
    .branch (condition.bound k inStatic env)
      (whenTrue.bound k inStatic (env.declareAll (Part.expression condition).declares))
      (whenFalse.bound k inStatic
        ((env.declareAll (Part.expression condition).declares).declareAll
          (Part.statement whenTrue).declares))
  | .tryCatch body catches finallyBlock =>
    .tryCatch (body.bound k inStatic env)
      (boundCatches k inStatic (env.declareAll (Part.statement body).declares) catches)
      (finallyBlock.bound k inStatic (env.declareAll (Part.statement body).declares))
  | .switch subject cases defaultBlock =>
    .switch (subject.bound k inStatic env)
      (boundCases k inStatic (env.declareAll (Part.expression subject).declares) cases)
      (defaultBlock.bound k inStatic
        ((env.declareAll (Part.expression subject).declares).declareAll
          (cases.flatMap fun c => (Part.caseClause c).declares)))
  | .breakLoop => .breakLoop
  | .continueLoop => .continueLoop
  | .synchronized lock code =>
    .synchronized (lock.bound k inStatic env)
      (code.bound k inStatic (env.declareAll (Part.expression lock).declares))
  | .throw value => .throw (value.bound k inStatic env)
  | .empty => .empty

def boundStatements (k : ClassContext) (inStatic : Bool) (env : Scope) :
    List Statement → List Statement
  | [] => []
  | s :: rest =>
    s.bound k inStatic env ::
      boundStatements k inStatic (env.declareAll (Part.statement s).declares) rest

/-- The variable of a catch clause is a parameter of its code. -/
def CatchClause.bound (k : ClassContext) (inStatic : Bool) (env : Scope) :
    CatchClause → CatchClause
  | ⟨binding, code, span⟩ =>
    ⟨binding.bound k, code.bound k inStatic ([(binding.name, .parameter)] :: env), span⟩

/-- Catch clauses declare nothing outside of themselves. -/
def boundCatches (k : ClassContext) (inStatic : Bool) (env : Scope) :
    List CatchClause → List CatchClause
  | [] => []
  | c :: rest => c.bound k inStatic env :: boundCatches k inStatic env rest

def CaseClause.bound (k : ClassContext) (inStatic : Bool) (env : Scope) :
    CaseClause → CaseClause
  | ⟨subject, code, span⟩ =>
    ⟨subject.bound k inStatic env,
      code.bound k inStatic (env.declareAll (Part.expression subject).declares), span⟩

def boundCases (k : ClassContext) (inStatic : Bool) (env : Scope) :
    List CaseClause → List CaseClause
  | [] => []
  | c :: rest =>
    c.bound k inStatic env ::
      boundCases k inStatic (env.declareAll (Part.caseClause c).declares) rest

end

/-- A bound call is still that call, or it was made without a receiver and is a static call with
the same arguments. -/
theorem ExpressionNode.bound_call_cases (k : ClassContext) (inStatic : Bool) (env : Scope)
    (object : Expression) (method : String) (arguments : Expression)
    (safe implicitReceiver : Bool) :
    (implicitReceiver = true ∧ ∃ owner,
      (call object method arguments safe implicitReceiver).bound k inStatic env =
        .staticCall owner method
          (arguments.bound k inStatic (env.declareAll (Part.expression object).declares))) ∨
    (call object method arguments safe implicitReceiver).bound k inStatic env =
      .call (object.bound k inStatic env) method
        (arguments.bound k inStatic (env.declareAll (Part.expression object).declares)) safe
        implicitReceiver := by
  rw [ExpressionNode.bound, resolveCall]
  split
  · next hstatic =>
    simp only [Bool.and_eq_true] at hstatic
    exact .inl ⟨hstatic.1.2, _, rfl⟩
  · exact .inr rfl

/-- What is true of all calls and static calls is true of a bound call. -/
theorem ExpressionNode.bound_call_induction {P : ExpressionNode → Prop}
    (hcall : ∀ object method arguments safe implicitReceiver,
      P (.call object method arguments safe implicitReceiver))
    (hstatic : ∀ owner method arguments, P (.staticCall owner method arguments))
    (k : ClassContext) (inStatic : Bool) (env : Scope) (object : Expression) (method : String)
    (arguments : Expression) (safe implicitReceiver : Bool) :
    P ((call object method arguments safe implicitReceiver).bound k inStatic env) := by
  rcases bound_call_cases k inStatic env object method arguments safe implicitReceiver with
    ⟨-, owner, hbound⟩ | hbound
  · exact hbound ▸ hstatic _ _ _
  · exact hbound ▸ hcall _ _ _ _ _

/-! ### Members -/

/-- The environment after a list of parameters: each one is declared after its default
value. -/
def parameterEnvironment (env : Scope) : List Parameter → Scope
  | [] => env
  | p :: rest =>
    parameterEnvironment
      ((env.declareAll (p.defaultValue.toList.flatMap fun e => (Part.expression e).declares)).declare
        p.name .parameter) rest

/-- Parameters of a member: a default value can refer to the parameters before its own. -/
def boundParameters (k : ClassContext) (inStatic : Bool) (env : Scope) :
    List Parameter → List Parameter
  | [] => []
  | p :: rest =>
    { p with
      type := p.type.resolve k.declared
      defaultValue := p.defaultValue.map (·.bound k inStatic env) } ::
      boundParameters k inStatic (parameterEnvironment env [p]) rest

/-- The code of a member that is visited: the default values of its parameters, then its
body. -/
def memberCode (parameters : List Parameter) (code : Option Statement) : List Part :=
  (parameters.filterMap Parameter.defaultValue).map Part.expression ++
    code.toList.map Part.statement

/-- An initial value has no frame around it. -/
def Field.bound (k : ClassContext) (f : Field) : Field :=
  { f with
    type := f.type.resolve k.declared
    initial := f.initial.map (·.bound k f.modifiers.isStatic []) }

def Constructor.bound (k : ClassContext) (c : Constructor) : Constructor :=
  { c with
    parameters := boundParameters k false [[]] c.parameters
    code := c.code.map (·.bound k false (parameterEnvironment [[]] c.parameters)) }

/-- The scope of a method is its parameters and the local variables of its code. -/
def Method.bound (k : ClassContext) (m : Method) : Method :=
  { m with
    returnType := m.returnType.resolve k.declared
    parameters := boundParameters k m.modifiers.isStatic [[]] m.parameters
    code := m.code.map (·.bound k m.modifiers.isStatic (parameterEnvironment [[]] m.parameters))
    variableScope := some (m.parameters.map Parameter.name ++
      (memberCode m.parameters m.code).flatMap Part.locals) }

/-! ### Classes -/

/-- A class without the code of its members. -/
def CompiledClass.signature (c : CompiledClass) : CompiledClass :=
  { c with
    fields := c.fields.map fun f => { f with initial := none }
    constructors := c.constructors.map fun x => { x with parameters := [], code := none }
    methods := c.methods.map fun m => { m with parameters := [], code := none } }

/-- A class with its names resolved.  Each member is bound on its own: it has its own code,
and all that it is told about the others is the signature of the class. -/
def CompiledClass.bound (declared : List String) (c : CompiledClass) : CompiledClass :=
  let k := ClassContext.of declared c.signature
  { c with
    superClass := c.superClass.resolve declared
    interfaces := c.interfaces.map (·.resolve declared)
    annotations := c.annotations.map (·.resolve k)
    fields := c.fields.map (Field.bound k)
    properties := c.properties.map (·.resolve k)
    constructors := c.constructors.map (Constructor.bound k)
    methods := c.methods.map (Method.bound k) }

/-- The code of a class that is visited, in the order of the visit. -/
def CompiledClass.analysedCode (c : CompiledClass) : List Part :=
  c.fields.flatMap (fun f => f.initial.toList.map Part.expression) ++
    c.constructors.flatMap (fun x => memberCode x.parameters x.code) ++
    c.methods.flatMap (fun m => memberCode m.parameters m.code)

/-- What is wrong in the code of a class, in the order of the visit. -/
def CompiledClass.faults (declared : List String) (c : CompiledClass) : List Failure :=
  c.analysedCode.flatMap (Part.faults declared [])

end ScriptOutline
