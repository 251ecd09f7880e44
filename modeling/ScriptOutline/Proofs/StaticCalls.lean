/-
ScriptOutline/Proofs/StaticCalls.lean

All that the resolution of names does to a module.  It fills in marks: the classes that types
stand for, the origins of variables, the names of blocks and methods, the called class of a
constructor call.  And in static code it turns some calls into static ones.  Two revisions tell
the two apart: `Revision.unresolved` takes all those marks out, `Revision.staticCalls` does
nothing but put in the static calls.  A module that resolves without a fault is, up to the marks,
the module it was with the static calls put in (`CompiledClass.unresolved_bound`), and one that
has been resolved does not change any more (`CompiledModule.resolve_ofScript`).

The default value of a parameter of a closure is not visited.  So a call in it stays as it is,
even in static code, where it would become a static one in any other place
(`CompiledModule.resolve_closureDefault`).
-/
import ScriptOutline.Proofs.Conservation
import ScriptOutline.Proofs.Rebinding
import ScriptOutline.Proofs.Revision

namespace ScriptOutline

/-! ### Two revisions -/

/-- The called class of a constructor call as it was written. -/
def TypeRef.targetAsWritten : Option SpecialCall → TypeRef → TypeRef
  | some .inherited, t => { t with name := SpecialCall.inherited.word }.asWritten
  | _, t => t.asWritten

/-- Takes out what the resolution of names fills in. -/
def Revision.unresolved : Revision where
  type := TypeRef.asWritten
  target := TypeRef.targetAsWritten
  origin _ := none
  declared _ := none
  defaults := false

/-- The class has a static method of that name. -/
def CompiledClass.hasStatic (c : CompiledClass) (name : String) : Bool :=
  c.methods.any fun m => m.modifiers.isStatic && m.name == name

/-- In static code, a call that names no receiver and calls a static method of the class becomes
a static call on the class. -/
def Revision.staticCalls (c : CompiledClass) (defaults inStatic : Bool) : Revision where
  call object method arguments safe implicitReceiver :=
    if inStatic && implicitReceiver && c.hasStatic method then
      .staticCall { TypeRef.named c.name with resolved := some c.name } method arguments
    else .call object method arguments safe implicitReceiver
  defaults

/-! ### Code -/

section

variable (k : ClassContext) (inStatic : Bool)

/-- The static calls that the resolution of names puts in. -/
def Revision.resolved : Revision where
  call := resolveCall k inStatic
  defaults := false

theorem revisedParameters_unresolved (ps : List Parameter) :
    revisedParameters .unresolved (boundClosureParameters k ps) =
      revisedParameters .unresolved (revisedParameters (.resolved k inStatic) ps) := by
  induction ps with
  | nil => rfl
  | cons p ps ih =>
    obtain ⟨name, type, value⟩ := p
    rw [boundClosureParameters] at ih ⊢
    simp only [List.map_cons, revisedParameters, ih, Parameter.revisedInClosure]
    rfl

theorem revisedHead_unresolved (head : Option (List Parameter)) :
    revisedHead .unresolved (head.map (boundClosureParameters k)) =
      revisedHead .unresolved (revisedHead (.resolved k inStatic) head) := by
  cases head with
  | none => rfl
  | some ps =>
    exact congrArg some (revisedParameters_unresolved k inStatic ps)

theorem boundTarget_asWritten (target : TypeRef) (special : Option SpecialCall) :
    (boundTarget k target special).targetAsWritten special = target.targetAsWritten special := by
  cases special with
  | none => rfl
  | some special => cases special <;> rfl

theorem Expression.revisedTarget_boundDeclared (target : Expression) :
    (boundDeclared k target).revisedTarget .unresolved =
      (target.revisedTarget (.resolved k inStatic)).revisedTarget .unresolved := by
  obtain ⟨node, span, inferred⟩ := target
  cases node with
  | variableRef name type origin => cases type <;> rfl
  | _ => rfl

theorem Binding.map_revised_bound (b : Option Binding) :
    (b.map (Binding.bound k)).map (Binding.revised .unresolved) =
      (b.map (Binding.revised (.resolved k inStatic))).map (Binding.revised .unresolved) := by
  cases b <;> rfl

mutual

/-- Up to the marks, binding code only puts in the static calls. -/
theorem Expression.unresolved_bound : ∀ (e : Expression) (env : Scope),
    (e.bound k inStatic env).revised .unresolved =
      (e.revised (.resolved k inStatic)).revised .unresolved
  | ⟨node, span, inferred⟩, env => by
    simp only [Expression.bound, Expression.revised, node.unresolved_bound]
    rfl

theorem ExpressionNode.unresolved_bound : ∀ (node : ExpressionNode) (env : Scope),
    (node.bound k inStatic env).revised .unresolved =
      (node.revised (.resolved k inStatic)).revised .unresolved
  | .call object method arguments safe implicitReceiver, env => by
    have hobject := object.unresolved_bound env
    have harguments := arguments.unresolved_bound (env.declareAll (Part.expression object).declares)
    simp only [ExpressionNode.bound, ExpressionNode.revised, Revision.resolved, resolveCall]
    split
    -- a static call keeps the arguments only, and then both sides have dropped the receiver
    · simp only [ExpressionNode.revised, harguments, Revision.resolved]
    · simp only [ExpressionNode.revised, hobject, harguments, Revision.resolved]
  | .staticCall owner method arguments, env => by
    simp only [ExpressionNode.bound, ExpressionNode.revised, arguments.unresolved_bound]
  | .construct target arguments special, env => by
    simp only [ExpressionNode.bound, ExpressionNode.revised, arguments.unresolved_bound]
    exact congrArg (ExpressionNode.construct · _ special) (boundTarget_asWritten k target special)
  | .binary left operation right, env => by
    simp only [ExpressionNode.bound, ExpressionNode.revised,
      left.unresolved_bound, right.unresolved_bound]
  | .declaration target value, env => by
    simp only [ExpressionNode.bound, ExpressionNode.revised, value.unresolved_bound,
      target.revisedTarget_boundDeclared k inStatic]
  | .ternary condition whenTrue whenFalse, env => by
    simp only [ExpressionNode.bound, ExpressionNode.revised,
      condition.unresolved_bound, whenTrue.unresolved_bound, whenFalse.unresolved_bound]
  | .elvis condition value otherwise, env => by
    simp only [ExpressionNode.bound, ExpressionNode.revised,
      condition.unresolved_bound, value.unresolved_bound, otherwise.unresolved_bound]
  | .step side operation operand, env => by
    simp only [ExpressionNode.bound, ExpressionNode.revised, operand.unresolved_bound]
  | .wrap wrapper operand, env => by
    simp only [ExpressionNode.bound, ExpressionNode.revised, operand.unresolved_bound]
  | .closure parameters code, env => by
    simp only [ExpressionNode.bound, ExpressionNode.revised, code.unresolved_bound,
      revisedHead_unresolved k inStatic]
  | .sequence form items, env => by
    simp only [ExpressionNode.bound, ExpressionNode.revised, unresolved_boundExpressions]
  | .array elementType elements sizes, env => by
    simp only [ExpressionNode.bound, ExpressionNode.revised, unresolved_boundExpressions]
    rfl
  | .mapEntry key value, env => by
    simp only [ExpressionNode.bound, ExpressionNode.revised,
      key.unresolved_bound, value.unresolved_bound]
  | .range first last inclusive, env => by
    simp only [ExpressionNode.bound, ExpressionNode.revised,
      first.unresolved_bound, last.unresolved_bound]
  | .methodPointer object method, env => by
    simp only [ExpressionNode.bound, ExpressionNode.revised, object.unresolved_bound]
  | .cast target operand coerce, env => by
    simp only [ExpressionNode.bound, ExpressionNode.revised, operand.unresolved_bound]
    rfl
  | .access object name accessor, env => by
    simp only [ExpressionNode.bound, ExpressionNode.revised, object.unresolved_bound]
  | .interpolation fragments values, env => by
    simp only [ExpressionNode.bound, ExpressionNode.revised, unresolved_boundExpressions]
  | .variableRef name declared origin, env => by cases declared <;> rfl
  | .constant _, _ | .classRef _, _ | .field .., _ | .bytecode _, _ | .empty, _ => rfl

theorem unresolved_boundExpressions : ∀ (es : List Expression) (env : Scope),
    revisedExpressions .unresolved (boundExpressions k inStatic env es) =
      revisedExpressions .unresolved (revisedExpressions (.resolved k inStatic) es)
  | [], _ => rfl
  | e :: rest, env => by
    simp only [boundExpressions, revisedExpressions, e.unresolved_bound,
      unresolved_boundExpressions rest]

theorem Statement.unresolved_bound : ∀ (s : Statement) (env : Scope),
    (s.bound k inStatic env).revised .unresolved =
      (s.revised (.resolved k inStatic)).revised .unresolved
  | ⟨node, span⟩, env => by
    simp only [Statement.bound, Statement.revised, node.unresolved_bound]
    rfl

theorem StatementNode.unresolved_bound : ∀ (node : StatementNode) (env : Scope),
    (node.bound k inStatic env).revised .unresolved =
      (node.revised (.resolved k inStatic)).revised .unresolved
  | .block statements declared, env => by
    simp only [StatementNode.bound, StatementNode.revised, unresolved_boundStatements]
    rfl
  | .expression value, env => by
    simp only [StatementNode.bound, StatementNode.revised, value.unresolved_bound]
  | .ret value, env => by
    simp only [StatementNode.bound, StatementNode.revised, value.unresolved_bound]
  | .assertion condition message, env => by
    simp only [StatementNode.bound, StatementNode.revised,
      condition.unresolved_bound, message.unresolved_bound]
  | .loop binding collection body, env => by
    simp only [StatementNode.bound, StatementNode.revised, collection.unresolved_bound,
      body.unresolved_bound, Binding.map_revised_bound k inStatic]
  | .whileLoop condition body, env => by
    simp only [StatementNode.bound, StatementNode.revised,
      condition.unresolved_bound, body.unresolved_bound]
  | .doWhile body condition, env => by
    simp only [StatementNode.bound, StatementNode.revised,
      body.unresolved_bound, condition.unresolved_bound]
  | .branch condition whenTrue whenFalse, env => by
    simp only [StatementNode.bound, StatementNode.revised,
      condition.unresolved_bound, whenTrue.unresolved_bound, whenFalse.unresolved_bound]
  | .tryCatch body catches finallyBlock, env => by
    simp only [StatementNode.bound, StatementNode.revised,
      body.unresolved_bound, unresolved_boundCatches, finallyBlock.unresolved_bound]
  | .switch subject cases defaultBlock, env => by
    simp only [StatementNode.bound, StatementNode.revised,
      subject.unresolved_bound, unresolved_boundCases, defaultBlock.unresolved_bound]
  | .synchronized lock code, env => by
    simp only [StatementNode.bound, StatementNode.revised,
      lock.unresolved_bound, code.unresolved_bound]
  | .throw value, env => by
    simp only [StatementNode.bound, StatementNode.revised, value.unresolved_bound]
  | .breakLoop, _ | .continueLoop, _ | .empty, _ => rfl

theorem unresolved_boundStatements : ∀ (ss : List Statement) (env : Scope),
    revisedStatements .unresolved (boundStatements k inStatic env ss) =
      revisedStatements .unresolved (revisedStatements (.resolved k inStatic) ss)
  | [], _ => rfl
  | s :: rest, env => by
    simp only [boundStatements, revisedStatements, s.unresolved_bound,
      unresolved_boundStatements rest]

theorem CatchClause.unresolved_bound : ∀ (c : CatchClause) (env : Scope),
    (c.bound k inStatic env).revised .unresolved =
      (c.revised (.resolved k inStatic)).revised .unresolved
  | ⟨binding, code, span⟩, env => by
    simp only [CatchClause.bound, CatchClause.revised, code.unresolved_bound]
    rfl

theorem unresolved_boundCatches : ∀ (cs : List CatchClause) (env : Scope),
    revisedCatches .unresolved (boundCatches k inStatic env cs) =
      revisedCatches .unresolved (revisedCatches (.resolved k inStatic) cs)
  | [], _ => rfl
  | c :: rest, env => by
    simp only [boundCatches, revisedCatches, c.unresolved_bound, unresolved_boundCatches rest]

theorem CaseClause.unresolved_bound : ∀ (c : CaseClause) (env : Scope),
    (c.bound k inStatic env).revised .unresolved =
      (c.revised (.resolved k inStatic)).revised .unresolved
  | ⟨subject, code, span⟩, env => by
    simp only [CaseClause.bound, CaseClause.revised, subject.unresolved_bound,
      code.unresolved_bound]
    rfl

theorem unresolved_boundCases : ∀ (cs : List CaseClause) (env : Scope),
    revisedCases .unresolved (boundCases k inStatic env cs) =
      revisedCases .unresolved (revisedCases (.resolved k inStatic) cs)
  | [], _ => rfl
  | c :: rest, env => by
    simp only [boundCases, revisedCases, c.unresolved_bound, unresolved_boundCases rest]

end

end

/-! ### Members -/

/-- The annotation as it was written. -/
def Annotation.unresolved (a : Annotation) : Annotation := { a with type := a.type.asWritten }

def Field.unresolved (f : Field) : Field :=
  { f with type := f.type.asWritten, initial := f.initial.map (·.revised .unresolved) }

def Property.unresolved (p : Property) : Property := { p with type := p.type.asWritten }

def Constructor.unresolved (x : Constructor) : Constructor :=
  { x with
    parameters := x.parameters.map (·.revised .unresolved)
    code := x.code.map (·.revised .unresolved) }

def Method.unresolved (m : Method) : Method :=
  { m with
    returnType := m.returnType.asWritten
    parameters := m.parameters.map (·.revised .unresolved)
    code := m.code.map (·.revised .unresolved)
    variableScope := none }

/-- A class without all that the resolution of names fills in. -/
def CompiledClass.unresolved (c : CompiledClass) : CompiledClass :=
  { c with
    superClass := c.superClass.asWritten
    interfaces := c.interfaces.map TypeRef.asWritten
    annotations := c.annotations.map Annotation.unresolved
    fields := c.fields.map Field.unresolved
    properties := c.properties.map Property.unresolved
    constructors := c.constructors.map Constructor.unresolved
    methods := c.methods.map Method.unresolved }

/-- A class with the static calls put in: in the initial values of its static fields, and in the
default values and the code of its static methods. -/
def CompiledClass.withStaticCalls (c : CompiledClass) (defaults : Bool) : CompiledClass :=
  { c with
    fields := c.fields.map fun f =>
      { f with initial := f.initial.map (·.revised (.staticCalls c defaults f.modifiers.isStatic)) }
    constructors := c.constructors.map fun x =>
      { x with
        parameters := x.parameters.map (·.revised (.staticCalls c defaults false))
        code := x.code.map (·.revised (.staticCalls c defaults false)) }
    methods := c.methods.map fun m =>
      { m with
        parameters := m.parameters.map (·.revised (.staticCalls c defaults m.modifiers.isStatic))
        code := m.code.map (·.revised (.staticCalls c defaults m.modifiers.isStatic)) } }

section

variable (k : ClassContext) (inStatic : Bool)

theorem Expression.map_unresolved_bound (env : Scope) (e : Option Expression) :
    (e.map (·.bound k inStatic env)).map (·.revised .unresolved) =
      (e.map (·.revised (.resolved k inStatic))).map (·.revised .unresolved) := by
  cases e with
  | none => rfl
  | some e => exact congrArg some (e.unresolved_bound k inStatic env)

theorem Statement.map_unresolved_bound (env : Scope) (s : Option Statement) :
    (s.map (·.bound k inStatic env)).map (·.revised .unresolved) =
      (s.map (·.revised (.resolved k inStatic))).map (·.revised .unresolved) := by
  cases s with
  | none => rfl
  | some s => exact congrArg some (s.unresolved_bound k inStatic env)

theorem map_unresolved_boundParameters (env : Scope) (ps : List Parameter) :
    (boundParameters k inStatic env ps).map (·.revised .unresolved) =
      (ps.map (·.revised (.resolved k inStatic))).map (·.revised .unresolved) := by
  induction ps generalizing env with
  | nil => rfl
  | cons p ps ih =>
    rw [boundParameters, List.map_cons, ih, List.map_cons, List.map_cons]
    simp only [Parameter.revised, Expression.map_unresolved_bound]
    rfl

end

/-- The static calls that are put in are those of the static methods of the class. -/
theorem Revision.resolved_of (declared : List String) (c : CompiledClass) (inStatic : Bool) :
    Revision.resolved (.of declared c) inStatic = .staticCalls c false inStatic := by
  have hstatic (name : String) :
      (ClassContext.of declared c).staticMethods.contains name = c.hasStatic name := by
    simp only [ClassContext.of, CompiledClass.hasStatic, List.contains_eq_any_beq, List.any_map,
      List.any_filter, Function.comp_def]
    congr 1
    funext m
    rw [BEq.comm]
  simp only [Revision.resolved, Revision.staticCalls]
  congr 1
  funext object method arguments safe implicitReceiver
  rw [resolveCall, hstatic]
  rfl

/-! ### Classes and modules -/

/-- Up to the marks, binding a class only puts in the static calls. -/
theorem CompiledClass.unresolved_bound (declared : List String) (c : CompiledClass) :
    (c.bound declared).unresolved = (c.withStaticCalls false).unresolved := by
  have hfield (f : Field) : (f.bound (.of declared c)).unresolved = Field.unresolved
      { f with
        initial := f.initial.map (·.revised (.staticCalls c false f.modifiers.isStatic)) } := by
    simp only [Field.bound, Field.unresolved, Expression.map_unresolved_bound,
      Revision.resolved_of, TypeRef.asWritten_resolve]
  have hconstructor (x : Constructor) :
      (x.bound (.of declared c)).unresolved = Constructor.unresolved
        { x with
          parameters := x.parameters.map (·.revised (.staticCalls c false false))
          code := x.code.map (·.revised (.staticCalls c false false)) } := by
    simp only [Constructor.bound, Constructor.unresolved, Statement.map_unresolved_bound,
      map_unresolved_boundParameters, Revision.resolved_of]
  have hmethod (m : Method) : (m.bound (.of declared c)).unresolved = Method.unresolved
      { m with
        parameters := m.parameters.map (·.revised (.staticCalls c false m.modifiers.isStatic))
        code := m.code.map (·.revised (.staticCalls c false m.modifiers.isStatic)) } := by
    simp only [Method.bound, Method.unresolved, Statement.map_unresolved_bound,
      map_unresolved_boundParameters, Revision.resolved_of, TypeRef.asWritten_resolve]
  rw [bound_eq]
  simp only [unresolved, withStaticCalls, List.map_map, Function.comp_def, hfield, hconstructor,
    hmethod, TypeRef.asWritten_resolve]
  rfl

/-- The classes without all that the resolution of names fills in. -/
def CompiledModule.unresolved (m : CompiledModule) : CompiledModule :=
  { m with classes := m.classes.map CompiledClass.unresolved }

/-- The classes with the static calls put in. -/
def CompiledModule.withStaticCalls (m : CompiledModule) (defaults : Bool) : CompiledModule :=
  { m with classes := m.classes.map (·.withStaticCalls defaults) }

/-- The module of a script is resolved once and for all: done again, the resolution of names
changes nothing and answers the same fault.  If there is none, then up to the marks that it fills
in it has put in the static calls, in all static code but the default values of the parameters of
closures. -/
theorem CompiledModule.resolve_ofScript {source name : String} {s : Script} {m : CompiledModule}
    (hs : Script.parse source = .ok s) (hm : CompiledModule.ofScript name s = .ok m) :
    m.resolve.1.resolve = m.resolve ∧
      (m.resolve.2 = none → m.resolve.1.unresolved = (m.withStaticCalls false).unresolved) := by
  refine ⟨resolve_resolve (ofScript_tidy (Script.parse_tidy hs) hm), fun h => ?_⟩
  rw [resolve_eq_map h]
  simp only [unresolved, withStaticCalls, List.map_map, Function.comp_def,
    CompiledClass.unresolved_bound]

/-! ### Two classes -/

/-- The texts of the methods of each class, for those that have code. -/
def CompiledModule.codeTexts (m : CompiledModule) : List (List String) :=
  m.classes.map fun c => c.methods.filterMap fun x => x.code.map Statement.text

/-- The module of a source passes a check. -/
def modulePasses (check : CompiledModule → Bool) (source : String) : Bool :=
  match Script.parse source with
  | .ok s =>
    match CompiledModule.ofScript "Script1" s with
    | .ok m => check m
    | .error _ => false
  | .error _ => false

theorem exists_of_modulePasses (check : CompiledModule → Bool) (source : String)
    (h : modulePasses check source = true) :
    ∃ s m, Script.parse source = .ok s ∧ CompiledModule.ofScript "Script1" s = .ok m ∧
      check m = true := by
  rw [modulePasses] at h
  split at h
  · next s hs =>
    split at h
    · next m hm => exact ⟨s, m, hs, hm, h⟩
    · simp at h
  · simp at h

/-- Calls in a default value and in a closure of a static method, and one in another method. -/
def staticCode : String :=
  "class A \x7b static def h() \x7b 1 \x7d\n" ++
  "static def f(a = h()) \x7b \x7b h() \x7d \x7d\ndef g() \x7b h() \x7d \x7d"

theorem CompiledModule.resolve_ofScript_staticCode :
    ∃ s m, Script.parse staticCode = .ok s ∧ ofScript "Script1" s = .ok m ∧ m.resolve.2 = none ∧
      m.resolve.1.resolve = m.resolve ∧
      m.resolve.1.unresolved = (m.withStaticCalls false).unresolved ∧
      (m.withStaticCalls false).codeTexts =
        [["\x7b 1 \x7d", "\x7b \x7b A.h() \x7d \x7d", "\x7b this.h() \x7d"]] := by
  obtain ⟨s, m, hs, hm, hcheck⟩ := exists_of_modulePasses
    (fun m => m.resolve.2 = none ∧ (m.withStaticCalls false).codeTexts =
      [["\x7b 1 \x7d", "\x7b \x7b A.h() \x7d \x7d", "\x7b this.h() \x7d"]])
    staticCode (by decide +kernel)
  obtain ⟨hnone, htexts⟩ := of_decide_eq_true hcheck
  obtain ⟨hagain, hframe⟩ := resolve_ofScript hs hm
  exact ⟨s, m, hs, hm, hnone, hagain, hframe hnone, htexts⟩

/-- A call in the default value of a parameter of a closure, in a static method. -/
def closureDefault : String :=
  "class A \x7b static def h() \x7b 1 \x7d\n static def f() \x7b \x7b a = h() -> a \x7d \x7d \x7d"

/-- It stays a call on the receiver, and so the module is not, up to the marks, what it was with
all static calls put in. -/
theorem CompiledModule.resolve_closureDefault :
    ∃ s m, Script.parse closureDefault = .ok s ∧ ofScript "Script1" s = .ok m ∧
      m.resolve.2 = none ∧
      m.resolve.1.codeTexts =
        [["\x7b 1 \x7d", "\x7b \x7b Object a = this.h() -> a \x7d \x7d"]] ∧
      m.resolve.1.unresolved ≠ (m.withStaticCalls true).unresolved := by
  obtain ⟨s, m, hs, hm, hcheck⟩ := exists_of_modulePasses
    (fun m => m.resolve.2 = none ∧
      m.resolve.1.codeTexts =
        [["\x7b 1 \x7d", "\x7b \x7b Object a = this.h() -> a \x7d \x7d"]] ∧
      m.resolve.1.unresolved.codeTexts ≠ (m.withStaticCalls true).unresolved.codeTexts)
    closureDefault (by decide +kernel)
  obtain ⟨hnone, htexts, hne⟩ := of_decide_eq_true hcheck
  exact ⟨s, m, hs, hm, hnone, htexts, fun h => hne (congrArg codeTexts h)⟩

end ScriptOutline
