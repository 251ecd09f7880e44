/-
ScriptOutline/Proofs/Revision.lean

Code with some of its marks changed.  A revision says what becomes of each kind of mark (spans,
types, the called class of a constructor call, origins of variables, names of blocks) and of a
method call; `Expression.revised` and `Statement.revised` put it through a whole tree, from the
leaves up.  Everything that is no mark stays: the shape of the tree, names, operators, literals.

What a declaration declares is a variable.  The owner of a static call is no mark: it was put in
with the call.
-/
import ScriptOutline.Code.Declaration

namespace ScriptOutline

/-- What becomes of the marks and the calls in code. -/
structure Revision where
  span : Span → Span := id
  type : TypeRef → TypeRef := id
  target : Option SpecialCall → TypeRef → TypeRef := fun _ => id
  origin : Option Origin → Option Origin := id
  declared : Option (List String) → Option (List String) := id
  call : Expression → String → Expression → Bool → Bool → ExpressionNode := .call
  /-- The default values of the parameters of closures are revised as well. -/
  defaults : Bool := true

/-- A name with its type. -/
def Binding.revised (r : Revision) (b : Binding) : Binding := { b with type := r.type b.type }

/-- What is declared. -/
def Expression.revisedTarget (r : Revision) : Expression → Expression
  | ⟨.variableRef name type origin, span, inferred⟩ =>
    ⟨.variableRef name (type.map r.type) (r.origin origin), r.span span, inferred⟩
  | ⟨node, span, inferred⟩ => ⟨node, r.span span, inferred⟩

/-! ### Code -/

mutual

def Expression.revised (r : Revision) : Expression → Expression
  | ⟨node, span, inferred⟩ => ⟨node.revised r, r.span span, inferred⟩

def ExpressionNode.revised (r : Revision) : ExpressionNode → ExpressionNode
  | .call object method arguments safe implicitReceiver =>
    r.call (object.revised r) method (arguments.revised r) safe implicitReceiver
  | .staticCall owner method arguments => .staticCall owner method (arguments.revised r)
  | .construct target arguments special =>
    .construct (r.target special target) (arguments.revised r) special
  | .binary left operation right => .binary (left.revised r) operation (right.revised r)
  | .declaration target value => .declaration (target.revisedTarget r) (value.revised r)
  | .ternary condition whenTrue whenFalse =>
    .ternary (condition.revised r) (whenTrue.revised r) (whenFalse.revised r)
  | .elvis condition value otherwise =>
    .elvis (condition.revised r) (value.revised r) (otherwise.revised r)
  | .step side operation operand => .step side operation (operand.revised r)
  | .wrap wrapper operand => .wrap wrapper (operand.revised r)
  | .closure parameters code => .closure (revisedHead r parameters) (code.revised r)
  | .sequence form items => .sequence form (revisedExpressions r items)
  | .array elementType elements sizes =>
    .array (r.type elementType) (revisedExpressions r elements) (revisedExpressions r sizes)
  | .mapEntry key value => .mapEntry (key.revised r) (value.revised r)
  | .range first last inclusive => .range (first.revised r) (last.revised r) inclusive
  | .methodPointer object method => .methodPointer (object.revised r) method
  | .cast target operand coerce => .cast (r.type target) (operand.revised r) coerce
  | .constant value => .constant value
  | .classRef type => .classRef (r.type type)
  | .variableRef name declared origin =>
    .variableRef name (declared.map r.type) (r.origin origin)
  | .access object name accessor => .access (object.revised r) name accessor
  | .field name owner => .field name owner
  | .interpolation fragments values =>
    .interpolation (revisedExpressions r fragments) (revisedExpressions r values)
  | .bytecode instructions => .bytecode instructions
  | .empty => .empty

def revisedExpressions (r : Revision) : List Expression → List Expression
  | [] => []
  | e :: rest => e.revised r :: revisedExpressions r rest

/-- The parameters of a closure, if it has any. -/
def revisedHead (r : Revision) : Option (List Parameter) → Option (List Parameter)
  | none => none
  | some parameters => some (revisedParameters r parameters)

def revisedParameters (r : Revision) : List Parameter → List Parameter
  | [] => []
  | p :: rest => p.revisedInClosure r :: revisedParameters r rest

def Parameter.revisedInClosure (r : Revision) : Parameter → Parameter
  | ⟨name, type, value⟩ =>
    ⟨name, r.type type, if r.defaults then revisedDefault r value else value⟩

def revisedDefault (r : Revision) : Option Expression → Option Expression
  | none => none
  | some e => some (e.revised r)

def Statement.revised (r : Revision) : Statement → Statement
  | ⟨node, span⟩ => ⟨node.revised r, r.span span⟩

def StatementNode.revised (r : Revision) : StatementNode → StatementNode
  | .block statements declared => .block (revisedStatements r statements) (r.declared declared)
  | .expression value => .expression (value.revised r)
  | .ret value => .ret (value.revised r)
  | .assertion condition message => .assertion (condition.revised r) (message.revised r)
  | .loop binding collection body =>
    .loop (binding.map (Binding.revised r)) (collection.revised r) (body.revised r)
  | .whileLoop condition body => .whileLoop (condition.revised r) (body.revised r)
  | .doWhile body condition => .doWhile (body.revised r) (condition.revised r)
  | .branch condition whenTrue whenFalse =>
    .branch (condition.revised r) (whenTrue.revised r) (whenFalse.revised r)
  | .tryCatch body catches finallyBlock =>
    .tryCatch (body.revised r) (revisedCatches r catches) (finallyBlock.revised r)
  | .switch subject cases defaultBlock =>
    .switch (subject.revised r) (revisedCases r cases) (defaultBlock.revised r)
  | .breakLoop => .breakLoop
  | .continueLoop => .continueLoop
  | .synchronized lock code => .synchronized (lock.revised r) (code.revised r)
  | .throw value => .throw (value.revised r)
  | .empty => .empty

def revisedStatements (r : Revision) : List Statement → List Statement
  | [] => []
  | s :: rest => s.revised r :: revisedStatements r rest

def CatchClause.revised (r : Revision) : CatchClause → CatchClause
  | ⟨binding, code, span⟩ => ⟨binding.revised r, code.revised r, r.span span⟩

def revisedCatches (r : Revision) : List CatchClause → List CatchClause
  | [] => []
  | c :: rest => c.revised r :: revisedCatches r rest

def CaseClause.revised (r : Revision) : CaseClause → CaseClause
  | ⟨subject, code, span⟩ => ⟨subject.revised r, code.revised r, r.span span⟩

def revisedCases (r : Revision) : List CaseClause → List CaseClause
  | [] => []
  | c :: rest => c.revised r :: revisedCases r rest

end

/-! ### Members -/

/-- A parameter of a member. -/
def Parameter.revised (r : Revision) (p : Parameter) : Parameter :=
  { p with type := r.type p.type, defaultValue := p.defaultValue.map (·.revised r) }

/-! ### Lists -/

theorem revisedExpressions_eq_map (r : Revision) (es : List Expression) :
    revisedExpressions r es = es.map (·.revised r) := by
  induction es with
  | nil => rfl
  | cons e es ih => rw [revisedExpressions, List.map_cons, ih]

theorem revisedStatements_eq_map (r : Revision) (ss : List Statement) :
    revisedStatements r ss = ss.map (·.revised r) := by
  induction ss with
  | nil => rfl
  | cons s ss ih => rw [revisedStatements, List.map_cons, ih]

theorem revisedCatches_eq_map (r : Revision) (cs : List CatchClause) :
    revisedCatches r cs = cs.map (·.revised r) := by
  induction cs with
  | nil => rfl
  | cons c cs ih => rw [revisedCatches, List.map_cons, ih]

theorem revisedCases_eq_map (r : Revision) (cs : List CaseClause) :
    revisedCases r cs = cs.map (·.revised r) := by
  induction cs with
  | nil => rfl
  | cons c cs ih => rw [revisedCases, List.map_cons, ih]

theorem revisedParameters_eq_map (r : Revision) (ps : List Parameter) :
    revisedParameters r ps = ps.map (·.revisedInClosure r) := by
  induction ps with
  | nil => rfl
  | cons p ps ih => rw [revisedParameters, List.map_cons, ih]

end ScriptOutline
